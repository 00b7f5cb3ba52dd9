import CodeAudit.Proofs.Duplicate.Checked
import CodeAudit.Proofs.Metrics.Reproducibility
/-!
# No finding aborts

A block that is found has a first location, at which its finding stands. So the findings about the
sources come to an end, for windows of any size, also of one that the configuration would refuse: they
are the findings, or the fault that tells of a cancellation.
-/
namespace CodeAudit.MetricsAnalyzer

open Duplicate (Block Drain FitIn)

/-- The finding about a block, which stands at the first of the locations. -/
def findingChecked (finding : Block → List Issue) (b : Block) : Checked (List Issue) := do
  let _ ← Checked.item b.locations 0
  return finding b

def blockFindingsChecked (search : Checked (List Block)) (finding : Block → List Issue) :
    Checked (List Issue) := do
  let blocks ← search
  let found ← blocks.mapM (findingChecked finding)
  return found.flatten

def sourceFindingsChecked (limit : Nat) (drain : Drain) (grammar : Grammar) (c : MetricsConfig)
    (s : SourceFile) : Checked (List Issue) := do
  let measured := measuredFindings grammar c s
  if c.detectDuplicates then
    let repeated ← blockFindingsChecked
      (Duplicate.withinFileChecked limit drain s.text c.duplicateWindow) Finding.ofBlockWithin
    return measured ++ repeated
  else return measured

def crossFindingsChecked (limit : Nat) (drain : Drain) (c : MetricsConfig)
    (sources : List SourceFile) : Checked (List Issue) :=
  if searchesAcross c sources then
    blockFindingsChecked
      (Duplicate.acrossFilesChecked limit drain (sources.map SourceFile.text) c.duplicateWindow)
      Finding.ofBlockAcross
  else return []

def proceedChecked (analyzer : String) (cancelled : Bool) : ExceptT Fault Checked Unit :=
  ExceptT.mk (return proceed analyzer cancelled)

/-- The findings about all sources with every step of the searches for blocks checked. -/
def findingsChecked (limit : Nat) (drain : Drain) (grammar : Grammar) (c : MetricsConfig)
    (analyzer : String) (answers : CancelAnswers) (sources : List SourceFile) :
    ExceptT Fault Checked (List Issue) := do
  let found ← sources.zipIdx.foldlM (fun found (source, index) => do
    proceedChecked analyzer (answers index)
    let own ← sourceFindingsChecked limit drain grammar c source
    return found ++ own) []
  if searchesAcross c sources then
    proceedChecked analyzer (answers sources.length)
  let shared ← crossFindingsChecked limit drain c sources
  return found ++ shared

variable {limit size : Nat} {drain : Drain} {files : List Duplicate.SourceText}
  {keep : Duplicate.Group → Bool} {grammar : Grammar} {c : MetricsConfig}

/-- A block comes of a group, which has a place. -/
lemma exists_location_of_mem_detect {b : Block} (hb : b ∈ Duplicate.detect files size keep) :
    ∃ l, b.locations[0]? = some l := by
  cases size with
  | zero => exact absurd hb List.not_mem_nil
  | succ k =>
    rw [Duplicate.detect_eq_map_runsOf (Nat.succ_pos k)] at hb
    obtain ⟨r, hr, rfl⟩ := List.mem_map.1 hb
    obtain ⟨g, hg, -, -, hstarts⟩ := Duplicate.exists_kept_of_first hr
    have hne : r.starts ≠ [] := hstarts ▸ (Duplicate.mem_groups_iff.1 hg).2
    rw [Duplicate.Run.locations_toBlock, List.getElem?_map]
    exact ⟨_, congrArg _ (List.getElem?_eq_getElem (List.length_pos_iff.2 hne))⟩

/-- What is found in some blocks can be found within the limit. -/
lemma blockFindingsChecked_eq {search : Checked (List Block)}
    (hsearch : search = .ok (Duplicate.detect files size keep)) (finding : Block → List Issue) :
    blockFindingsChecked search finding
      = .ok ((Duplicate.detect files size keep).flatMap finding) := by
  have hfinding : ∀ b ∈ Duplicate.detect files size keep, findingChecked finding b
      = .ok (finding b) := by
    intro b hb
    obtain ⟨l, hl⟩ := exists_location_of_mem_detect hb
    exact Checked.bind_eq_ok (Checked.item_eq_ok hl) rfl
  apply Checked.bind_eq_ok hsearch
  apply Checked.bind_eq_ok (Checked.mapM_eq_ok hfinding)
  rw [List.flatMap_def]
  rfl

variable (hdrain : ∀ table, (drain table).Perm table.toList)

include hdrain in
/-- What is found in a source can be found within the limit. -/
lemma sourceFindingsChecked_eq {s : SourceFile} (fit : s.source.utf8ByteSize ≤ limit) :
    sourceFindingsChecked limit drain grammar c s = .ok (sourceFindings grammar c s) := by
  rw [sourceFindingsChecked, sourceFindings_eq]
  cases c.detectDuplicates with
  | false =>
    rw [if_neg Bool.false_ne_true, if_neg Bool.false_ne_true, List.append_nil]
    rfl
  | true =>
    have hfit : FitIn limit [s.text] := List.forall_mem_singleton.2 fit
    rw [if_pos rfl, if_pos rfl]
    exact Checked.bind_eq_ok
      (blockFindingsChecked_eq (Duplicate.detectChecked_eq hdrain hfit _ _) _) rfl

include hdrain in
/-- What is found across the sources can be found within the limit. -/
lemma crossFindingsChecked_eq {sources : List SourceFile}
    (fit : FitIn limit (sources.map SourceFile.text)) :
    crossFindingsChecked limit drain c sources = .ok (crossFindings c sources) := by
  rw [crossFindingsChecked, crossFindings]
  cases searchesAcross c sources with
  | false => rfl
  | true =>
    have hfit : FitIn limit (Duplicate.distinctFiles (sources.map SourceFile.text)) := by
      intro f hf
      obtain ⟨before, after, hfiles, -⟩ := Duplicate.mem_distinctFiles_iff.1 hf
      apply fit f
      rw [hfiles]
      exact List.mem_append_right before List.mem_cons_self
    rw [if_pos rfl, if_pos rfl]
    exact blockFindingsChecked_eq (Duplicate.detectChecked_eq hdrain hfit _ _) _

/-- With every sum, index and slice checked the search for blocks and the findings come to what they come
to unchecked, for windows of any size and in any order of the table of the groups. -/
theorem findings_never_abort (limit : Nat) (drain : Drain)
    (hdrain : ∀ table, (drain table).Perm table.toList) :
    (∀ files, FitIn limit files → ∀ size keep,
      Duplicate.detectChecked limit drain files size keep
        = .ok (Duplicate.detect files size keep)) ∧
    ∀ (grammar : Grammar) (c : MetricsConfig) (analyzer : String) (answers : CancelAnswers)
      (sources : List SourceFile), FitIn limit (sources.map SourceFile.text) →
      (findingsChecked limit drain grammar c analyzer answers sources).run
        = .ok (findings grammar c analyzer answers sources) := by
  refine ⟨fun files fit size keep => Duplicate.detectChecked_eq hdrain fit size keep, ?_⟩
  intro grammar c analyzer answers sources fit
  have hshared (found : List Issue) :
      ((do
        let shared ← crossFindingsChecked limit drain c sources
        return found ++ shared) : ExceptT Fault Checked (List Issue)).run
        = .ok (.ok (found ++ crossFindings c sources)) :=
    Checked.run_lift_bind_eq_ok (crossFindingsChecked_eq hdrain fit) rfl
  rw [findingsChecked, findings]
  apply Checked.run_bind_eq_ok
  · apply Checked.run_foldlM_eq_ok
    rintro found ⟨s, index⟩ hs
    have hmem : s ∈ sources := List.fst_mem_of_mem_zipIdx hs
    have hfit : s.source.utf8ByteSize ≤ limit := fit s.text (List.mem_map_of_mem hmem)
    apply Checked.run_bind_eq_ok (x := proceedChecked analyzer (answers index)) rfl
    rintro ⟨⟩
    exact Checked.run_lift_bind_eq_ok (sourceFindingsChecked_eq hdrain hfit) rfl
  · intro found
    cases searchesAcross c sources with
    | false => exact hshared found
    | true =>
      apply Checked.run_bind_eq_ok (x := proceedChecked analyzer (answers sources.length)) rfl
      rintro ⟨⟩
      exact hshared found

/-- Sources whose blocks overlap, with a table that is drained from its end, and the widest windows too. -/
theorem periodicFiles_never_abort :
    let limit := 2 ^ 64 - 1
    let drain : Drain := fun table => table.toList.reverse
    let sources : List SourceFile :=
      Duplicate.periodicFiles.map fun f => ⟨f.path, .typescript, f.source⟩
    let grammar : Grammar := fun _ _ => none
    ((∀ table, (drain table).Perm table.toList) ∧ FitIn limit Duplicate.periodicFiles) ∧
      (∀ size ∈ [0, 2, limit], ∀ keep,
        Duplicate.detectChecked limit drain Duplicate.periodicFiles size keep
          = .ok (Duplicate.detect Duplicate.periodicFiles size keep)) ∧
      (findingsChecked limit drain grammar { duplicateWindow := 2 } name CancelToken.fresh.answers
        sources).run = .ok (findings grammar { duplicateWindow := 2 } name CancelToken.fresh.answers
          sources) := by
  intro limit drain sources grammar
  have hdrain : ∀ table, (drain table).Perm table.toList := fun table => List.reverse_perm _
  have hfit : FitIn limit Duplicate.periodicFiles := by
    rw [FitIn]
    decide +kernel
  obtain ⟨hdetect, hfindings⟩ := findings_never_abort limit drain hdrain
  refine ⟨⟨hdrain, hfit⟩, fun size _ keep => hdetect _ hfit size keep, ?_⟩
  exact hfindings grammar _ name CancelToken.fresh.answers sources hfit

end CodeAudit.MetricsAnalyzer
