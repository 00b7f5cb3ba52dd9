import CodeAudit.Proofs.Metrics.Decomposition
import CodeAudit.Proofs.Metrics.Preparation
/-!
# The numbers of the issues

An analysis can number its issues while it finds them: it keeps the last number that it gave, and each
finding takes the next one, whichever of the searches it comes from. This gives every issue the number
of its place in the list, which the identifier spells in at least four digits.
-/
namespace CodeAudit

namespace Decimal

/-- The digits of a number, with zeros before them only where they would be fewer than `width`. -/
structure Padded (width n : Nat) (digits : List Char) : Prop where
  decimal : ∀ d ∈ digits, d.isDigit
  value : Nat.ofDigitChars 10 digits 0 = n
  wide : width ≤ digits.length
  tight : width < digits.length → digits.head? ≠ some '0'

variable {width n : Nat}

/-- The digits of a positive number do not start with a zero. -/
lemma head?_toDigits_ne (hpos : 0 < n) : (Nat.toDigits 10 n).head? ≠ some '0' := by
  induction n using Nat.strong_induction_on with
  | h n ih =>
    by_cases hsmall : n < 10
    · rw [Nat.toDigits_of_lt_base hsmall]
      interval_cases n <;> decide
    · have htenth : 0 < n / 10 := by omega
      have hne : Nat.toDigits 10 (n / 10) ≠ [] := Nat.toDigits_ne_nil
      rw [Nat.toDigits_of_base_le (by decide) (Nat.le_of_not_lt hsmall),
        List.head?_append_of_ne_nil _ hne]
      exact ih (n / 10) (Nat.div_lt_self hpos (by decide)) htenth

/-- Zeros before the digits do not change the number. -/
lemma ofDigitChars_padLeft (width n : Nat) :
    Nat.ofDigitChars 10 (padLeft width (Nat.toDigits 10 n)) 0 = n := by
  rw [padLeft, Nat.ofDigitChars_append, Nat.ofDigitChars_replicate_zero, Nat.mul_zero,
    Nat.ofDigitChars_ten_toDigits]

/-- The digits of a positive number are padded to a width. -/
lemma padded_padLeft (width : Nat) (hpos : 0 < n) :
    Padded width n (padLeft width (Nat.toDigits 10 n)) where
  decimal d hd := by
    cases List.mem_append.1 hd with
    | inl hzero =>
      rw [List.eq_of_mem_replicate hzero]
      rfl
    | inr hdigit => exact Nat.isDigit_of_mem_toDigits (by decide) (by decide) hdigit
  value := ofDigitChars_padLeft width n
  wide := by
    rw [padLeft, List.length_append, List.length_replicate]
    omega
  tight h := by
    have hnone : width - (Nat.toDigits 10 n).length = 0 := by
      rw [padLeft, List.length_append, List.length_replicate] at h
      omega
    rw [padLeft, hnone]
    exact head?_toDigits_ne hpos

end Decimal

namespace Issue

/-- The issues under the numbers that follow a given one. -/
def numberedFrom (label : Nat → String) (last : Nat) (issues : List Issue) : List Issue :=
  (issues.zipIdx last).map fun (issue, index) => { issue with id := label (index + 1) }

/-- The numbers of some issues go on where those before them stopped. -/
lemma numberedFrom_append (label : Nat → String) (last : Nat) (front rest : List Issue) :
    numberedFrom label last (front ++ rest)
      = numberedFrom label last front ++ numberedFrom label (last + front.length) rest := by
  rw [numberedFrom, List.zipIdx_append, List.map_append]
  rfl

/-- Numbered issues have the labels of the numbers from one on. -/
lemma map_id_numbered (label : Nat → String) (issues : List Issue) :
    (numbered label issues).map Issue.id
      = (List.range issues.length).map fun index => label (index + 1) := by
  have hsnd : (numbered label issues).map Issue.id
      = (issues.zipIdx.map Prod.snd).map fun index => label (index + 1) := by
    rw [numbered, List.map_map, List.map_map]
    rfl
  rw [hsnd, List.zipIdx_map_snd, List.range_eq_range']

end Issue

namespace MetricsAnalyzer

/-- The work of an analysis that keeps the last number it gave to an issue. -/
abbrev Numbering := StateT Nat (Except Fault)

/-- The identifier with the next number. -/
def nextLabel : Numbering String := do
  modify (· + 1)
  return issueLabel (← get)

/-- The issues, each with the next identifier. -/
def labelled (issues : List Issue) : Numbering (List Issue) :=
  issues.mapM fun issue => do return { issue with id := ← nextLabel }

/-- The issues that come of some items, one item after the other. -/
def inTurn {α : Type} (items : List α) (issues : α → Numbering (List Issue)) :
    Numbering (List Issue) :=
  items.foldlM (fun found item => do return found ++ (← issues item)) []

/-- Labels the findings about the measures of a source as they are found. -/
def labelMetrics (c : MetricsConfig) (m : FileMetrics) : Numbering (List Issue) := do
  let checks := [Finding.cyclomatic, Finding.cognitive, Finding.maintainability,
    Finding.linesOfCode]
  let file ← inTurn checks fun check => labelled (check c m)
  let functions ← inTurn m.functions fun f => labelled (Finding.function c m f)
  return file ++ functions

/-- Labels the findings about the measures of a source if it can be measured. -/
def labelMeasured (grammar : Grammar) (c : MetricsConfig) (s : SourceFile) :
    Numbering (List Issue) :=
  match grammar s.language s.source with
  | some root => labelMetrics c (FileMetrics.ofTree s.path s.language s.source root)
  | none => pure []

/-- Labels the findings about blocks in one file as they are found. -/
def labelRepeated (c : MetricsConfig) (s : SourceFile) : Numbering (List Issue) :=
  if c.detectDuplicates then
    inTurn (Duplicate.withinFile ⟨s.path, s.source⟩ c.duplicateWindow) fun b =>
      labelled (Finding.ofBlockWithin b)
  else pure []

/-- Labels the findings about one source as they are found. -/
def labelSource (grammar : Grammar) (c : MetricsConfig) (s : SourceFile) :
    Numbering (List Issue) := do
  let measured ← labelMeasured grammar c s
  let repeated ← labelRepeated c s
  return measured ++ repeated

/-- Labels the findings about blocks in several files as they are found. -/
def labelAcross (c : MetricsConfig) (analyzer : String) (cancelled : Bool)
    (sources : List SourceFile) : Numbering (List Issue) :=
  if searchesAcross c sources then do
    proceed analyzer cancelled
    inTurn (Duplicate.acrossFiles (sources.map fun s => ⟨s.path, s.source⟩) c.duplicateWindow)
      fun b => labelled (Finding.ofBlockAcross b)
  else pure []

/-- Labels the findings about all sources as they are found. -/
def labelFindings (grammar : Grammar) (c : MetricsConfig) (analyzer : String)
    (answers : CancelAnswers) (sources : List SourceFile) : Numbering (List Issue) := do
  let own ← inTurn sources.zipIdx fun (source, index) => do
    proceed analyzer (answers index)
    labelSource grammar c source
  let across ← labelAcross c analyzer (answers sources.length) sources
  return own ++ across

/-- The analysis with the issues labelled as they are found; every analysis begins with one. -/
def analyzeLabelling (fs : FileSystem) (grammar : Grammar) (a : MetricsAnalyzer)
    (analyzer : String) (answers : CancelAnswers) (paths : List Path) :
    Except Fault (List Issue) := do
  let gathered ← gather fs analyzer answers paths
  let sources ← gathered.result
  (labelFindings grammar a.config analyzer (fun k => answers (paths.length + k)) sources).run' 0

/-- The one computation finds what the other finds, under the numbers that follow the last one given,
and takes as many of them as there are issues. -/
def Labels (x : Numbering (List Issue)) (y : Except Fault (List Issue)) : Prop :=
  ∀ last, x.run last
    = y.map fun issues => (Issue.numberedFrom issueLabel last issues, last + issues.length)

section Labels

variable {x x' : Numbering (List Issue)} {y y' : Except Fault (List Issue)} {α : Type}

/-- No issues need no labels. -/
lemma labels_nil : Labels (pure []) (.ok []) :=
  fun _ => rfl

/-- Labelled issues take the labels that follow. -/
lemma labels_labelled (issues : List Issue) : Labels (labelled issues) (.ok issues) := by
  induction issues with
  | nil => exact labels_nil
  | cons i rest ih =>
    intro last
    rw [labelled, List.mapM_cons, ← labelled]
    show ((labelled rest >>= fun later =>
      pure ({ i with id := issueLabel (last + 1) } :: later) : Numbering _).run (last + 1)) = _
    rw [StateT.run_bind, ih (last + 1)]
    show Except.ok (_, last + 1 + rest.length) = Except.ok (_, last + (rest.length + 1))
    rw [Nat.add_right_comm]
    rfl

/-- What is found by two computations in turn is labelled in turn. -/
lemma Labels.append (hx : Labels x y) (hx' : Labels x' y') :
    Labels (do return (← x) ++ (← x')) (do return (← y) ++ (← y')) := by
  intro last
  rw [StateT.run_bind, hx last]
  cases y with
  | error fault => rfl
  | ok front =>
    show ((x' >>= fun rest => pure (_ ++ rest) : Numbering _).run (last + front.length)) = _
    rw [StateT.run_bind, hx' (last + front.length)]
    cases y' with
    | error fault => rfl
    | ok rest =>
      show Except.ok (_ ++ _, last + front.length + rest.length)
        = Except.ok (Issue.numberedFrom issueLabel last (front ++ rest), last + (front ++ rest).length)
      rw [Issue.numberedFrom_append, List.length_append, Nat.add_assoc]

/-- What is found by two computations that cannot fail is labelled in turn. -/
lemma Labels.append_ok {front rest : List Issue} (hx : Labels x (.ok front))
    (hx' : Labels x' (.ok rest)) : Labels (do return (← x) ++ (← x')) (.ok (front ++ rest)) :=
  hx.append hx'

/-- What may fail before the computation, and gives no numbers. -/
lemma Labels.after (check : Except Fault Unit) (h : Labels x y) :
    Labels (do check; x) (do check; y) := by
  intro last
  cases check with
  | error fault => rfl
  | ok _ => exact h last

/-- Item after item, the numbers go on from where the items before have left them. -/
lemma Labels.inTurn (items : List α) {f : α → Numbering (List Issue)}
    {g : α → Except Fault (List Issue)} (h : ∀ a, Labels (f a) (g a)) :
    Labels (inTurn items f) (items.foldlM (fun found a => do return found ++ (← g a)) []) := by
  intro last
  -- What has been found so far has its numbers, and the next one follows on them.
  suffices hfold : ∀ found : List Issue,
      (items.foldlM (fun found a => do return found ++ (← f a))
          (Issue.numberedFrom issueLabel last found)).run (last + found.length)
        = (items.foldlM (fun found a => do return found ++ (← g a)) found).map fun issues =>
            (Issue.numberedFrom issueLabel last issues, last + issues.length) from hfold []
  induction items with
  | nil => exact fun _ => rfl
  | cons a rest ih =>
    intro found
    rw [List.foldlM_cons, List.foldlM_cons, StateT.run_bind, StateT.run_bind, h a]
    cases hown : g a with
    | error fault => rfl
    | ok own =>
      have hgo := ih (found ++ own)
      rw [Issue.numberedFrom_append, List.length_append, ← Nat.add_assoc] at hgo
      exact hgo

/-- What is found for some items in turn is labelled in turn, if nothing can fail. -/
lemma Labels.inTurn_ok (items : List α) {f : α → Numbering (List Issue)} {g : α → List Issue}
    (h : ∀ a, Labels (f a) (.ok (g a))) :
    Labels (MetricsAnalyzer.inTurn items f) (.ok (items.flatMap g)) := by
  rw [List.flatMap_eq_foldl]
  show Labels _ (pure (items.foldl (fun found a => found ++ g a) []))
  rw [← List.foldlM_pure]
  exact Labels.inTurn items h

/-- The issues as they come from the computation that starts anew. -/
lemma Labels.run'_zero (h : Labels x y) : x.run' 0 = y.map (Issue.numbered issueLabel) := by
  show (x.run 0).map Prod.fst = _
  rw [h 0]
  cases y with
  | error fault => rfl
  | ok issues => rfl

end Labels

/-- The findings about measures are labelled as they are found. -/
lemma labels_labelMetrics (c : MetricsConfig) (m : FileMetrics) :
    Labels (labelMetrics c m) (.ok (Finding.ofMetrics c m)) := by
  have hchecks := Labels.inTurn_ok [Finding.cyclomatic, Finding.cognitive,
    Finding.maintainability, Finding.linesOfCode] fun check => labels_labelled (check c m)
  have hfunctions := Labels.inTurn_ok m.functions fun f => labels_labelled (Finding.function c m f)
  have hall := hchecks.append_ok hfunctions
  simp only [List.flatMap_cons, List.flatMap_nil, List.append_nil, ← List.append_assoc] at hall
  exact hall

/-- The findings about a source are labelled as they are found. -/
lemma labels_labelSource (grammar : Grammar) (c : MetricsConfig) (s : SourceFile) :
    Labels (labelSource grammar c s) (.ok (sourceFindings grammar c s)) := by
  apply Labels.append_ok
  · rw [labelMeasured]
    cases grammar s.language s.source with
    | some root => exact labels_labelMetrics c _
    | none => exact labels_nil
  · rw [labelRepeated]
    split
    · exact Labels.inTurn_ok _ fun b => labels_labelled (Finding.ofBlockWithin b)
    · exact labels_nil

/-- What comes before a list of issues can as well come before all of them. -/
lemma append_after (check : Except Fault Unit) (own later : List Issue) :
    (do return own ++ (← (do check; .ok later : Except Fault (List Issue))))
      = (do check; return own ++ later) := by
  cases check with
  | error fault => rfl
  | ok _ => rfl

/-- The findings about all sources are labelled as they are found. -/
lemma labels_labelFindings (grammar : Grammar) (c : MetricsConfig) (analyzer : String)
    (answers : CancelAnswers) (sources : List SourceFile) :
    Labels (labelFindings grammar c analyzer answers sources)
      (findings grammar c analyzer answers sources) := by
  have hown := Labels.inTurn sources.zipIdx fun p =>
    (labels_labelSource grammar c p.1).after (proceed analyzer (answers p.2))
  simp only [append_after] at hown
  rw [labelFindings, labelAcross, findings, crossFindings]
  cases searchesAcross c sources with
  | false => exact hown.append labels_nil
  | true =>
    have hblocks := Labels.inTurn_ok
      (Duplicate.acrossFiles (sources.map fun s => ⟨s.path, s.source⟩) c.duplicateWindow)
      fun b => labels_labelled (Finding.ofBlockAcross b)
    have hall := hown.append (hblocks.after (proceed analyzer (answers sources.length)))
    simp only [append_after] at hall
    exact hall

/-- To label the issues as they are found comes to the same as to label them all in the end. -/
lemma analyzeLabelling_eq (fs : FileSystem) (grammar : Grammar) (a : MetricsAnalyzer)
    (analyzer : String) (answers : CancelAnswers) (paths : List Path) :
    analyzeLabelling fs grammar a analyzer answers paths
      = a.analyze fs grammar analyzer answers paths := by
  rw [analyzeLabelling, analyze]
  congr 1
  funext gathered
  congr 1
  funext sources
  rw [(labels_labelFindings _ _ _ _ _).run'_zero]
  rfl

/-- Different numbers are spelled differently. -/
lemma issueLabel_injective : Function.Injective issueLabel := by
  intro m n h
  have hdigits : Decimal.padLeft 4 (Nat.toDigits 10 m) = Decimal.padLeft 4 (Nat.toDigits 10 n) :=
    String.ofList_injective ((String.append_right_inj _).1 h)
  rw [← Decimal.ofDigitChars_padLeft 4 m, hdigits, Decimal.ofDigitChars_padLeft]

/-- The issues are numbered from one in the order in which they stand. -/
structure Numbered (found : List Issue) : Prop where
  label : ∀ k i, found[k]? = some i →
    ∃ digits, Decimal.Padded 4 (k + 1) digits ∧ i.id = "metrics-" ++ String.ofList digits
  distinct : (found.map Issue.id).Nodup

/-- Issues that get their numbers in turn are numbered. -/
lemma numbered_issues (issues : List Issue) : Numbered (Issue.numbered issueLabel issues) where
  label k i hi := by
    have hid : ((Issue.numbered issueLabel issues).map Issue.id)[k]? = some i.id := by
      rw [List.getElem?_map, hi]
      rfl
    rw [Issue.map_id_numbered, List.getElem?_map, Option.map_eq_some_iff] at hid
    obtain ⟨index, hindex, hlabel⟩ := hid
    obtain ⟨hlt, hrange⟩ := List.getElem?_eq_some_iff.1 hindex
    rw [List.getElem_range] at hrange
    subst hrange
    exact ⟨_, Decimal.padded_padLeft 4 (Nat.succ_pos k), hlabel.symm⟩
  distinct := by
    rw [Issue.map_id_numbered]
    exact List.nodup_range.map fun _ _ h => Nat.succ.inj (issueLabel_injective h)

/-- The issues of an analysis are numbered. -/
lemma numbered_of_analyze {fs : FileSystem} {grammar : Grammar} {a : MetricsAnalyzer}
    {analyzer : String} {answers : CancelAnswers} {paths : List Path} {found : List Issue}
    (h : a.analyze fs grammar analyzer answers paths = .ok found) : Numbered found := by
  obtain ⟨g, -, h⟩ := exists_of_bind_eq_ok h
  obtain ⟨sources, -, h⟩ := exists_of_bind_eq_ok h
  obtain ⟨raw, -, h⟩ := exists_of_bind_eq_ok h
  cases h
  exact numbered_issues raw

/-- Whatever an analyzer is asked to do before, each analysis comes to what it comes to if the issues are
labelled as they are found, from the first number on. The issues it finds are numbered from one, and no two
of them have the same identifier. -/
theorem session_numbered (a : MetricsAnalyzer) (requests : List Request) (t : Turn)
    (ht : t ∈ a.session requests) (fs : FileSystem) (grammar : Grammar) (analyzer : String)
    (answers : CancelAnswers) (paths : List Path)
    (hrequest : t.request = .analyze fs grammar analyzer answers paths) :
    t.reply = .analyzed (t.before.analyze fs grammar analyzer answers paths) ∧
      t.before.analyze fs grammar analyzer answers paths
        = analyzeLabelling fs grammar t.before analyzer answers paths ∧
      ∀ found, t.before.analyze fs grammar analyzer answers paths = .ok found →
        Numbered found := by
  obtain ⟨-, hturn⟩ := given_of_mem_session ht
  rw [hrequest] at hturn
  have hlabelling := analyzeLabelling_eq fs grammar t.before analyzer answers paths
  exact ⟨hturn.reply_analyze, hlabelling.symm, fun found hfound => numbered_of_analyze hfound⟩

/-- A listing is analyzed twice with a threshold that every file goes beyond: there are issues both times,
and both times they are numbered from one. -/
theorem mixedListing_numbered :
    let a : MetricsAnalyzer := .ofConfig { cyclomatic := 0 }
    let grammar : Grammar := fun _ source => some (.mk 0 true "program" none 0 source.utf8ByteSize [])
    let request : Request :=
      .analyze mixedFiles grammar name CancelToken.fresh.answers mixedListing
    ∀ t ∈ a.session [request, request], t.request = request ∧
      ∃ found, t.reply = .analyzed (.ok found) ∧ found ≠ [] ∧ Numbered found := by
  intro a grammar request t ht
  have hturn : t.request = request ∧ t.before = a := by
    obtain rfl | rfl : t = _ ∨ t = _ := by simpa [session] using ht
    · exact ⟨rfl, rfl⟩
    · exact ⟨rfl, rfl⟩
  obtain ⟨hreply, -, hnumbered⟩ := session_numbered a [request, request] t ht mixedFiles grammar name
    CancelToken.fresh.answers mixedListing hturn.1
  have hne : analyzed mixedFiles mixedListing ≠ [] := by decide +kernel
  obtain ⟨found, hfound⟩ := exists_analyze_eq_ok grammar a name (fun _ => rfl) hne
  rw [hturn.2] at hreply hnumbered
  refine ⟨hturn.1, found, hfound ▸ hreply, ?_, hnumbered found hfound⟩
  have hfinding : ∀ s, sourceFindings grammar a.config s ≠ [] := by
    intro s
    simp [sourceFindings, grammar, a, ofConfig, Finding.ofMetrics, Finding.cyclomatic, Finding.when,
      FileMetrics.ofTree]
  rw [← map_path_sourcesOf, ne_eq, List.map_eq_nil_iff] at hne
  obtain ⟨s, hs⟩ := List.exists_mem_of_ne_nil _ hne
  intro hnil
  rw [analyze_eq hfound, Issue.numbered, List.map_eq_nil_iff, List.zipIdx_eq_nil_iff,
    List.append_eq_nil_iff, List.flatMap_eq_nil_iff] at hnil
  exact hfinding s (hnil.1 s hs)

end MetricsAnalyzer

end CodeAudit
