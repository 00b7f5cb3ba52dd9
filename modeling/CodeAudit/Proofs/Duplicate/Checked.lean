import CodeAudit.Proofs.Duplicate.Draining
import CodeAudit.Proofs.Text.Utf8
/-!
# The search for blocks checks out

Every window that is hashed lies in its file, and so does the last window of a run at each of the places
of the run. So no size that is reckoned with on the way to the blocks is greater than the number of lines
of a file, and the table of a merging only names runs that there are: with every sum, index and slice
checked, the search comes to the same blocks, in whatever order the table of the groups is drained.
-/
namespace CodeAudit.Duplicate

/-- No text of the files has more bytes than the greatest size, as it is with texts in memory. -/
def FitIn (limit : Nat) (files : List SourceText) : Prop :=
  ∀ f ∈ files, f.source.utf8ByteSize ≤ limit

/-- The windows of a file that are looked at, with their hashes and places. -/
def fileWindowsChecked (limit size : Nat) (f : SourceText) (index : Nat) :
    Checked (List (String × Occurrence)) := do
  if f.lines.length < size then return []
  else
    let last ← Checked.difference f.lines.length size
    let windows ← (List.range (last + 1)).mapM fun start => do
      let stop ← Checked.sum limit start size
      let window ← Checked.slice f.lines start stop
      return (start, window)
    return (windows.filter fun (_, window) => !window.all Text.isBlankLine).map
      fun (start, window) => (windowHash window, ⟨index, start⟩)

def hashedWindowsChecked (limit : Nat) (files : List SourceText) (size : Nat) :
    Checked (List (String × Occurrence)) := do
  let windows ← files.zipIdx.mapM fun (f, index) => fileWindowsChecked limit size f index
  return windows.flatten

def Merging.addChecked (limit : Nat) (m : Merging) (g : Group) : Checked Merging := do
  let next ← g.starts.mapM fun o => do
    let start ← Checked.sum limit o.start 1
    return ⟨o.file, start⟩
  match m.expected[g.starts]? with
  | some i =>
    let r ← Checked.item m.runs.toList i
    let extension ← Checked.sum limit r.extension 1
    return { runs := m.runs.setIfInBounds i { r with extension }
             expected := (m.expected.erase g.starts).insert next i }
  | none =>
    return { runs := m.runs.push (Run.ofGroup g), expected := m.expected.insert next m.runs.size }

def Run.toBlockChecked (limit : Nat) (files : List SourceText) (size : Nat) (r : Run) :
    Checked Block := do
  let lines ← Checked.sum limit size r.extension
  let locations ← r.starts.mapM fun o => do
    let f ← Checked.item files o.file
    let first ← Checked.sum limit o.start 1
    let past ← Checked.sum limit o.start size
    let last ← Checked.sum limit past r.extension
    return ⟨f.path, first, last⟩
  return ⟨r.hash, lines, locations⟩

def blocksOfChecked (limit : Nat) (files : List SourceText) (size : Nat) (gs : List Group) :
    Checked (List Block) := do
  let m ← (gs.mergeSort Group.le).foldlM (Merging.addChecked limit) {}
  m.runs.toList.mapM (Run.toBlockChecked limit files size)

/-- An order in which a table of places is drained. -/
abbrev Drain := Std.HashMap String (List Occurrence) → List (String × List Occurrence)

/-- The search for blocks with every step checked, where `limit` is the greatest size. -/
def detectChecked (limit : Nat) (drain : Drain) (files : List SourceText) (size : Nat)
    (keep : Group → Bool) : Checked (List Block) := do
  if size = 0 then return []
  else
    let windows ← hashedWindowsChecked limit files size
    let gs : List Group := (drain (gather windows)).map fun (hash, starts) => ⟨hash, starts⟩
    blocksOfChecked limit files size (gs.filter keep)

def withinFileChecked (limit : Nat) (drain : Drain) (f : SourceText) (size : Nat) :
    Checked (List Block) :=
  detectChecked limit drain [f] size fun g => 2 ≤ g.starts.length

def acrossFilesChecked (limit : Nat) (drain : Drain) (files : List SourceText) (size : Nat) :
    Checked (List Block) :=
  detectChecked limit drain (distinctFiles files) size fun g => 2 ≤ g.fileCount

variable {limit size : Nat} {files : List SourceText} {keep : Group → Bool}

/-- The lines of each file are within the limit. -/
lemma FitIn.length_lines_le (fit : FitIn limit files) {f : SourceText} (hf : f ∈ files) :
    f.lines.length ≤ limit :=
  (Text.length_lines_le_utf8ByteSize f.source).trans (fit f hf)

/-- The windows of a file can be numbered within the limit. -/
lemma fileWindowsChecked_eq {f : SourceText} (hlines : f.lines.length ≤ limit) (index : Nat) :
    fileWindowsChecked limit size f index
      = .ok ((scannedStarts f.lines size).map fun start =>
          (windowHash (windowAt f.lines size start), ⟨index, start⟩)) := by
  rw [fileWindowsChecked, scannedStarts, windowStarts]
  split
  · rfl
  · next hsize =>
    have hlast : size ≤ f.lines.length := Nat.le_of_not_lt hsize
    apply Checked.bind_eq_ok (Checked.difference_eq_ok hlast)
    apply Checked.bind_eq_ok
      (Checked.mapM_eq_ok (g := fun start => (start, windowAt f.lines size start)) ?_)
    · rw [List.filter_map, List.map_map]
      rfl
    · intro start hstart
      have hstop : start + size ≤ f.lines.length := by
        rw [List.mem_range] at hstart
        omega
      apply Checked.bind_eq_ok (Checked.sum_eq_ok (hstop.trans hlines))
      exact Checked.bind_eq_ok (Checked.slice_eq_ok hstop) rfl

/-- The windows of all files can be numbered within the limit. -/
lemma hashedWindowsChecked_eq (fit : FitIn limit files) :
    hashedWindowsChecked limit files size = .ok (hashedWindows files size) := by
  apply Checked.bind_eq_ok (Checked.mapM_eq_ok ?_)
  · rw [hashedWindows, List.flatMap_def]
    rfl
  · rintro ⟨f, index⟩ hf
    exact fileWindowsChecked_eq (fit.length_lines_le (List.fst_mem_of_mem_zipIdx hf)) index

/-- The run that a sound table names is there, and the sums stay within the places of the group. -/
lemma Merging.addChecked_eq {m : Merging} (sound : m.Sound) {g : Group} (hne : g.starts ≠ [])
    (hstarts : ∀ o ∈ g.starts, o.start + 1 ≤ limit) : m.addChecked limit g = .ok (m.add g) := by
  rw [addChecked, add]
  apply Checked.bind_eq_ok (Checked.mapM_eq_ok (g := fun o => o.shift 1) ?_)
  · cases hi : m.expected[g.starts]? with
    | none => rfl
    | some i =>
      obtain ⟨r, hr, hnext⟩ := sound g.starts i hi
      obtain ⟨o, ho⟩ := List.exists_mem_of_ne_nil _ hne
      have hextension : r.extension + 1 ≤ limit := by
        have hlimit := hstarts o ho
        rw [← hnext] at ho
        obtain ⟨first, -, rfl⟩ := List.mem_map.1 ho
        rw [Occurrence.shift] at hlimit
        dsimp only at hlimit
        omega
      have hmodify : m.runs.setIfInBounds i r.extend = m.runs.modify i Run.extend := by
        apply Array.ext_getElem?
        intro j
        rw [Array.getElem?_setIfInBounds, Array.getElem?_modify]
        split
        · next hij =>
          rw [← hij, hr, if_pos (Array.getElem?_eq_some_iff.1 hr).1]
          rfl
        · rfl
      rw [← Array.getElem?_toList] at hr
      apply Checked.bind_eq_ok (Checked.item_eq_ok hr)
      apply Checked.bind_eq_ok (Checked.sum_eq_ok hextension)
      dsimp only
      rw [← hmodify]
      rfl
  · intro o ho
    exact Checked.bind_eq_ok (Checked.sum_eq_ok (hstarts o ho)) rfl

/-- A run whose last windows lie in their files becomes a block. -/
lemma Run.toBlockChecked_eq (hsize : 1 ≤ size) {r : Run} (hne : r.starts ≠ [])
    (hwindows : ∀ o ∈ r.starts, ∃ f, files[o.file]? = some f
      ∧ o.start + r.extension + size ≤ limit) :
    r.toBlockChecked limit files size = .ok (r.toBlock files size) := by
  obtain ⟨first, hfirst⟩ := List.exists_mem_of_ne_nil _ hne
  obtain ⟨-, -, hlimit⟩ := hwindows first hfirst
  have hlines : size + r.extension ≤ limit := by omega
  apply Checked.bind_eq_ok (Checked.sum_eq_ok hlines)
  apply Checked.bind_eq_ok (Checked.mapM_eq_ok (g := r.locationAt files size) ?_)
  · rfl
  · intro o ho
    obtain ⟨f, hf, hlimit⟩ := hwindows o ho
    have hstart : o.start + 1 ≤ limit := by omega
    have hpast : o.start + size ≤ limit := by omega
    have hlast : o.start + size + r.extension ≤ limit := by omega
    apply Checked.bind_eq_ok (Checked.item_eq_ok hf)
    apply Checked.bind_eq_ok (Checked.sum_eq_ok hstart)
    apply Checked.bind_eq_ok (Checked.sum_eq_ok hpast)
    apply Checked.bind_eq_ok (Checked.sum_eq_ok hlast)
    rw [locationAt, pathAt, hf]
    rfl

/-- The last line of a copy may be no size when a window of the run goes beyond its file. -/
example : Run.toBlockChecked 7 [⟨⟨"a.ts"⟩, "p\nq"⟩] 2 ⟨"", [⟨0, 4⟩], 2⟩ = .error .overflow := by
  decide

/-- The place of a group is one of a window that lies in its file. -/
lemma start_le_of_mem_starts (fit : FitIn limit files) {g : Group} (hg : g ∈ groups files size)
    {o : Occurrence} (ho : o ∈ g.starts) :
    ∃ f, files[o.file]? = some f ∧ o.start + size ≤ limit := by
  obtain ⟨f, hf, hwindow, -⟩ := hasWindow_of_mem_starts hg ho
  exact ⟨f, hf, hwindow.fits.trans (fit.length_lines_le (List.mem_of_getElem? hf))⟩

/-- The groups can be merged within the limit. -/
lemma foldlM_addChecked (fit : FitIn limit files) (hsize : 1 ≤ size) {gs : List Group}
    (hgs : gs ⊆ groups files size) :
    gs.foldlM (Merging.addChecked limit) {} = .ok (gs.foldl Merging.add {}) := by
  induction gs using List.reverseRecOn with
  | nil => rfl
  | append_singleton front g ih =>
    have hg : g ∈ groups files size := hgs (List.mem_append_right _ (List.mem_singleton_self g))
    have hstarts : ∀ o ∈ g.starts, o.start + 1 ≤ limit := by
      intro o ho
      obtain ⟨-, -, hlimit⟩ := start_le_of_mem_starts fit hg ho
      omega
    have hfront : front ⊆ groups files size := fun g hg => hgs (List.mem_append_left _ hg)
    rw [List.foldlM_append, List.foldl_append]
    apply Checked.bind_eq_ok (ih hfront)
    rw [List.foldlM_cons]
    exact Checked.bind_eq_ok
      (Merging.addChecked_eq (Merging.sound_foldl front) (mem_groups_iff.1 hg).2 hstarts) rfl

/-- The blocks of some groups can be made within the limit. -/
lemma blocksOfChecked_eq (fit : FitIn limit files) (hsize : 1 ≤ size) {gs : List Group}
    (hgs : gs ⊆ groups files size) :
    blocksOfChecked limit files size gs = .ok (blocksOf files size gs) := by
  have hsorted : gs.mergeSort Group.le ⊆ groups files size :=
    fun g hg => hgs (List.mem_mergeSort.1 hg)
  apply Checked.bind_eq_ok (foldlM_addChecked fit hsize hsorted)
  apply Checked.mapM_eq_ok
  intro r hr
  have hgroup {e : Nat} (he : e ≤ r.extension) :
      ∃ g ∈ groups files size, g.starts = r.starts.map (·.shift e) := by
    obtain ⟨g, hg, hstarts⟩ := Run.exists_group_of_window hr he
    exact ⟨g, hsorted hg, hstarts⟩
  apply Run.toBlockChecked_eq hsize
  · obtain ⟨g, hg, hstarts⟩ := hgroup (Nat.zero_le _)
    intro hnil
    rw [hnil] at hstarts
    exact (mem_groups_iff.1 hg).2 hstarts
  · intro o ho
    obtain ⟨g, hg, hstarts⟩ := hgroup (Nat.le_refl _)
    have hlast : o.shift r.extension ∈ g.starts := hstarts ▸ List.mem_map_of_mem ho
    exact start_le_of_mem_starts fit hg hlast

/-- The search comes to its blocks for windows of any size, and in any order of the groups. -/
lemma detectChecked_eq {drain : Drain} (hdrain : ∀ table, (drain table).Perm table.toList)
    (fit : FitIn limit files) (size : Nat) (keep : Group → Bool) :
    detectChecked limit drain files size keep = .ok (detect files size keep) := by
  rw [detectChecked, detect]
  split
  · rfl
  · next hzero =>
    have hsize : 1 ≤ size := Nat.one_le_iff_ne_zero.2 hzero
    apply Checked.bind_eq_ok (hashedWindowsChecked_eq fit)
    have hdrained : Drained files size keep
        (((drain (gather (hashedWindows files size))).map
          fun (hash, starts) => (⟨hash, starts⟩ : Group)).filter keep) :=
      ((hdrain _).map _).filter keep
    apply (blocksOfChecked_eq fit hsize fun g hg => hdrained.mem_groups hg).trans
    exact congrArg Except.ok hdrained.blocksOf_eq

end CodeAudit.Duplicate
