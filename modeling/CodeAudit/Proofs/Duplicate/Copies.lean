import CodeAudit.Proofs.Duplicate.Coverage
/-!
# Blocks are made of copies

The windows of a run hold the same trimmed lines at all of its places, so the stretches of lines that
a block points at are copies of each other from the first line to the last, as long as the hash does
not collide. They lie within the files, and come in the order of the files and of the lines.
-/
namespace CodeAudit.Duplicate

/-- The number of the file that a location is in: that of the first one with its path. -/
def Location.fileNumber (files : List SourceText) (l : Location) : Nat :=
  files.findIdx (·.path.same l.file)

/-- The lines of its file that a location covers, both ends included. -/
def Location.stretch (files : List SourceText) (l : Location) : List Text.Line :=
  match files[l.fileNumber files]? with
  | some f => (f.lines.drop (l.startLine - 1)).take (l.endLine + 1 - l.startLine)
  | none => []

/-- A location covers `count` lines, all of which are in its file. -/
structure Location.Covers (files : List SourceText) (count : Nat) (l : Location) : Prop where
  file : ∃ f, files[l.fileNumber files]? = some f ∧ f.path = l.file ∧ l.endLine ≤ f.lines.length
  first : 1 ≤ l.startLine
  last : l.endLine + 1 = l.startLine + count
  stretch : (l.stretch files).length = count

/-- A block that points at copies of some lines, the first `size` of which give it its hash. -/
structure Block.OfCopies (files : List SourceText) (size : Nat) (b : Block) : Prop where
  long : size ≤ b.lines
  several : 2 ≤ b.locations.length
  covers : ∀ l ∈ b.locations, l.Covers files b.lines
  alike : ∀ l ∈ b.locations, ∀ m ∈ b.locations,
    (l.stretch files).map Text.trim = (m.stretch files).map Text.trim
  hash : ∀ l ∈ b.locations, b.hash = windowHash ((l.stretch files).take size)
  ordered : b.locations.Pairwise fun l m =>
    l.fileNumber files < m.fileNumber files
      ∨ l.fileNumber files = m.fileNumber files ∧ l.startLine < m.startLine

/-- Lists that agree in all windows up to one agree as far as that window reaches. -/
lemma take_eq_of_windows {α : Type} {a b : List α} {size extension : Nat} (hsize : 1 ≤ size)
    (h : ∀ e ≤ extension, (a.drop e).take size = (b.drop e).take size) :
    a.take (size + extension) = b.take (size + extension) := by
  apply List.ext_getElem?
  intro i
  rw [List.getElem?_take, List.getElem?_take]
  split
  · next hi =>
    -- the item stands in the window that starts at it, or in the last one
    obtain ⟨e, k, he, hk, rfl⟩ : ∃ e k, e ≤ extension ∧ k < size ∧ e + k = i := by
      obtain hle | hgt := Nat.le_total i extension
      · exact ⟨i, 0, hle, hsize, rfl⟩
      · exact ⟨extension, i - extension, le_refl _, by omega, by omega⟩
    have hwindow := congrArg (·[k]?) (h e he)
    simpa only [List.getElem?_take_of_lt hk, List.getElem?_drop] using hwindow
  · rfl

namespace SourceText

/-- The trimmed lines of a window are a window of the trimmed lines. -/
lemma trimmed_eq (f : SourceText) (size start : Nat) :
    f.trimmed size start = ((f.lines.map Text.trim).drop start).take size := by
  rw [trimmed, windowAt, List.map_take, List.map_drop]

/-- Stretches of two files are the same if their windows are, one after the other. -/
lemma trimmed_eq_of_windows {f g : SourceText} {size extension s t : Nat} (hsize : 1 ≤ size)
    (h : ∀ e ≤ extension, f.trimmed size (s + e) = g.trimmed size (t + e)) :
    f.trimmed (size + extension) s = g.trimmed (size + extension) t := by
  rw [trimmed_eq, trimmed_eq]
  apply take_eq_of_windows hsize
  intro e he
  have hwindow := h e he
  rw [trimmed_eq, trimmed_eq] at hwindow
  rwa [List.drop_drop, List.drop_drop]

end SourceText

section Runs

variable {files : List SourceText} {size : Nat} {keep : Group → Bool} {r : Run}

/-- Each window of a run is a group that was kept. -/
lemma exists_kept_of_window (hr : r ∈ runsOf files size keep) {e : Nat} (he : e ≤ r.extension) :
    ∃ g ∈ groups files size, keep g = true ∧ g.starts = r.starts.map (·.shift e) := by
  obtain ⟨g, hg, hstarts⟩ := Run.exists_group_of_window hr he
  rw [List.mem_mergeSort] at hg
  obtain ⟨hg, hkeep⟩ := List.mem_filter.1 hg
  exact ⟨g, hg, hkeep, hstarts⟩

/-- The first window of a run has the hash and the places of a group that is kept. -/
lemma exists_kept_of_first (hr : r ∈ runsOf files size keep) :
    ∃ g ∈ groups files size, keep g = true ∧ g.hash = r.hash ∧ g.starts = r.starts := by
  obtain ⟨g, hg, hhash, hstarts⟩ := Run.exists_group_of_mem_merge hr
  rw [List.mem_mergeSort] at hg
  obtain ⟨hg, hkeep⟩ := List.mem_filter.1 hg
  exact ⟨g, hg, hkeep, hhash, hstarts⟩

/-- Each start of a group has a window with the hash of the group. -/
lemma hasWindow_of_mem_starts {g : Group} (hg : g ∈ groups files size) {o : Occurrence}
    (ho : o ∈ g.starts) :
    ∃ f, files[o.file]? = some f ∧ f.HasWindow size o.start ∧ f.hashAt size o.start = g.hash := by
  rw [(mem_groups_iff.1 hg).1] at ho
  exact mem_hashedWindows.1 (mem_placesOf.1 ho)

/-- At each place of a run all of its windows fit into the file. -/
lemma hasWindow_of_mem_run (hr : r ∈ runsOf files size keep) {o : Occurrence} (ho : o ∈ r.starts)
    {f : SourceText} (hf : files[o.file]? = some f) {e : Nat} (he : e ≤ r.extension) :
    f.HasWindow size (o.start + e) := by
  obtain ⟨g, hg, -, hstarts⟩ := exists_kept_of_window hr he
  have hplace : o.shift e ∈ g.starts := hstarts ▸ List.mem_map_of_mem ho
  obtain ⟨f', hf', hwindow, -⟩ := hasWindow_of_mem_starts hg hplace
  obtain rfl : f = f' := Option.some.inj (hf.symm.trans hf')
  exact hwindow

/-- At the same distance from its starts, a run has windows of one hash. -/
lemma hashAt_eq_of_mem_run (hr : r ∈ runsOf files size keep) {o p : Occurrence}
    (ho : o ∈ r.starts) (hp : p ∈ r.starts) {f g : SourceText} (hf : files[o.file]? = some f)
    (hg : files[p.file]? = some g) {e : Nat} (he : e ≤ r.extension) :
    f.hashAt size (o.start + e) = g.hashAt size (p.start + e) := by
  obtain ⟨group, hgroup, -, hstarts⟩ := exists_kept_of_window hr he
  have hashAt {o : Occurrence} (ho : o ∈ r.starts) {f : SourceText}
      (hf : files[o.file]? = some f) : f.hashAt size (o.start + e) = group.hash := by
    have hplace : o.shift e ∈ group.starts := hstarts ▸ List.mem_map_of_mem ho
    obtain ⟨f', hf', -, hhash⟩ := hasWindow_of_mem_starts hgroup hplace
    obtain rfl : f = f' := Option.some.inj (hf.symm.trans hf')
    exact hhash
  rw [hashAt ho hf, hashAt hp hg]

/-- A run stands for the same trimmed lines at all of its places. -/
lemma trimmed_eq_of_mem_run (hsize : 1 ≤ size) (apart : HashesApart files size)
    (hr : r ∈ runsOf files size keep) {o p : Occurrence} (ho : o ∈ r.starts) (hp : p ∈ r.starts)
    {f g : SourceText} (hf : files[o.file]? = some f) (hg : files[p.file]? = some g) :
    f.trimmed (size + r.extension) o.start = g.trimmed (size + r.extension) p.start := by
  apply SourceText.trimmed_eq_of_windows hsize
  intro e he
  have hfits := (hasWindow_of_mem_run hr ho hf he).fits
  have hfits' := (hasWindow_of_mem_run hr hp hg he).fits
  have hhash := hashAt_eq_of_mem_run hr ho hp hf hg he
  exact (hashAt_eq_iff apart (List.mem_of_getElem? hf) (List.mem_of_getElem? hg) hfits hfits').1
    hhash

end Runs

section Blocks

variable {files : List SourceText} {size : Nat} {r : Run}

def Run.locationAt (files : List SourceText) (size : Nat) (r : Run) (o : Occurrence) : Location :=
  ⟨pathAt files o.file, o.start + 1, o.start + size + r.extension⟩

/-- A block has the locations of the starts of its run. -/
lemma Run.locations_toBlock :
    (r.toBlock files size).locations = r.starts.map (r.locationAt files size) :=
  rfl

/-- A location names the file of its start. -/
lemma file_locationAt {o : Occurrence} {f : SourceText} (hf : files[o.file]? = some f) :
    (r.locationAt files size o).file = f.path := by
  show pathAt files o.file = f.path
  rw [pathAt, hf]
  rfl

/-- A file that is kept is found by its path in the list that it was kept of. -/
lemma fileNumber_locationAt {o : Occurrence} {f : SourceText}
    (hf : (distinctFiles files)[o.file]? = some f) :
    files[(r.locationAt (distinctFiles files) size o).fileNumber files]? = some f := by
  rw [Location.fileNumber, file_locationAt hf]
  exact Path.getElem?_findIdx_of_mem_firsts SourceText.path (List.mem_of_getElem? hf)

/-- The stretch of a location is a window of as many lines as the run has. -/
lemma stretch_locationAt {o : Occurrence} {f : SourceText}
    (hf : (distinctFiles files)[o.file]? = some f) :
    (r.locationAt (distinctFiles files) size o).stretch files
      = windowAt f.lines (size + r.extension) o.start := by
  rw [Location.stretch, fileNumber_locationAt hf]
  show List.take (o.start + size + r.extension + 1 - (o.start + 1)) _ = _
  rw [show o.start + size + r.extension + 1 - (o.start + 1) = size + r.extension by omega]
  rfl

/-- Places that stand in order have locations that stand in order. -/
lemma locationAt_ordered {o p : Occurrence} {f g : SourceText}
    (hf : (distinctFiles files)[o.file]? = some f) (hg : (distinctFiles files)[p.file]? = some g)
    (h : o.before p = true) :
    let l := r.locationAt (distinctFiles files) size o
    let m := r.locationAt (distinctFiles files) size p
    l.fileNumber files < m.fileNumber files
      ∨ l.fileNumber files = m.fileNumber files ∧ l.startLine < m.startLine := by
  intro l m
  obtain hlt | ⟨heq, hlt⟩ := Occurrence.before_iff.1 h
  · left
    obtain ⟨hi, rfl⟩ := List.getElem?_eq_some_iff.1 hf
    obtain ⟨hj, rfl⟩ := List.getElem?_eq_some_iff.1 hg
    rw [Location.fileNumber, Location.fileNumber, file_locationAt hf, file_locationAt hg]
    exact List.pairwise_iff_getElem.1 (Path.firsts_pairwise_findIdx SourceText.path files) _ _ hi hj
      hlt
  · right
    obtain rfl : f = g := Option.some.inj (hf.symm.trans (heq ▸ hg))
    rw [Location.fileNumber, Location.fileNumber, file_locationAt hf, file_locationAt hg]
    exact ⟨rfl, Nat.succ_lt_succ hlt⟩

/-- A block is made of copies if its groups have two places at least. -/
lemma ofCopies_of_mem_detect {keep : Group → Bool} {b : Block} (hsize : 1 ≤ size)
    (apart : HashesApart files size) (hkeep : ∀ g, keep g = true → 2 ≤ g.starts.length)
    (hb : b ∈ detect (distinctFiles files) size keep) : b.OfCopies files size := by
  have apart' : HashesApart (distinctFiles files) size :=
    apart.subset (Path.firsts_subset SourceText.path files)
  rw [detect_eq_map_runsOf hsize] at hb
  obtain ⟨r, hr, rfl⟩ := List.mem_map.1 hb
  obtain ⟨group, hgroup, hkept, hhash, hstarts⟩ := exists_kept_of_first hr
  have hlines : (r.toBlock (distinctFiles files) size).lines = size + r.extension := rfl
  have hfile {o : Occurrence} (ho : o ∈ r.starts) := getElem?_file_of_mem_starts hr ho
  constructor
  case long => exact Nat.le_add_right _ _
  case several =>
    rw [Run.locations_toBlock, List.length_map, ← hstarts]
    exact hkeep group hkept
  case covers =>
    intro l hl
    obtain ⟨o, ho, rfl⟩ := List.mem_map.1 hl
    obtain ⟨f, hf⟩ := hfile ho
    have hfits := (hasWindow_of_mem_run hr ho hf (le_refl _)).fits
    refine ⟨⟨f, fileNumber_locationAt hf, (file_locationAt hf).symm, ?_⟩, Nat.succ_pos _, ?_, ?_⟩
    · show o.start + size + r.extension ≤ f.lines.length
      omega
    · show o.start + size + r.extension + 1 = o.start + 1 + (size + r.extension)
      omega
    · show ((r.locationAt (distinctFiles files) size o).stretch files).length = _
      rw [stretch_locationAt hf, windowAt, List.length_take, List.length_drop, hlines]
      omega
  case alike =>
    intro l hl m hm
    obtain ⟨o, ho, rfl⟩ := List.mem_map.1 hl
    obtain ⟨p, hp, rfl⟩ := List.mem_map.1 hm
    obtain ⟨f, hf⟩ := hfile ho
    obtain ⟨g, hg⟩ := hfile hp
    show ((r.locationAt (distinctFiles files) size o).stretch files).map Text.trim
      = ((r.locationAt (distinctFiles files) size p).stretch files).map Text.trim
    rw [stretch_locationAt hf, stretch_locationAt hg]
    exact trimmed_eq_of_mem_run hsize apart' hr ho hp hf hg
  case hash =>
    intro l hl
    obtain ⟨o, ho, rfl⟩ := List.mem_map.1 hl
    obtain ⟨f, hf, -, hhash'⟩ := hasWindow_of_mem_starts hgroup (hstarts ▸ ho)
    show r.hash = windowHash (((r.locationAt (distinctFiles files) size o).stretch files).take size)
    rw [stretch_locationAt hf, ← hhash, ← hhash', windowAt, List.take_take,
      Nat.min_eq_left (Nat.le_add_right _ _)]
    rfl
  case ordered =>
    rw [Run.locations_toBlock, List.pairwise_map, ← hstarts]
    apply (starts_pairwise_of_mem_groups hgroup).imp_of_mem
    intro o p ho hp hbefore
    rw [hstarts] at ho hp
    obtain ⟨f, hf⟩ := hfile ho
    obtain ⟨g, hg⟩ := hfile hp
    exact locationAt_ordered hf hg hbefore

end Blocks

/-- The locations of a block within a file are all in that file. -/
lemma distinctFiles_of_mem_withinFile {f : SourceText} {size : Nat} {b : Block} (hsize : 1 ≤ size)
    (hne : b.locations ≠ []) (hb : b ∈ withinFile f size) : b.distinctFiles = 1 := by
  rw [withinFile, detect_eq_map_runsOf hsize] at hb
  obtain ⟨r, hr, rfl⟩ := List.mem_map.1 hb
  have hpath : ∀ p ∈ (r.toBlock [f] size).locations.map Location.file, p = f.path := by
    intro p hp
    obtain ⟨l, hl, rfl⟩ := List.mem_map.1 hp
    obtain ⟨o, ho, rfl⟩ := List.mem_map.1 hl
    obtain ⟨g, hg⟩ := getElem?_file_of_mem_starts hr ho
    obtain rfl := List.mem_singleton.1 (List.mem_of_getElem? hg)
    exact file_locationAt hg
  have hone : ¬ 2 ≤ (r.toBlock [f] size).distinctFiles := by
    intro htwo
    obtain ⟨p, hp, q, hq, hsame⟩ := Path.two_le_length_distinct_iff.1 htwo
    exact Path.ne_of_same_eq_false hsame ((hpath p hp).trans (hpath q hq).symm)
  have hpos : 0 < (r.toBlock [f] size).distinctFiles :=
    Path.length_distinct_pos (mt List.map_eq_nil_iff.1 hne)
  omega

/-- The locations of a block across files are in two files at least. -/
lemma distinctFiles_of_mem_acrossFiles {files : List SourceText} {size : Nat} {b : Block}
    (hsize : 1 ≤ size) (hb : b ∈ acrossFiles files size) : 2 ≤ b.distinctFiles := by
  rw [acrossFiles, detect_eq_map_runsOf hsize] at hb
  obtain ⟨r, hr, rfl⟩ := List.mem_map.1 hb
  obtain ⟨group, hgroup, hkept, -, hstarts⟩ := exists_kept_of_first hr
  obtain ⟨o, ho, p, hp, hne⟩ := two_le_fileCount_iff.1 (of_decide_eq_true hkept)
  rw [hstarts] at ho hp
  obtain ⟨f, hf⟩ := getElem?_file_of_mem_starts hr ho
  obtain ⟨g, hg⟩ := getElem?_file_of_mem_starts hr hp
  have hmem {o : Occurrence} (ho : o ∈ r.starts) :
      (r.locationAt (distinctFiles files) size o).file
        ∈ (r.toBlock (distinctFiles files) size).locations.map Location.file :=
    List.mem_map_of_mem (List.mem_map_of_mem ho)
  refine Path.two_le_length_distinct_iff.2 ⟨_, hmem ho, _, hmem hp, ?_⟩
  rw [file_locationAt hf, file_locationAt hg]
  exact same_path_eq_false hf hg hne.symm

/-- The blocks of either pass are made of copies, in one file or in several. -/
theorem blocks_of_copies (files : List SourceText) (size : Nat) (hsize : 1 ≤ size)
    (apart : HashesApart files size) :
    (∀ f ∈ files, ∀ b ∈ withinFile f size, b.OfCopies [f] size ∧ b.distinctFiles = 1) ∧
      ∀ b ∈ acrossFiles files size, b.OfCopies files size ∧ 2 ≤ b.distinctFiles := by
  constructor
  · intro f hf b hb
    have apart' : HashesApart [f] size := apart.subset (List.cons_subset.2 ⟨hf, List.nil_subset _⟩)
    have hcopies : b.OfCopies [f] size :=
      ofCopies_of_mem_detect hsize apart' (fun g hg => of_decide_eq_true hg) hb
    have hne : b.locations ≠ [] := List.ne_nil_of_length_pos (by have := hcopies.several; omega)
    exact ⟨hcopies, distinctFiles_of_mem_withinFile hsize hne hb⟩
  · intro b hb
    have hcopies : b.OfCopies files size := by
      refine ofCopies_of_mem_detect hsize apart (fun g hg => ?_) hb
      obtain ⟨o, ho, p, hp, hne⟩ := two_le_fileCount_iff.1 (of_decide_eq_true hg)
      exact two_le_length_of_ne ho hp fun e => hne (congrArg Occurrence.file e)
    exact ⟨hcopies, distinctFiles_of_mem_acrossFiles hsize hb⟩

/-- A text with a window that is repeated has a block. -/
lemma exists_mem_withinFile {f : SourceText} {size start : Nat} (hsize : 1 ≤ size)
    (apart : HashesApart [f] size) (h : RepeatedWithin f size start) :
    ∃ b, b ∈ withinFile f size := by
  obtain ⟨hwindow, htwo⟩ := (repeatedWithin_iff apart).1 h
  have hpaths : ([f].map SourceText.path).Nodup := List.nodup_singleton _
  have hreported : ∃ spot, ReportedAt (withinFile f size) size f.path start spot :=
    (exists_reportedAt_detect_iff hsize hpaths (List.mem_singleton_self f)).2
      ⟨hwindow, decide_eq_true htwo⟩
  obtain ⟨spot, b, l, hb, -⟩ := hreported
  exact ⟨b, List.mem_of_getElem? hb⟩

/-- Files with a window that is repeated in another one have a block. -/
lemma exists_mem_acrossFiles {files : List SourceText} {f : SourceText} {size start : Nat}
    (hsize : 1 ≤ size) (apart : HashesApart files size) (hf : FirstListed files f)
    (h : RepeatedAcross files f size start) : ∃ b, b ∈ acrossFiles files size := by
  have hmem : f ∈ distinctFiles files := mem_distinctFiles_iff.2 hf
  obtain ⟨hwindow, htwo⟩ := (repeatedAcross_iff apart hmem).1 h
  have hreported : ∃ spot, ReportedAt (acrossFiles files size) size f.path start spot :=
    (exists_reportedAt_detect_iff hsize (distinctFiles_paths_nodup files) hmem).2
      ⟨hwindow, decide_eq_true htwo⟩
  obtain ⟨spot, b, l, hb, -⟩ := hreported
  exact ⟨b, List.mem_of_getElem? hb⟩

/-- The periodic text has a block of overlapping copies, and one that is copied to the other file. -/
theorem periodicFiles_of_copies :
    (1 ≤ 2 ∧ HashesApart periodicFiles 2) ∧
      (∃ f ∈ periodicFiles, ∃ b ∈ withinFile f 2, b.OfCopies [f] 2 ∧ b.distinctFiles = 1) ∧
      ∃ b ∈ acrossFiles periodicFiles 2, b.OfCopies periodicFiles 2 ∧ 2 ≤ b.distinctFiles := by
  have hsize : 1 ≤ 2 := by decide
  have apart : HashesApart periodicFiles 2 := periodicFiles_apart
  obtain ⟨hwithin, hacross⟩ := blocks_of_copies periodicFiles 2 hsize apart
  let text : SourceText := ⟨⟨"a.ts"⟩, "p\n\tq\np\nq\np\n"⟩
  have hmem : text ∈ periodicFiles := List.mem_cons_self
  refine ⟨⟨hsize, apart⟩, ⟨text, hmem, ?_⟩, ?_⟩
  · have apart' : HashesApart [text] 2 :=
      apart.subset (List.cons_subset.2 ⟨hmem, List.nil_subset _⟩)
    have hrepeated : RepeatedWithin text 2 0 :=
      ⟨⟨by decide +kernel, by decide +kernel⟩, 2, by decide +kernel⟩
    obtain ⟨b, hb⟩ := exists_mem_withinFile hsize apart' hrepeated
    exact ⟨b, hb, hwithin text hmem b hb⟩
  · have hfirst : FirstListed periodicFiles text := ⟨[], _, rfl, nofun⟩
    have hother : FirstListed periodicFiles ⟨⟨"b.ts"⟩, "q\n  p"⟩ :=
      ⟨[text], _, rfl, by decide +kernel⟩
    have hrepeated : RepeatedAcross periodicFiles text 2 1 :=
      ⟨⟨by decide +kernel, by decide +kernel⟩, _, 0, hother, by decide +kernel⟩
    obtain ⟨b, hb⟩ := exists_mem_acrossFiles hsize apart hfirst hrepeated
    exact ⟨b, hb, hacross b hb⟩

end CodeAudit.Duplicate
