import CodeAudit.Proofs.Duplicate.Group
import CodeAudit.Proofs.Duplicate.Merge
import CodeAudit.Proofs.Path
/-!
# Every repeated window is reported once

A window is repeated within a file if its trimmed lines stand at another place of the file, and
across files if they stand in another file. The blocks of either pass point at every repeated window
exactly once and at no other window, as long as the hash does not collide.
-/
namespace CodeAudit.Duplicate

/-- The window at `start` is not blank, and its trimmed lines stand at another place of the file. -/
def RepeatedWithin (f : SourceText) (size start : Nat) : Prop :=
  f.HasWindow size start ∧ ∃ other, other ≠ start ∧ other + size ≤ f.lines.length ∧
    f.trimmed size other = f.trimmed size start

/-- A file that is listed with no file of the same path before it. -/
def FirstListed (files : List SourceText) (f : SourceText) : Prop :=
  ∃ before after, files = before ++ f :: after ∧ ∀ g ∈ before, f.path.same g.path = false

/-- The window at `start` is not blank, and its trimmed lines stand in another file. -/
def RepeatedAcross (files : List SourceText) (f : SourceText) (size start : Nat) : Prop :=
  f.HasWindow size start ∧ ∃ g other, FirstListed files g ∧ f.path.same g.path = false ∧
    other + size ≤ g.lines.length ∧ g.trimmed size other = f.trimmed size start

/-- The window of `size` lines at `start` is the one that a spot of some blocks points at. -/
def ReportedAt (blocks : List Block) (size : Nat) (file : Path) (start : Nat) (spot : Spot) :
    Prop :=
  ∃ b l, blocks[spot.block]? = some b ∧ b.locations[spot.location]? = some l ∧
    spot.offset + size ≤ b.lines ∧ l.file = file ∧ l.startLine + spot.offset = start + 1

/--
The blocks report exactly the windows that are repeated: each of them at one spot, no other window,
and nothing outside of the files that are listed.
-/
structure ReportsExactly (blocks : List Block) (size : Nat) (listed : SourceText → Prop)
    (repeated : SourceText → Nat → Prop) : Prop where
  reported : ∀ f, listed f → ∀ start,
    repeated f start ↔ ∃ spot, ReportedAt blocks size f.path start spot
  once : ∀ f, listed f → ∀ start s t,
    ReportedAt blocks size f.path start s → ReportedAt blocks size f.path start t → s = t
  placed : ∀ b ∈ blocks, ∀ l ∈ b.locations, 1 ≤ l.startLine ∧ ∃ f, listed f ∧ f.path = l.file

/-- The files that are kept are those listed first with their path. -/
lemma mem_distinctFiles_iff {files : List SourceText} {f : SourceText} :
    f ∈ distinctFiles files ↔ FirstListed files f :=
  Path.mem_firsts_iff SourceText.path

section Detect

variable {files : List SourceText} {size : Nat} {keep : Group → Bool}

/-- The runs behind the blocks that are detected. -/
def runsOf (files : List SourceText) (size : Nat) (keep : Group → Bool) : List Run :=
  Run.merge (((groups files size).filter keep).mergeSort Group.le)

/-- The windows of the runs are the groups that are kept. -/
lemma windows_runsOf_perm :
    ((runsOf files size keep).flatMap Run.windows).Perm
      (((groups files size).filter keep).map Group.starts) :=
  (Run.windows_merge_perm _).trans ((List.mergeSort_perm _ _).map _)

/-- The places of the runs are those of the groups that are kept. -/
lemma mem_runsOf_windows {o : Occurrence} :
    o ∈ ((runsOf files size keep).flatMap Run.windows).flatten ↔
      ∃ g ∈ groups files size, keep g = true ∧ o ∈ g.starts := by
  rw [windows_runsOf_perm.flatten.mem_iff, ← List.flatMap_def, List.mem_flatMap]
  simp only [List.mem_filter, and_assoc]

/-- No two windows of the runs share a place. -/
lemma runsOf_windows_nodup : ((runsOf files size keep).flatMap Run.windows).flatten.Nodup := by
  rw [windows_runsOf_perm.flatten.nodup_iff, ← List.flatMap_def]
  exact groups_starts_nodup.sublist (List.filter_sublist.flatMap _)

/-- A run starts in the files. -/
lemma getElem?_file_of_mem_starts {r : Run} (hr : r ∈ runsOf files size keep) {o : Occurrence}
    (ho : o ∈ r.starts) : ∃ g, files[o.file]? = some g := by
  have hwindow : r.starts ∈ (runsOf files size keep).flatMap Run.windows := by
    refine List.mem_flatMap.2 ⟨r, hr, List.mem_map.2 ⟨0, List.mem_range.2 (Nat.succ_pos _), ?_⟩⟩
    exact List.map_id _
  obtain ⟨g, hg, -, hog⟩ := mem_runsOf_windows.1 (List.mem_flatten.2 ⟨_, hwindow, ho⟩)
  rw [(mem_groups_iff.1 hg).1, mem_placesOf, mem_hashedWindows] at hog
  obtain ⟨f, hf, -⟩ := hog
  exact ⟨f, hf⟩

/-- A file is told by its path if no two files have one path. -/
lemma eq_of_pathAt_eq (hpaths : (files.map SourceText.path).Nodup) {i j : Nat} {f g : SourceText}
    (hf : files[i]? = some f) (hg : files[j]? = some g) (h : g.path = f.path) : j = i := by
  have hi : (files.map SourceText.path)[i]? = some f.path := by
    rw [List.getElem?_map, hf, Option.map_some]
  have hj : (files.map SourceText.path)[j]? = some f.path := by
    rw [List.getElem?_map, hg, Option.map_some, h]
  exact (List.getElem?_inj (List.getElem?_eq_some_iff.1 hj).1 hpaths).1 (hj.trans hi.symm)

/-- The blocks are those of the runs. -/
lemma detect_eq_map_runsOf (hsize : 1 ≤ size) :
    detect files size keep = (runsOf files size keep).map (Run.toBlock files size) :=
  if_neg (Nat.one_le_iff_ne_zero.1 hsize)

/-- The blocks report a window exactly where the runs have it. -/
lemma reportedAt_detect_iff (hsize : 1 ≤ size) (hpaths : (files.map SourceText.path).Nodup)
    {i : Nat} {f : SourceText} (hf : files[i]? = some f) {start : Nat} {spot : Spot} :
    ReportedAt (detect files size keep) size f.path start spot ↔
      Run.At (runsOf files size keep) spot ⟨i, start⟩ := by
  rw [detect_eq_map_runsOf hsize]
  constructor
  · rintro ⟨b, l, hb, hl, hlines, hfile, hstart⟩
    rw [List.getElem?_map, Option.map_eq_some_iff] at hb
    obtain ⟨r, hr, rfl⟩ := hb
    rw [Run.toBlock, List.getElem?_map, Option.map_eq_some_iff] at hl
    obtain ⟨o, ho, rfl⟩ := hl
    obtain ⟨g, hg⟩ := getElem?_file_of_mem_starts (List.mem_of_getElem? hr) (List.mem_of_getElem? ho)
    rw [pathAt, hg] at hfile
    -- the path of the location tells the file, as no two files have one path
    have hindex : o.file = i := eq_of_pathAt_eq hpaths hf hg hfile
    have hlines : spot.offset + size ≤ size + r.extension := hlines
    have hstart : o.start + 1 + spot.offset = start + 1 := hstart
    refine ⟨r, o, hr, ho, by omega, ?_⟩
    rw [Occurrence.shift, ← hindex, Occurrence.mk.injEq]
    exact ⟨rfl, by omega⟩
  · rintro ⟨r, o, hr, ho, he, hplace⟩
    obtain ⟨hfile, (hstart : o.start + spot.offset = start)⟩ := Occurrence.mk.inj hplace
    refine ⟨r.toBlock files size, ⟨f.path, o.start + 1, o.start + size + r.extension⟩, ?_, ?_, ?_,
      rfl, ?_⟩
    · rw [List.getElem?_map, hr, Option.map_some]
    · rw [Run.toBlock, List.getElem?_map, ho, Option.map_some, pathAt, hfile, hf]
      rfl
    · show spot.offset + size ≤ size + r.extension
      omega
    · show o.start + 1 + spot.offset = start + 1
      omega

/-- A window is reported exactly if it is looked at and its group is kept. -/
lemma exists_reportedAt_detect_iff (hsize : 1 ≤ size)
    (hpaths : (files.map SourceText.path).Nodup) {f : SourceText} (hf : f ∈ files) {start : Nat} :
    (∃ spot, ReportedAt (detect files size keep) size f.path start spot) ↔
      f.HasWindow size start ∧
        keep ⟨f.hashAt size start,
          placesOf (hashedWindows files size) (f.hashAt size start)⟩ = true := by
  obtain ⟨i, hi⟩ := List.mem_iff_getElem?.1 hf
  simp only [reportedAt_detect_iff hsize hpaths hi]
  rw [Run.exists_at_iff, mem_runsOf_windows]
  constructor
  · rintro ⟨g, hg, hkeep, hplace⟩
    obtain ⟨hstarts, -⟩ := mem_groups_iff.1 hg
    rw [hstarts, mem_placesOf, mem_hashedWindows] at hplace
    obtain ⟨f', hf', hwindow, hhash⟩ := hplace
    obtain rfl : f = f' := Option.some.inj (hi.symm.trans hf')
    rw [hhash, ← hstarts]
    exact ⟨hwindow, hkeep⟩
  · rintro ⟨hwindow, hkeep⟩
    have hplace : (⟨i, start⟩ : Occurrence)
        ∈ placesOf (hashedWindows files size) (f.hashAt size start) :=
      mem_placesOf.2 (mem_hashedWindows.2 ⟨f, hi, hwindow, rfl⟩)
    exact ⟨_, mem_groups_iff.2 ⟨rfl, List.ne_nil_of_mem hplace⟩, hkeep, hplace⟩

/-- The windows that are reported are those that are looked at and whose groups are kept. -/
lemma reportsExactly_detect (hsize : 1 ≤ size) (hpaths : (files.map SourceText.path).Nodup) :
    ReportsExactly (detect files size keep) size (· ∈ files) fun f start =>
      f.HasWindow size start ∧
        keep ⟨f.hashAt size start,
          placesOf (hashedWindows files size) (f.hashAt size start)⟩ = true where
  reported _ hf _ := (exists_reportedAt_detect_iff hsize hpaths hf).symm
  once f hf start s t hs ht := by
    obtain ⟨i, hi⟩ := List.mem_iff_getElem?.1 hf
    rw [reportedAt_detect_iff hsize hpaths hi] at hs ht
    exact hs.unique runsOf_windows_nodup ht
  placed b hb l hl := by
    rw [detect_eq_map_runsOf hsize] at hb
    obtain ⟨r, hr, rfl⟩ := List.mem_map.1 hb
    obtain ⟨o, ho, rfl⟩ := List.mem_map.1 hl
    obtain ⟨g, hg⟩ := getElem?_file_of_mem_starts hr ho
    refine ⟨Nat.succ_pos _, g, List.mem_of_getElem? hg, ?_⟩
    rw [pathAt, hg]
    rfl

end Detect

/-- The paths of the files that are kept are different. -/
lemma distinctFiles_paths_nodup (files : List SourceText) :
    ((distinctFiles files).map SourceText.path).Nodup := by
  rw [List.Nodup, List.pairwise_map]
  exact (Path.firsts_pairwise SourceText.path files).imp Path.ne_of_same_eq_false

/-- No file is listed twice among the different ones. -/
lemma distinctFiles_nodup (files : List SourceText) : (distinctFiles files).Nodup :=
  (distinctFiles_paths_nodup files).of_map

/-- A list without repeats that has two items has one that is not a given one. -/
lemma exists_ne_of_two_le_length {α : Type} {items : List α} (h : items.Nodup)
    (htwo : 2 ≤ items.length) (a : α) : ∃ b ∈ items, b ≠ a := by
  by_contra hall
  have hsub : items ⊆ [a] := by
    intro b hb
    rw [List.mem_singleton]
    by_contra hne
    exact hall ⟨b, hb, hne⟩
  have := (h.subperm hsub).length_le
  simp only [List.length_singleton] at this
  omega

/-- Whether a place in a list of files has a window with a hash. -/
lemma mem_placesOf_hashAt_iff {files : List SourceText} {size : Nat}
    (apart : HashesApart files size) {f : SourceText} (hf : f ∈ files) {start : Nat}
    (hwindow : f.HasWindow size start) {o : Occurrence} :
    o ∈ placesOf (hashedWindows files size) (f.hashAt size start) ↔
      ∃ g, files[o.file]? = some g ∧ o.start + size ≤ g.lines.length ∧
        g.trimmed size o.start = f.trimmed size start := by
  rw [mem_placesOf, mem_hashedWindows]
  constructor
  · rintro ⟨g, hg, hother, hhash⟩
    refine ⟨g, hg, hother.fits, ?_⟩
    exact (hashAt_eq_iff apart (List.mem_of_getElem? hg) hf hother.fits hwindow.fits).1 hhash
  · rintro ⟨g, hg, hfits, htrimmed⟩
    refine ⟨g, hg, ⟨hfits, htrimmed ▸ hwindow.notBlank⟩, ?_⟩
    exact (hashAt_eq_iff apart (List.mem_of_getElem? hg) hf hfits hwindow.fits).2 htrimmed

/-- The group of a window that is repeated in its file has two places, whether or not the hash
collides. -/
lemma RepeatedWithin.two_le_length {f : SourceText} {size start : Nat}
    (h : RepeatedWithin f size start) :
    2 ≤ (placesOf (hashedWindows [f] size) (f.hashAt size start)).length := by
  obtain ⟨hwindow, other, hne, hfits, htrimmed⟩ := h
  have hother : f.HasWindow size other := ⟨hfits, htrimmed ▸ hwindow.notBlank⟩
  have hplace {s : Nat} (hs : f.HasWindow size s) :
      (⟨0, s⟩ : Occurrence) ∈ placesOf (hashedWindows [f] size) (f.hashAt size s) :=
    mem_placesOf.2 (mem_hashedWindows.2 ⟨f, rfl, hs, rfl⟩)
  apply two_le_length_of_ne (hashAt_congr htrimmed ▸ hplace hother) (hplace hwindow)
  exact fun heq => hne (Occurrence.mk.inj heq).2

/-- A window of a file is repeated in it exactly if its group has two places. -/
lemma repeatedWithin_iff {f : SourceText} {size start : Nat} (apart : HashesApart [f] size) :
    RepeatedWithin f size start ↔ f.HasWindow size start ∧
      2 ≤ (placesOf (hashedWindows [f] size) (f.hashAt size start)).length := by
  constructor
  · exact fun h => ⟨h.1, h.two_le_length⟩
  · rintro ⟨hwindow, htwo⟩
    obtain ⟨⟨j, other⟩, ho, hne⟩ := exists_ne_of_two_le_length (placesOf_nodup _) htwo ⟨0, start⟩
    obtain ⟨g, hg, hfits, htrimmed⟩ :=
      (mem_placesOf_hashAt_iff apart (List.mem_singleton_self f) hwindow).1 ho
    obtain ⟨rfl, rfl⟩ : j = 0 ∧ f = g := by
      cases j with
      | zero => exact ⟨rfl, Option.some.inj hg⟩
      | succ j => cases hg
    exact ⟨hwindow, other, fun e => hne (e ▸ rfl), hfits, htrimmed⟩

/-- Two of the files that are kept have the same path only if they are one file. -/
lemma same_path_eq_false {files : List SourceText} {i j : Nat} {f g : SourceText}
    (hf : (distinctFiles files)[i]? = some f) (hg : (distinctFiles files)[j]? = some g)
    (hne : j ≠ i) : f.path.same g.path = false := by
  obtain ⟨hi, rfl⟩ := List.getElem?_eq_some_iff.1 hf
  obtain ⟨hj, rfl⟩ := List.getElem?_eq_some_iff.1 hg
  have hpairs := List.pairwise_iff_getElem.1 (Path.firsts_pairwise SourceText.path files)
  obtain hlt | hgt := Nat.lt_or_gt_of_ne hne
  · rw [Path.same_comm]
    exact hpairs j i hj hi hlt
  · exact hpairs i j hi hj hgt

/-- A hash has places in two of some different files exactly if two of the files have windows with
it. -/
lemma two_le_fileCount_placesOf_iff {files : List SourceText} {size : Nat} {hash : String}
    (hfiles : files.Nodup) :
    2 ≤ Group.fileCount ⟨hash, placesOf (hashedWindows files size) hash⟩ ↔
      ∃ f ∈ files, ∃ g ∈ files, f ≠ g ∧ (∃ s, f.HasWindow size s ∧ f.hashAt size s = hash) ∧
        ∃ t, g.HasWindow size t ∧ g.hashAt size t = hash := by
  rw [two_le_fileCount_iff]
  constructor
  · rintro ⟨⟨i, s⟩, ho, ⟨j, t⟩, hp, hne⟩
    obtain ⟨f, hf, hs⟩ := mem_hashedWindows.1 (mem_placesOf.1 ho)
    obtain ⟨g, hg, ht⟩ := mem_hashedWindows.1 (mem_placesOf.1 hp)
    refine ⟨f, List.mem_of_getElem? hf, g, List.mem_of_getElem? hg, ?_, ⟨s, hs⟩, ⟨t, ht⟩⟩
    rintro rfl
    have hi : i < files.length := (List.getElem?_eq_some_iff.1 hf).1
    exact hne ((List.getElem?_inj hi hfiles).1 (hf.trans hg.symm))
  · rintro ⟨f, hf, g, hg, hne, ⟨s, hs⟩, ⟨t, ht⟩⟩
    obtain ⟨i, hi⟩ := List.mem_iff_getElem?.1 hf
    obtain ⟨j, hj⟩ := List.mem_iff_getElem?.1 hg
    refine ⟨⟨i, s⟩, mem_placesOf.2 (mem_hashedWindows.2 ⟨f, hi, hs⟩),
      ⟨j, t⟩, mem_placesOf.2 (mem_hashedWindows.2 ⟨g, hj, ht⟩), ?_⟩
    rintro (rfl : i = j)
    exact hne (Option.some.inj (hi.symm.trans hj))

/-- The group of a window that is repeated in another file has places in two files, whether or not the
hash collides. -/
lemma RepeatedAcross.two_le_fileCount {files : List SourceText} {f : SourceText} {size start : Nat}
    (hf : f ∈ distinctFiles files) (h : RepeatedAcross files f size start) :
    2 ≤ Group.fileCount ⟨f.hashAt size start,
      placesOf (hashedWindows (distinctFiles files) size) (f.hashAt size start)⟩ := by
  obtain ⟨hwindow, g, other, hg, hsame, hfits, htrimmed⟩ := h
  have hother : g.HasWindow size other := ⟨hfits, htrimmed ▸ hwindow.notBlank⟩
  have hne : f ≠ g := fun heq => Path.ne_of_same_eq_false hsame (congrArg SourceText.path heq)
  exact (two_le_fileCount_placesOf_iff (distinctFiles_nodup files)).2 ⟨f, hf, g,
    mem_distinctFiles_iff.2 hg, hne, ⟨start, hwindow, rfl⟩, ⟨other, hother, hashAt_congr htrimmed⟩⟩

/-- A window of a file is repeated in another file exactly if its group has places in two files. -/
lemma repeatedAcross_iff {files : List SourceText} {f : SourceText} {size start : Nat}
    (apart : HashesApart files size) (hf : f ∈ distinctFiles files) :
    RepeatedAcross files f size start ↔ f.HasWindow size start ∧
      2 ≤ Group.fileCount ⟨f.hashAt size start,
        placesOf (hashedWindows (distinctFiles files) size) (f.hashAt size start)⟩ := by
  have apart' : HashesApart (distinctFiles files) size :=
    apart.subset (Path.firsts_subset SourceText.path files)
  constructor
  · exact fun h => ⟨h.1, h.two_le_fileCount hf⟩
  · rintro ⟨hwindow, htwo⟩
    obtain ⟨g, hg, k, hk, hne, ⟨s, hs, hshash⟩, ⟨t, ht, hthash⟩⟩ :=
      (two_le_fileCount_placesOf_iff (distinctFiles_nodup files)).1 htwo
    -- the window itself is in one file, so one of the two is another file
    obtain ⟨m, hm, other, hmf, hother, hhash⟩ : ∃ m ∈ distinctFiles files, ∃ other, m ≠ f ∧
        m.HasWindow size other ∧ m.hashAt size other = f.hashAt size start := by
      by_cases hgf : g = f
      · exact ⟨k, hk, t, fun e => hne (hgf.trans e.symm), ht, hthash⟩
      · exact ⟨g, hg, s, hgf, hs, hshash⟩
    obtain ⟨i, hi⟩ := List.mem_iff_getElem?.1 hf
    obtain ⟨j, hj⟩ := List.mem_iff_getElem?.1 hm
    have hji : j ≠ i := by
      rintro rfl
      exact hmf (Option.some.inj (hj.symm.trans hi))
    refine ⟨hwindow, m, other, mem_distinctFiles_iff.1 hm, same_path_eq_false hi hj hji,
      hother.fits, ?_⟩
    exact (hashAt_eq_iff apart' hm hf hother.fits hwindow.fits).1 hhash

section Repeated

variable {files : List SourceText} {size : Nat} {f : SourceText} {start : Nat}

/-- A window that is repeated within a file is reported in it. -/
lemma RepeatedWithin.exists_reportedAt (hsize : 1 ≤ size) (h : RepeatedWithin f size start) :
    ∃ spot, ReportedAt (withinFile f size) size f.path start spot := by
  have hpaths : ([f].map SourceText.path).Nodup := List.nodup_singleton _
  exact (exists_reportedAt_detect_iff hsize hpaths (List.mem_singleton_self f)).2
    ⟨h.1, decide_eq_true h.two_le_length⟩

/-- A window that is repeated across files is reported in each of them. -/
lemma RepeatedAcross.exists_reportedAt (hsize : 1 ≤ size) (hf : FirstListed files f)
    (h : RepeatedAcross files f size start) :
    ∃ spot, ReportedAt (acrossFiles files size) size f.path start spot := by
  have hmem : f ∈ distinctFiles files := mem_distinctFiles_iff.2 hf
  exact (exists_reportedAt_detect_iff hsize (distinctFiles_paths_nodup files) hmem).2
    ⟨h.1, decide_eq_true (h.two_le_fileCount hmem)⟩

end Repeated

/-- In either pass the windows that are reported are those that are repeated, each at one spot. -/
theorem repeated_iff_reported_once (files : List SourceText) (size : Nat) (hsize : 1 ≤ size)
    (apart : HashesApart files size) :
    (∀ f ∈ files, ReportsExactly (withinFile f size) size (· = f)
      fun g start => RepeatedWithin g size start) ∧
    ReportsExactly (acrossFiles files size) size (FirstListed files)
      fun f start => RepeatedAcross files f size start := by
  constructor
  · intro f hf
    have apart' : HashesApart [f] size := apart.subset (List.cons_subset.2 ⟨hf, List.nil_subset _⟩)
    have hpaths : ([f].map SourceText.path).Nodup := List.nodup_singleton _
    have hexact : ReportsExactly (withinFile f size) size _ _ := reportsExactly_detect hsize hpaths
    simp only [List.mem_singleton] at hexact
    refine ⟨?_, hexact.once, hexact.placed⟩
    rintro g rfl start
    rw [repeatedWithin_iff apart', ← hexact.reported g rfl, decide_eq_true_iff]
  · have hexact : ReportsExactly (acrossFiles files size) size _ _ :=
      reportsExactly_detect hsize (distinctFiles_paths_nodup files)
    simp only [mem_distinctFiles_iff] at hexact
    refine ⟨fun f hf start => ?_, hexact.once, hexact.placed⟩
    rw [repeatedAcross_iff apart (mem_distinctFiles_iff.2 hf), ← hexact.reported f hf,
      decide_eq_true_iff]

/-- A periodic text, a copy of a part of it, and that copy's path once more. -/
def periodicFiles : List SourceText :=
  [⟨⟨"a.ts"⟩, "p\n\tq\np\nq\np\n"⟩, ⟨⟨"b.ts"⟩, "q\n  p"⟩, ⟨⟨"b.ts/"⟩, "p"⟩]

/-- The windows of the periodic text have one of two texts, and these have different hashes. -/
lemma periodicFiles_apart : HashesApart periodicFiles 2 := by
  have htexts : ∀ x ∈ windowTexts periodicFiles 2, x = ['p', '\n', 'q'] ∨ x = ['q', '\n', 'p'] := by
    decide +kernel
  have hne : Blake3.hashText ['p', '\n', 'q'] ≠ Blake3.hashText ['q', '\n', 'p'] := by
    decide +kernel
  intro x hx y hy e
  obtain rfl | rfl := htexts x hx
  · obtain rfl | rfl := htexts y hy
    · rfl
    · exact absurd e hne
  · obtain rfl | rfl := htexts y hy
    · exact absurd e.symm hne
    · rfl

/-- A window of the periodic text is copied to the other file. -/
lemma exists_repeatedAcross_periodicFiles :
    ∃ f, FirstListed periodicFiles f ∧ RepeatedAcross periodicFiles f 2 1 := by
  let text : SourceText := ⟨⟨"a.ts"⟩, "p\n\tq\np\nq\np\n"⟩
  have hother : FirstListed periodicFiles ⟨⟨"b.ts"⟩, "q\n  p"⟩ :=
    ⟨[text], _, rfl, by decide +kernel⟩
  exact ⟨text, ⟨[], _, rfl, fun g hg => absurd hg List.not_mem_nil⟩,
    ⟨by decide +kernel, by decide +kernel⟩, _, 0, hother, by decide +kernel⟩

/-- The periodic text overlaps its own copies, and each of its windows is reported once. -/
theorem periodicFiles_reported_once :
    (1 ≤ 2 ∧ HashesApart periodicFiles 2) ∧
      (∀ f ∈ periodicFiles, ReportsExactly (withinFile f 2) 2 (· = f)
        fun g start => RepeatedWithin g 2 start) ∧
      ReportsExactly (acrossFiles periodicFiles 2) 2 (FirstListed periodicFiles)
        fun f start => RepeatedAcross periodicFiles f 2 start := by
  have hsize : 1 ≤ 2 := by decide
  have apart : HashesApart periodicFiles 2 := periodicFiles_apart
  exact ⟨⟨hsize, apart⟩, repeated_iff_reported_once periodicFiles 2 hsize apart⟩

end CodeAudit.Duplicate
