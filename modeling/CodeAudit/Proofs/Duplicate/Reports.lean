import CodeAudit.Proofs.Duplicate.Copies
/-!
# What is reported beside a window

A reported window has a block, a location in it and a number of lines below the location's start.
The other locations of the block, as many lines below their starts, are the places of all windows
with the same hash and of no others. So what a pass says of a window can be told from the windows of
the files, without the groups and runs in between.
-/
namespace CodeAudit.Duplicate

/-- The block that a spot points into has the window at `start` as well, at another location. -/
def BesideAt (blocks : List Block) (size : Nat) (spot : Spot) (file : Path) (start : Nat) : Prop :=
  ∃ location, ReportedAt blocks size file start { spot with location }

section Detect

variable {files : List SourceText} {size : Nat} {keep : Group → Bool} {f g : SourceText}
  {start other : Nat} {spot : Spot}

/-- What is reported is in one of the files. -/
lemma exists_file_of_reportedAt (hsize : 1 ≤ size) (hpaths : (files.map SourceText.path).Nodup)
    {file : Path} (h : ReportedAt (detect files size keep) size file start spot) :
    ∃ f ∈ files, f.path = file := by
  obtain ⟨b, l, hb, hl, -, hfile, -⟩ := h
  obtain ⟨-, f, hf, hpath⟩ := (reportsExactly_detect hsize hpaths).placed b (List.mem_of_getElem? hb)
    l (List.mem_of_getElem? hl)
  exact ⟨f, hf, hpath.trans hfile⟩

/-- Beside a window stand all windows with its hash, and no others. -/
lemma besideAt_detect_iff (hsize : 1 ≤ size) (hpaths : (files.map SourceText.path).Nodup)
    (hf : f ∈ files) (hg : g ∈ files)
    (h : ReportedAt (detect files size keep) size f.path start spot) :
    BesideAt (detect files size keep) size spot g.path other ↔
      g.HasWindow size other ∧ g.hashAt size other = f.hashAt size start := by
  obtain ⟨i, hi⟩ := List.mem_iff_getElem?.1 hf
  obtain ⟨j, hj⟩ := List.mem_iff_getElem?.1 hg
  obtain ⟨r, o, hr, ho, he, hplace⟩ := (reportedAt_detect_iff hsize hpaths hi).1 h
  obtain ⟨group, hgroup, -, hstarts⟩ := exists_kept_of_window (List.mem_of_getElem? hr) he
  -- the group of the window that the spot points at has the hash of the window
  have hhash : f.hashAt size start = group.hash := by
    have hmem : (⟨i, start⟩ : Occurrence) ∈ group.starts := by
      rw [hstarts, ← hplace]
      exact List.mem_map_of_mem (List.mem_of_getElem? ho)
    obtain ⟨f', hf', -, hhash⟩ := hasWindow_of_mem_starts hgroup hmem
    obtain rfl : f = f' := Option.some.inj (hi.symm.trans hf')
    exact hhash
  have hbeside : BesideAt (detect files size keep) size spot g.path other ↔
      (⟨j, other⟩ : Occurrence) ∈ group.starts := by
    rw [hstarts, List.mem_map]
    constructor
    · rintro ⟨location, hlocation⟩
      obtain ⟨r', p, hr', hp, -, hother⟩ := (reportedAt_detect_iff hsize hpaths hj).1 hlocation
      obtain rfl : r = r' := Option.some.inj (hr.symm.trans hr')
      exact ⟨p, List.mem_of_getElem? hp, hother⟩
    · rintro ⟨p, hp, hother⟩
      obtain ⟨location, hlocation⟩ := List.mem_iff_getElem?.1 hp
      exact ⟨location, (reportedAt_detect_iff hsize hpaths hj).2 ⟨r, p, hr, hlocation, he, hother⟩⟩
  rw [hbeside, (mem_groups_iff.1 hgroup).1, mem_placesOf, mem_hashedWindows, hhash]
  constructor
  · rintro ⟨g', hg', hwindow, hhash'⟩
    obtain rfl : g = g' := Option.some.inj (hj.symm.trans hg')
    exact ⟨hwindow, hhash'⟩
  · rintro ⟨hwindow, hhash'⟩
    exact ⟨g, hj, hwindow, hhash'⟩

end Detect

end CodeAudit.Duplicate
