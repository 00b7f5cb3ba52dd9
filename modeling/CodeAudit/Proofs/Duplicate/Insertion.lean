import CodeAudit.Proofs.Duplicate.Reports
/-!
# A further file hides nothing

If a file is added to a list, the groups of the list grow: a window that was repeated across files
stays repeated, and all windows with its hash stay beside it. Blocks do not stay as they are, as the
new file may share a part of one only, and then the block is cut into several with different
places; but each of the windows of a block is found again, in one block with all places that it had.
-/
namespace CodeAudit.Duplicate

/--
The windows of some blocks are among other blocks, with the places that they had: those of the same
block as many lines below its other locations, and those of the listed files with the same lines.
-/
structure KeepsWindows (files : List SourceText) (size : Nat) (old new : List Block) : Prop where
  covered : ∀ file start spot, ReportedAt old size file start spot →
    ∃ spot', ReportedAt new size file start spot'
  together : ∀ file start spot spot', ReportedAt old size file start spot →
    ReportedAt new size file start spot' →
    ∀ file' start', BesideAt old size spot file' start' → BesideAt new size spot' file' start'
  alike : ∀ f, FirstListed files f → ∀ start spot spot', ReportedAt old size f.path start spot →
    ReportedAt new size f.path start spot' →
    ∀ g, FirstListed files g → ∀ start', start' + size ≤ g.lines.length →
      g.trimmed size start' = f.trimmed size start → BesideAt new size spot' g.path start'

section Insert

variable {before after : List SourceText} {added f : SourceText}

/-- A file that is added with a path of its own takes no other file's place. -/
lemma FirstListed.insert (hnew : ∀ f ∈ before ++ after, added.path.same f.path = false)
    (h : FirstListed (before ++ after) f) : FirstListed (before ++ added :: after) f := by
  obtain ⟨front, back, hsplit, hfront⟩ := h
  have hadded : f.path.same added.path = false := by
    rw [Path.same_comm]
    exact hnew f (hsplit ▸ List.mem_append_cons_self)
  have hbehind {rest : List SourceText} (hrest : front = before ++ rest) :
      ∀ g ∈ before ++ added :: rest, f.path.same g.path = false := by
    intro g hg
    obtain hg | hg := List.mem_append.1 hg
    · exact hfront g (hrest ▸ List.mem_append_left _ hg)
    · obtain rfl | hg := List.mem_cons.1 hg
      · exact hadded
      · exact hfront g (hrest ▸ List.mem_append_right _ hg)
  -- the file stands behind the place of the new one, or before it
  obtain ⟨rest, hrest, rfl⟩ | ⟨rest, rfl, hback⟩ := List.append_eq_append_iff.1 hsplit
  · exact ⟨before ++ added :: rest, back, by simp, hbehind hrest⟩
  · cases rest with
    | nil =>
      subst hback
      rw [List.append_nil] at hbehind ⊢
      exact ⟨front ++ [added], back, by simp, hbehind (List.append_nil front).symm⟩
    | cons g rest =>
      obtain ⟨rfl, rfl⟩ := List.cons.inj hback
      exact ⟨front, rest ++ added :: after, by simp, hfront⟩

/-- A new file takes no other one off the different ones. -/
lemma distinctFiles_subset_insert
    (hnew : ∀ f ∈ before ++ after, added.path.same f.path = false) :
    distinctFiles (before ++ after) ⊆ distinctFiles (before ++ added :: after) :=
  fun _ hf => mem_distinctFiles_iff.2 ((mem_distinctFiles_iff.1 hf).insert hnew)

end Insert

/-- If more files are kept, the windows that are reported across them are reported still. -/
lemma keepsWindows_of_subset {files more : List SourceText} {size : Nat} (hsize : 1 ≤ size)
    (hsub : distinctFiles files ⊆ distinctFiles more) :
    KeepsWindows files size (acrossFiles files size) (acrossFiles more size) := by
  have hpaths := distinctFiles_paths_nodup files
  have hpaths' := distinctFiles_paths_nodup more
  have hbeside {f g : SourceText} (hf : f ∈ distinctFiles files) (hg : g ∈ distinctFiles files)
      {start other : Nat} {spot' : Spot}
      (h : ReportedAt (acrossFiles more size) size f.path start spot')
      (hwindow : g.HasWindow size other) (hhash : g.hashAt size other = f.hashAt size start) :
      BesideAt (acrossFiles more size) size spot' g.path other :=
    (besideAt_detect_iff hsize hpaths' (hsub hf) (hsub hg) h).2 ⟨hwindow, hhash⟩
  constructor
  case covered =>
    intro file start spot h
    obtain ⟨f, hf, rfl⟩ := exists_file_of_reportedAt hsize hpaths h
    obtain ⟨hwindow, hkept⟩ := (exists_reportedAt_detect_iff hsize hpaths hf).1 ⟨spot, h⟩
    refine (exists_reportedAt_detect_iff hsize hpaths' (hsub hf)).2 ⟨hwindow, ?_⟩
    -- the two files that have the hash are among the files still
    rw [decide_eq_true_iff, two_le_fileCount_placesOf_iff (distinctFiles_nodup _)] at hkept ⊢
    obtain ⟨g, hg, k, hk, hwindows⟩ := hkept
    exact ⟨g, hsub hg, k, hsub hk, hwindows⟩
  case together =>
    intro file start spot spot' h h' file' start' hother
    obtain ⟨f, hf, rfl⟩ := exists_file_of_reportedAt hsize hpaths h
    obtain ⟨location, hlocation⟩ := hother
    obtain ⟨g, hg, rfl⟩ := exists_file_of_reportedAt hsize hpaths hlocation
    obtain ⟨hwindow, hhash⟩ := (besideAt_detect_iff hsize hpaths hf hg h).1 ⟨location, hlocation⟩
    exact hbeside hf hg h' hwindow hhash
  case alike =>
    intro f hf start spot spot' h h' g hg start' hfits htrimmed
    have hf' := mem_distinctFiles_iff.2 hf
    obtain ⟨hwindow, -⟩ := (exists_reportedAt_detect_iff hsize hpaths hf').1 ⟨spot, h⟩
    have hwindow' : g.HasWindow size start' := ⟨hfits, htrimmed ▸ hwindow.notBlank⟩
    exact hbeside hf' (mem_distinctFiles_iff.2 hg) h' hwindow' (hashAt_congr htrimmed)

/-- If a file with a path of its own is added anywhere in a list, every window that was reported
across the files is still reported, by a block that has it at all places where it was. -/
theorem acrossFiles_insert (before after : List SourceText) (added : SourceText) (size : Nat)
    (hsize : 1 ≤ size) (hnew : ∀ f ∈ before ++ after, added.path.same f.path = false) :
    KeepsWindows (before ++ after) size (acrossFiles (before ++ after) size)
      (acrossFiles (before ++ added :: after) size) :=
  keepsWindows_of_subset hsize (distinctFiles_subset_insert hnew)

/-- Two files have three lines in common, and both windows of these are kept if a third file has only
the last two of the lines. -/
theorem copiedLines_keepsWindows :
    let text : SourceText := ⟨⟨"a.ts"⟩, "p\nq\nr\n"⟩
    let copy : SourceText := ⟨⟨"b.ts"⟩, "p\nq\nr\n"⟩
    let part : SourceText := ⟨⟨"c.ts"⟩, "q\nr\n"⟩
    (1 ≤ 2 ∧ ∀ f ∈ [text] ++ [copy], part.path.same f.path = false) ∧
      (∀ start ≤ 1, ∃ spot,
        ReportedAt (acrossFiles ([text] ++ [copy]) 2) 2 text.path start spot) ∧
      KeepsWindows ([text] ++ [copy]) 2 (acrossFiles ([text] ++ [copy]) 2)
        (acrossFiles ([text] ++ part :: [copy]) 2) := by
  intro text copy part
  have hsize : 1 ≤ 2 := by decide
  have hnew : ∀ f ∈ [text] ++ [copy], part.path.same f.path = false := by decide +kernel
  refine ⟨⟨hsize, hnew⟩, ?_, acrossFiles_insert [text] [copy] part 2 hsize hnew⟩
  have hfirst : FirstListed [text, copy] text := ⟨[], _, rfl, fun g hg => absurd hg List.not_mem_nil⟩
  have hother : FirstListed [text, copy] copy := ⟨[text], [], rfl, by decide +kernel⟩
  intro start hstart
  have hrepeated : RepeatedAcross [text, copy] text 2 start := by
    obtain rfl | rfl : start = 0 ∨ start = 1 := by omega
    · exact ⟨⟨by decide +kernel, by decide +kernel⟩, copy, 0, hother, by decide +kernel⟩
    · exact ⟨⟨by decide +kernel, by decide +kernel⟩, copy, 1, hother, by decide +kernel⟩
  exact hrepeated.exists_reportedAt hsize hfirst

end CodeAudit.Duplicate
