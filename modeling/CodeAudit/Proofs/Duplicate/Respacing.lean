import CodeAudit.Proofs.Duplicate.Reports
/-!
# Blanks around lines do not count

Whether a window is looked at, what its hash is and where it stands depend on the trimmed lines of
the sources only. So sources that differ in their indentation, in the blanks at the ends of their
lines or in the way the lines end, and in nothing else, have the same blocks.
-/
namespace CodeAudit.Duplicate

/-- Sources of one path whose lines differ in the blanks around them only. -/
structure SourceText.Respaced (f g : SourceText) : Prop where
  path : f.path = g.path
  lines : List.Forall₂ (fun a b => Text.trim a = Text.trim b) f.lines g.lines

namespace SourceText.Respaced

variable {f g : SourceText} {size start : Nat}

/-- Files are respaced if they have one path and the same trimmed lines. -/
lemma iff_map_trim_eq :
    Respaced f g ↔ f.path = g.path ∧ f.lines.map Text.trim = g.lines.map Text.trim := by
  rw [← List.forall₂_eq_eq_eq, List.forall₂_map_left_iff, List.forall₂_map_right_iff]
  exact ⟨fun h => ⟨h.path, h.lines⟩, fun h => ⟨h.1, h.2⟩⟩

/-- Texts that are written row by row differ in blanks only if their rows do. -/
lemma of_rows (rows rows' : List Text.Line) (last last' : Text.Line) (hpath : f.path = g.path)
    (hf : f.source.toList = rows.flatMap (· ++ ['\n']) ++ last)
    (hg : g.source.toList = rows'.flatMap (· ++ ['\n']) ++ last')
    (hfeeds : ∀ row ∈ last :: rows, '\n' ∉ row) (hfeeds' : ∀ row ∈ last' :: rows', '\n' ∉ row)
    (hrows : (rows ++ if last = [] then [] else [last]).map Text.trim
      = (rows' ++ if last' = [] then [] else [last']).map Text.trim) : Respaced f g := by
  obtain ⟨hfeed, hfeeds⟩ := List.forall_mem_cons.1 hfeeds
  obtain ⟨hfeed', hfeeds'⟩ := List.forall_mem_cons.1 hfeeds'
  refine iff_map_trim_eq.2 ⟨hpath, ?_⟩
  rw [SourceText.lines, SourceText.lines, hf, hg, Text.map_trim_lines hfeeds hfeed,
    Text.map_trim_lines hfeeds' hfeed', hrows]

/-- Respaced files have the same trimmed windows. -/
lemma trimmed_eq (h : Respaced f g) : f.trimmed size start = g.trimmed size start := by
  rw [SourceText.trimmed_eq, SourceText.trimmed_eq, (iff_map_trim_eq.1 h).2]

/-- Respaced files have windows at the same places. -/
lemma hasWindow_iff (h : Respaced f g) : f.HasWindow size start ↔ g.HasWindow size start := by
  have hlength : f.lines.length = g.lines.length := h.lines.length_eq
  constructor
  · rintro ⟨fits, notBlank⟩
    exact ⟨hlength ▸ fits, h.trimmed_eq ▸ notBlank⟩
  · rintro ⟨fits, notBlank⟩
    exact ⟨hlength ▸ fits, h.trimmed_eq ▸ notBlank⟩

/-- Respaced files are scanned at the same places. -/
lemma scannedStarts_eq (h : Respaced f g) :
    scannedStarts f.lines size = scannedStarts g.lines size := by
  apply (scannedStarts_pairwise _ size).eq_of_mem_iff (scannedStarts_pairwise _ size)
  intro start
  rw [mem_scannedStarts, mem_scannedStarts, h.hasWindow_iff]

end SourceText.Respaced

section Lists

variable {files files' : List SourceText} {size : Nat}

/-- Respaced files have the same hashes at the same places. -/
lemma hashedWindows_respaced (h : List.Forall₂ SourceText.Respaced files files') :
    hashedWindows files size = hashedWindows files' size := by
  rw [hashedWindows, hashedWindows]
  -- the files are numbered from any number on, as the induction leaves the first one behind
  generalize 0 = first
  induction h generalizing first with
  | nil => rfl
  | @cons f g rest rest' hfg _ ih =>
    have hhead : ((scannedStarts f.lines size).map fun start =>
          (f.hashAt size start, (⟨first, start⟩ : Occurrence)))
        = (scannedStarts g.lines size).map fun start => (g.hashAt size start, ⟨first, start⟩) := by
      rw [hfg.scannedStarts_eq]
      apply List.map_congr_left
      intro start _
      rw [hashAt_congr hfg.trimmed_eq]
    rw [List.zipIdx_cons, List.zipIdx_cons, List.flatMap_cons, List.flatMap_cons, ih]
    exact congrArg (· ++ _) hhead

/-- The blocks depend on the paths of the files and on the hashes of their windows. -/
lemma detect_congr (hpaths : files.map SourceText.path = files'.map SourceText.path)
    (hwindows : hashedWindows files size = hashedWindows files' size) (keep : Group → Bool) :
    detect files size keep = detect files' size keep := by
  have hgroups : groups files size = groups files' size := by
    rw [groups, groups, hwindows]
  have hpath : pathAt files = pathAt files' := by
    funext index
    rw [pathAt, pathAt, ← List.getElem?_map, ← List.getElem?_map, hpaths]
  have hblock : Run.toBlock files size = Run.toBlock files' size := by
    funext r
    rw [Run.toBlock, Run.toBlock, hpath]
  rw [detect, detect, blocksOf, blocksOf, hgroups, hblock]

/-- Respaced files have the same blocks. -/
lemma detect_respaced (h : List.Forall₂ SourceText.Respaced files files') (keep : Group → Bool) :
    detect files size keep = detect files' size keep := by
  have hpaths : files.map SourceText.path = files'.map SourceText.path := by
    rw [← List.forall₂_eq_eq_eq, List.forall₂_map_left_iff, List.forall₂_map_right_iff]
    exact h.imp fun _ _ hfg => hfg.path
  exact detect_congr hpaths (hashedWindows_respaced h) keep

end Lists

/-- Sources that differ in the blanks around their lines only have the same blocks, with the same
hashes, in either pass and for windows of any size. -/
theorem detected_of_respaced (files files' : List SourceText) (size : Nat)
    (h : List.Forall₂ SourceText.Respaced files files') :
    List.Forall₂ (fun f g => withinFile f size = withinFile g size) files files' ∧
      acrossFiles files size = acrossFiles files' size := by
  constructor
  · exact h.imp fun f g hfg => detect_respaced (.cons hfg .nil) _
  · have hdistinct : List.Forall₂ SourceText.Respaced (distinctFiles files) (distinctFiles files') :=
      Path.firsts_forall₂ (fun _ _ hfg => hfg.path) h
    exact detect_respaced hdistinct _

/-- The periodic text indented and with carriage returns, but without its last line feed, has the blocks
that it had. -/
theorem periodicFiles_respaced :
    let respaced : List SourceText :=
      [⟨⟨"a.ts"⟩, "  p\r\n  q \r\n  p\r\n\tq\r\n  p"⟩, ⟨⟨"b.ts"⟩, "q\np\t\n"⟩, ⟨⟨"b.ts/"⟩, "p"⟩]
    List.Forall₂ SourceText.Respaced periodicFiles respaced ∧ acrossFiles periodicFiles 2 ≠ [] ∧
      List.Forall₂ (fun f g => withinFile f 2 = withinFile g 2) periodicFiles respaced ∧
      acrossFiles periodicFiles 2 = acrossFiles respaced 2 := by
  intro respaced
  have hrespaced : List.Forall₂ SourceText.Respaced periodicFiles respaced := by
    refine .cons ?_ (.cons ?_ (.cons ?_ .nil))
    · exact .of_rows [['p'], ['\t', 'q'], ['p'], ['q'], ['p']]
        [[' ', ' ', 'p', '\r'], [' ', ' ', 'q', ' ', '\r'], [' ', ' ', 'p', '\r'], ['\t', 'q', '\r']]
        [] [' ', ' ', 'p'] rfl (by decide +kernel) (by decide +kernel) (by decide) (by decide)
        (by decide +kernel)
    · exact .of_rows [['q']] [['q'], ['p', '\t']] [' ', ' ', 'p'] [] rfl (by decide +kernel)
        (by decide +kernel) (by decide) (by decide) (by decide +kernel)
    · exact SourceText.Respaced.iff_map_trim_eq.2 ⟨rfl, rfl⟩
  refine ⟨hrespaced, ?_, detected_of_respaced periodicFiles respaced 2 hrespaced⟩
  obtain ⟨f, hfirst, hrepeated⟩ := exists_repeatedAcross_periodicFiles
  obtain ⟨spot, b, l, hb, -⟩ := hrepeated.exists_reportedAt (by decide) hfirst
  exact List.ne_nil_of_mem (List.mem_of_getElem? hb)

end CodeAudit.Duplicate
