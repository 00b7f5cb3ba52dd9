import CodeAudit.Duplicate.Group
import CodeAudit.Proofs.List
import CodeAudit.Proofs.Text.Lines
/-!
# Windows and their hashes

Which windows of a source are looked at, and what their hashes tell: windows with the same trimmed
lines have one hash, and windows with one hash have the same trimmed lines as long as the hash does
not collide on the texts of the windows at hand.
-/
namespace CodeAudit.Duplicate

namespace SourceText

/-- The lines of a source. -/
def lines (f : SourceText) : List Text.Line :=
  Text.lines f.source.toList

/-- The trimmed lines of the window of `size` lines that starts at `start`. -/
def trimmed (f : SourceText) (size start : Nat) : List Text.Line :=
  (windowAt f.lines size start).map Text.trim

/-- The hash of the window of `size` lines that starts at `start`. -/
def hashAt (f : SourceText) (size start : Nat) : String :=
  windowHash (windowAt f.lines size start)

/-- There is a window of `size` lines at `start`, and not all of its lines are blank. -/
structure HasWindow (f : SourceText) (size start : Nat) : Prop where
  fits : start + size ≤ f.lines.length
  notBlank : ∃ line ∈ f.trimmed size start, line ≠ []

end SourceText

/-- The texts of all windows of `size` lines in some files. -/
def windowTexts (files : List SourceText) (size : Nat) : List (List Char) :=
  files.flatMap fun f =>
    (windowStarts f.lines size).map fun start => windowText (windowAt f.lines size start)

/-- The hash does not collide on the texts of the windows of `size` lines in some files. -/
def HashesApart (files : List SourceText) (size : Nat) : Prop :=
  ∀ x ∈ windowTexts files size, ∀ y ∈ windowTexts files size,
    Blake3.hashText x = Blake3.hashText y → x = y

/-- Fewer files have fewer texts to collide. -/
lemma HashesApart.subset {files more : List SourceText} {size : Nat} (h : HashesApart more size)
    (hsub : files ⊆ more) : HashesApart files size := by
  have htexts : windowTexts files size ⊆ windowTexts more size := by
    intro x hx
    obtain ⟨f, hf, hx⟩ := List.mem_flatMap.1 hx
    exact List.mem_flatMap.2 ⟨f, hsub hf, hx⟩
  exact fun x hx y hy => h x (htexts hx) y (htexts hy)

/-- A window starts where there are enough lines. -/
lemma mem_windowStarts {lines : List Text.Line} {size start : Nat} :
    start ∈ windowStarts lines size ↔ start + size ≤ lines.length := by
  rw [windowStarts]
  split
  · simp only [List.not_mem_nil, false_iff]
    omega
  · rw [List.mem_range]
    omega

/-- A window that fits has all of its lines. -/
lemma length_trimmed {f : SourceText} {size start : Nat} (h : start + size ≤ f.lines.length) :
    (f.trimmed size start).length = size := by
  rw [SourceText.trimmed, List.length_map, windowAt, List.length_take, List.length_drop]
  omega

/-- The trimmed lines of a window have no line feeds. -/
lemma feed_not_mem_trimmed {f : SourceText} {size start : Nat} {line : Text.Line}
    (h : line ∈ f.trimmed size start) : '\n' ∉ line := by
  obtain ⟨whole, hwhole, rfl⟩ := List.mem_map.1 h
  have hlines : whole ∈ f.lines := List.mem_of_mem_drop (List.mem_of_mem_take hwhole)
  exact fun hfeed => Text.feed_not_mem_of_mem_lines hlines (Text.mem_of_mem_trim hfeed)

/-- The windows that are looked at are those that fit and are not blank. -/
lemma mem_scannedStarts {f : SourceText} {size start : Nat} :
    start ∈ scannedStarts f.lines size ↔ f.HasWindow size start := by
  have hblank : (windowAt f.lines size start).all Text.isBlankLine = false
      ↔ ∃ line ∈ f.trimmed size start, line ≠ [] := by
    rw [List.all_eq_false, SourceText.trimmed]
    simp only [List.mem_map, ne_eq, exists_exists_and_eq_and, Text.trim_eq_nil_iff]
  rw [scannedStarts, List.mem_filter, mem_windowStarts, Bool.not_eq_true', hblank]
  exact ⟨fun ⟨fits, notBlank⟩ => ⟨fits, notBlank⟩, fun ⟨fits, notBlank⟩ => ⟨fits, notBlank⟩⟩

/-- No window is looked at twice. -/
lemma scannedStarts_nodup (lines : List Text.Line) (size : Nat) :
    (scannedStarts lines size).Nodup := by
  rw [scannedStarts, windowStarts]
  split
  · exact List.nodup_nil
  · exact List.nodup_range.filter _

/-- The windows are looked at from the first line on. -/
lemma scannedStarts_pairwise (lines : List Text.Line) (size : Nat) :
    (scannedStarts lines size).Pairwise (· < ·) := by
  rw [scannedStarts, windowStarts]
  apply List.Pairwise.filter
  split
  · exact List.Pairwise.nil
  · exact List.pairwise_lt_range

/-- The hash of a window is that of its trimmed lines. -/
lemma hashAt_congr {f g : SourceText} {size s t : Nat} (h : f.trimmed size s = g.trimmed size t) :
    f.hashAt size s = g.hashAt size t :=
  congrArg (fun lines => Blake3.hashText (List.intercalate ['\n'] lines)) h

/-- Windows have one hash exactly if they have the same trimmed lines, if no hashes collide. -/
lemma hashAt_eq_iff {files : List SourceText} {size : Nat} (apart : HashesApart files size)
    {f g : SourceText} (hf : f ∈ files) (hg : g ∈ files) {s t : Nat}
    (hs : s + size ≤ f.lines.length) (ht : t + size ≤ g.lines.length) :
    f.hashAt size s = g.hashAt size t ↔ f.trimmed size s = g.trimmed size t := by
  have htext {f : SourceText} (hf : f ∈ files) {s : Nat} (hs : s + size ≤ f.lines.length) :
      windowText (windowAt f.lines size s) ∈ windowTexts files size :=
    List.mem_flatMap.2 ⟨f, hf, List.mem_map.2 ⟨s, mem_windowStarts.2 hs, rfl⟩⟩
  constructor
  · intro h
    apply Text.intercalate_feed_injective
    · exact fun _ => feed_not_mem_trimmed
    · exact fun _ => feed_not_mem_trimmed
    · rw [length_trimmed hs, length_trimmed ht]
    · exact apart _ (htext hf hs) _ (htext hg ht) h
  · exact hashAt_congr

end CodeAudit.Duplicate
