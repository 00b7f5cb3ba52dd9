import CodeAudit.Proofs.Duplicate.Reports
/-!
# A smaller window loses no line

Each line of a block lies in one of the block's windows, and a smaller window can be laid into that one
so that the line stays inside. The smaller window is not blank if the line is not, and it is repeated
wherever the larger one is; so it is reported, and the line is in a block again. The hash must not
collide on the larger windows, as the lines of windows with one hash may differ otherwise; collisions
on the smaller ones do no harm.
-/
namespace CodeAudit.Duplicate

/-- A line of a file, counted from one, lies in a location of some block. -/
def CoversLine (blocks : List Block) (file : Path) (line : Nat) : Prop :=
  ∃ b ∈ blocks, ∃ l ∈ b.locations, l.file = file ∧ l.startLine ≤ line ∧ line ≤ l.endLine

/-- The lines of a file that lie in some blocks and are not blank lie in the other blocks as well. -/
def LosesNoLine (f : SourceText) (blocks others : List Block) : Prop :=
  ∀ n line, f.lines[n]? = some line → Text.trim line ≠ [] →
    CoversLine blocks f.path (n + 1) → CoversLine others f.path (n + 1)

section Detect

variable {files : List SourceText} {size : Nat} {keep : Group → Bool}

/-- A location covers as many lines as its block has, and a window of the block at least. -/
lemma extent_of_mem_detect (hsize : 1 ≤ size) {b : Block} (hb : b ∈ detect files size keep)
    {l : Location} (hl : l ∈ b.locations) :
    size ≤ b.lines ∧ 1 ≤ l.startLine ∧ l.endLine + 1 = l.startLine + b.lines := by
  rw [detect_eq_map_runsOf hsize] at hb
  obtain ⟨r, -, rfl⟩ := List.mem_map.1 hb
  obtain ⟨o, -, rfl⟩ := List.mem_map.1 hl
  refine ⟨Nat.le_add_right _ _, Nat.succ_pos _, ?_⟩
  show o.start + size + r.extension + 1 = o.start + 1 + (size + r.extension)
  omega

/-- The lines of the blocks are those of the windows that are reported. -/
lemma coversLine_detect_iff (hsize : 1 ≤ size) {file : Path} {n : Nat} :
    CoversLine (detect files size keep) file (n + 1) ↔
      ∃ start, (start ≤ n ∧ n < start + size) ∧
        ∃ spot, ReportedAt (detect files size keep) size file start spot := by
  constructor
  · rintro ⟨b, hb, l, hl, hfile, hfirst, hlast⟩
    obtain ⟨hlong, hpos, hend⟩ := extent_of_mem_detect hsize hb hl
    obtain ⟨i, hi⟩ := List.mem_iff_getElem?.1 hb
    obtain ⟨j, hj⟩ := List.mem_iff_getElem?.1 hl
    -- the window that starts with the line, or the last one of the block
    obtain ⟨e, he, hbelow, habove⟩ : ∃ e, e + size ≤ b.lines ∧ l.startLine + e ≤ n + 1 ∧
        n + 1 < l.startLine + e + size := by
      obtain hlt | hle := Nat.lt_or_ge b.lines (n + 1 - l.startLine + size)
      · exact ⟨b.lines - size, by omega, by omega, by omega⟩
      · exact ⟨n + 1 - l.startLine, hle, by omega, by omega⟩
    refine ⟨l.startLine + e - 1, ⟨by omega, by omega⟩, ⟨i, j, e⟩, b, l, hi, hj, he, hfile, ?_⟩
    show l.startLine + e = l.startLine + e - 1 + 1
    omega
  · rintro ⟨start, ⟨hbelow, habove⟩, spot, b, l, hb, hl, hoffset, hfile, hstart⟩
    have hb' := List.mem_of_getElem? hb
    have hl' := List.mem_of_getElem? hl
    obtain ⟨hlong, hpos, hend⟩ := extent_of_mem_detect hsize hb' hl'
    exact ⟨b, hb', l, hl', hfile, by omega, by omega⟩

end Detect

section Windows

variable {files : List SourceText} {f : SourceText} {wide narrow start d n : Nat}

/-- The lines of a window are a part of those of a larger window around it. -/
lemma SourceText.trimmed_part (h : d + narrow ≤ wide) :
    f.trimmed narrow (start + d) = ((f.trimmed wide start).drop d).take narrow := by
  rw [trimmed_eq, trimmed_eq, List.drop_take, List.take_take, List.drop_drop,
    Nat.min_eq_left (Nat.le_sub_of_add_le' h)]

/-- A window that covers a line which is not blank can be searched for. -/
lemma SourceText.hasWindow_of_line {line : Text.Line} (hline : f.lines[n]? = some line)
    (hne : Text.trim line ≠ []) (hstart : start ≤ n) (hend : n < start + narrow)
    (hfits : start + narrow ≤ f.lines.length) : f.HasWindow narrow start where
  fits := hfits
  notBlank := by
    refine ⟨Text.trim line, List.mem_map_of_mem ?_, hne⟩
    apply List.mem_of_getElem? (i := n - start)
    rw [windowAt, List.getElem?_take_of_lt (by omega), List.getElem?_drop,
      Nat.add_sub_cancel' hstart, hline]

/-- A part of a window that is repeated in its file is repeated with it. -/
lemma RepeatedWithin.part (h : RepeatedWithin f wide start) (hpart : d + narrow ≤ wide)
    (hwindow : f.HasWindow narrow (start + d)) : RepeatedWithin f narrow (start + d) := by
  obtain ⟨-, other, hne, hfits, htrimmed⟩ := h
  refine ⟨hwindow, other + d, by omega, by omega, ?_⟩
  rw [SourceText.trimmed_part hpart, SourceText.trimmed_part hpart, htrimmed]

/-- A part of a window that is repeated across files is repeated across them. -/
lemma RepeatedAcross.part (h : RepeatedAcross files f wide start) (hpart : d + narrow ≤ wide)
    (hwindow : f.HasWindow narrow (start + d)) : RepeatedAcross files f narrow (start + d) := by
  obtain ⟨-, g, other, hg, hsame, hfits, htrimmed⟩ := h
  refine ⟨hwindow, g, other + d, hg, hsame, by omega, ?_⟩
  rw [SourceText.trimmed_part hpart, SourceText.trimmed_part hpart, htrimmed]

end Windows

/-- If the blocks cover the lines of the windows that are repeated, a smaller window loses none. -/
lemma losesNoLine_of_part {f : SourceText} {wide narrow : Nat} {blocks others : List Block}
    (repeated : Nat → Nat → Prop) (hnarrow : 1 ≤ narrow) (hle : narrow ≤ wide)
    (hwindow : ∀ start, repeated wide start → f.HasWindow wide start)
    (hpart : ∀ start d, repeated wide start → d + narrow ≤ wide →
      f.HasWindow narrow (start + d) → repeated narrow (start + d))
    (hwide : ∀ n, CoversLine blocks f.path (n + 1) →
      ∃ start, (start ≤ n ∧ n < start + wide) ∧ repeated wide start)
    (hothers : ∀ n start, start ≤ n ∧ n < start + narrow → repeated narrow start →
      CoversLine others f.path (n + 1)) :
    LosesNoLine f blocks others := by
  intro n line hline hne hcovers
  obtain ⟨start, ⟨hbelow, habove⟩, hrepeated⟩ := hwide n hcovers
  have hfits := (hwindow start hrepeated).fits
  -- the smaller window starts with the line, or ends where the larger one does
  obtain ⟨d, hd, hstart, hend⟩ : ∃ d, d + narrow ≤ wide ∧ start + d ≤ n ∧ n < start + d + narrow := by
    obtain hlt | hge := Nat.lt_or_ge wide (n - start + narrow)
    · exact ⟨wide - narrow, by omega, by omega, by omega⟩
    · exact ⟨n - start, hge, by omega, by omega⟩
  have hsmaller : f.HasWindow narrow (start + d) :=
    SourceText.hasWindow_of_line hline hne hstart hend (by omega)
  exact hothers n (start + d) ⟨hstart, hend⟩ (hpart start d hrepeated hd hsmaller)

/-- In either pass the lines that are not blank and lie in blocks found with a window lie in blocks
found with any smaller window. -/
theorem losesNoLine_of_narrower (files : List SourceText) (wide narrow : Nat) (hnarrow : 1 ≤ narrow)
    (hle : narrow ≤ wide) (apart : HashesApart files wide) :
    (∀ f ∈ files, LosesNoLine f (withinFile f wide) (withinFile f narrow)) ∧
      ∀ f, FirstListed files f → LosesNoLine f (acrossFiles files wide) (acrossFiles files narrow) := by
  have hwide : 1 ≤ wide := hnarrow.trans hle
  obtain ⟨hwithin, hacross⟩ := repeated_iff_reported_once files wide hwide apart
  constructor
  · intro f hf
    apply losesNoLine_of_part (RepeatedWithin f) hnarrow hle
    case hwindow => exact fun start h => h.1
    case hpart => exact fun start d h => h.part
    case hwide =>
      intro n hcovers
      obtain ⟨start, hn, hspot⟩ := (coversLine_detect_iff hwide).1 hcovers
      exact ⟨start, hn, ((hwithin f hf).reported f rfl start).2 hspot⟩
    case hothers =>
      exact fun n start hn h => (coversLine_detect_iff hnarrow).2 ⟨start, hn, h.exists_reportedAt hnarrow⟩
  · intro f hf
    apply losesNoLine_of_part (RepeatedAcross files f) hnarrow hle
    case hwindow => exact fun start h => h.1
    case hpart => exact fun start d h => h.part
    case hwide =>
      intro n hcovers
      obtain ⟨start, hn, hspot⟩ := (coversLine_detect_iff hwide).1 hcovers
      exact ⟨start, hn, (hacross.reported f hf start).2 hspot⟩
    case hothers =>
      exact fun n start hn h =>
        (coversLine_detect_iff hnarrow).2 ⟨start, hn, h.exists_reportedAt hnarrow hf⟩

/-- The lines of the periodic text that lie in blocks of two lines lie in blocks of one line. -/
theorem periodicFiles_losesNoLine :
    (1 ≤ 1 ∧ 1 ≤ 2 ∧ HashesApart periodicFiles 2) ∧
      (∃ f ∈ periodicFiles, CoversLine (withinFile f 2) f.path 5 ∧
        LosesNoLine f (withinFile f 2) (withinFile f 1)) ∧
      ∃ f, FirstListed periodicFiles f ∧ CoversLine (acrossFiles periodicFiles 2) f.path 3 ∧
        LosesNoLine f (acrossFiles periodicFiles 2) (acrossFiles periodicFiles 1) := by
  have hnarrow : 1 ≤ 1 := le_refl 1
  have hle : 1 ≤ 2 := by decide
  have apart : HashesApart periodicFiles 2 := periodicFiles_apart
  obtain ⟨hwithin, hacross⟩ := losesNoLine_of_narrower periodicFiles 2 1 hnarrow hle apart
  constructor
  · exact ⟨hnarrow, hle, apart⟩
  constructor
  · let text : SourceText := ⟨⟨"a.ts"⟩, "p\n\tq\np\nq\np\n"⟩
    have hmem : text ∈ periodicFiles := List.mem_cons_self
    have hrepeated : RepeatedWithin text 2 3 :=
      ⟨⟨by decide +kernel, by decide +kernel⟩, 1, by decide +kernel⟩
    refine ⟨text, hmem, ?_, hwithin text hmem⟩
    exact (coversLine_detect_iff hle).2 ⟨3, by decide, hrepeated.exists_reportedAt hle⟩
  · obtain ⟨f, hfirst, hrepeated⟩ := exists_repeatedAcross_periodicFiles
    refine ⟨f, hfirst, ?_, hacross f hfirst⟩
    exact (coversLine_detect_iff hle).2 ⟨1, by decide, hrepeated.exists_reportedAt hle hfirst⟩

end CodeAudit.Duplicate
