import CodeAudit.Proofs.Source.LineReader
import CodeAudit.Proofs.Text.Lines
/-!
# Blanks around lines and the sorts of lines

A marker without blanks starts at no blank and does not reach into the blanks behind a line. So a reader
passes over the blanks in front of a line without a trace and leaves the line as it would without the
blanks behind it: lines that are equal after trimming are of one sort, and sources that differ in the
blanks around their lines only have the same counts.
-/
namespace CodeAudit

/-- A text without blanks. -/
def Text.BlankFree (text : List Char) : Prop :=
  ∀ c ∈ text, ¬ Text.isBlank c = true

instance (text : List Char) : Decidable (Text.BlankFree text) :=
  decidable_of_iff (text.any Text.isBlank = false) List.any_eq_false

namespace Text.BlankFree

variable {marker text blanks : List Char} {c : Char}

/-- Something without blanks does not start at a blank. -/
lemma isPrefixOf_cons_of_blank (h : BlankFree marker) (hne : marker ≠ []) (hc : isBlank c = true)
    (rest : List Char) : marker.isPrefixOf (c :: rest) = false := by
  cases marker with
  | nil => exact absurd rfl hne
  | cons d marker =>
    have hd : (d == c) = false := by
      apply beq_eq_false_iff_ne.2
      rintro rfl
      exact h d List.mem_cons_self hc
    rw [List.isPrefixOf_cons_cons, hd, Bool.false_and]

/-- Something without blanks does not reach into the blanks behind a text. -/
lemma isPrefixOf_append_blanks (h : BlankFree marker) (hblanks : isBlankLine blanks = true)
    (text : List Char) : marker.isPrefixOf (text ++ blanks) = marker.isPrefixOf text := by
  induction text generalizing marker with
  | nil =>
    cases marker with
    | nil => rw [List.isPrefixOf_nil_left, List.isPrefixOf_nil_left]
    | cons d marker =>
      cases blanks with
      | nil => rfl
      | cons c rest =>
        rw [isBlankLine, List.all_cons, Bool.and_eq_true] at hblanks
        exact h.isPrefixOf_cons_of_blank (List.cons_ne_nil d marker) hblanks.1 rest
  | cons c rest ih =>
    cases marker with
    | nil => rw [List.isPrefixOf_nil_left, List.isPrefixOf_nil_left]
    | cons d marker =>
      have hmarker : BlankFree marker := fun e he => h e (List.mem_cons_of_mem d he)
      rw [List.cons_append, List.isPrefixOf_cons_cons, List.isPrefixOf_cons_cons, ih hmarker]

end Text.BlankFree

/-- No marker is empty, and neither in the markers nor among the quotes there is a blank. -/
structure CommentStyle.BlankFree (style : CommentStyle) : Prop extends style.Marked where
  lineBlankFree : Text.BlankFree style.lineMarker
  openingBlankFree : ∀ markers, style.block = some markers → Text.BlankFree markers.opening
  closingBlankFree : ∀ markers, style.block = some markers → Text.BlankFree markers.closing
  quotesBlankFree : Text.BlankFree style.quotes

/-- The markers of each language have no blanks. -/
lemma Language.blankFree_commentStyle (language : Language) : language.commentStyle.BlankFree := by
  have star : ∀ markers, some Language.starMarkers = some markers →
      Text.BlankFree markers.opening ∧ Text.BlankFree markers.closing := by
    intro markers h
    cases h
    exact ⟨by decide +kernel, by decide +kernel⟩
  have hline : Text.BlankFree language.commentStyle.lineMarker := by
    cases language <;> decide +kernel
  have hquotes : Text.BlankFree language.commentStyle.quotes := by
    cases language <;> decide +kernel
  refine ⟨language.marked_commentStyle, hline, ?_, ?_, hquotes⟩
  · intro markers h
    cases language with
    | python => exact absurd h.symm (Option.some_ne_none markers)
    | typescript | tsx | javascript | rust | go => exact (star markers h).1
  · intro markers h
    cases language with
    | python => exact absurd h.symm (Option.some_ne_none markers)
    | typescript | tsx | javascript | rust | go => exact (star markers h).2

namespace LineReader

variable {style : CommentStyle} {blanks : Text.Line}

/-- A blank of the code leaves no trace. -/
lemma readCode_blank (free : style.BlankFree) (hasCode : Bool) {c : Char}
    (hc : Text.isBlank c = true) (rest : List Char) :
    readCode style hasCode c rest = ⟨.code, 0, hasCode⟩ := by
  have hquote : c ∉ style.quotes := fun hmem => free.quotesBlankFree c hmem hc
  have hline : style.lineMarker.isPrefixOf (c :: rest) = false :=
    free.lineBlankFree.isPrefixOf_cons_of_blank free.line hc rest
  rw [readCode, if_neg hquote, hline, if_neg Bool.false_ne_true, hc]
  cases hblock : style.block with
  | none => rw [Bool.not_true, Bool.or_false]
  | some markers =>
    have hopening : markers.opening.isPrefixOf (c :: rest) = false :=
      (free.openingBlankFree markers hblock).isPrefixOf_cons_of_blank (free.opening markers hblock)
        hc rest
    dsimp only
    rw [hopening, if_neg Bool.false_ne_true, Bool.not_true, Bool.or_false]

/-- A blank in a block is passed over. -/
lemma readBlock_blank (free : style.BlankFree) (hasCode : Bool) {c : Char}
    (hc : Text.isBlank c = true) (rest : List Char) :
    readBlock style hasCode c rest = ⟨.block, 0, hasCode⟩ := by
  rw [readBlock]
  cases hblock : style.block with
  | none => rfl
  | some markers =>
    have hclosing : markers.closing.isPrefixOf (c :: rest) = false :=
      (free.closingBlankFree markers hblock).isPrefixOf_cons_of_blank (free.closing markers hblock)
        hc rest
    dsimp only
    rw [hclosing, if_neg Bool.false_ne_true]

/-- A blank at the start of a line leaves no trace. -/
lemma read_start_blank (free : style.BlankFree) (inBlock : Bool) {c : Char}
    (hc : Text.isBlank c = true) (rest : List Char) :
    (start inBlock).read style c rest = start inBlock := by
  cases inBlock with
  | false => exact readCode_blank free false hc rest
  | true => exact readBlock_blank free false hc rest

/-- The blanks in front of a line are passed over. -/
lemma run_start_blanks (free : style.BlankFree) (inBlock : Bool)
    (hblanks : Text.isBlankLine blanks = true) (text : Text.Line) :
    (start inBlock).run style (blanks ++ text) = (start inBlock).run style text := by
  induction blanks with
  | nil => rfl
  | cons c rest ih =>
    rw [Text.isBlankLine, List.all_cons, Bool.and_eq_true] at hblanks
    rw [List.cons_append, run, read_start_blank free inBlock hblanks.1]
    exact ih hblanks.2

/-- A blank ends no line differently: it is no code, and neither opens nor closes a block comment. -/
lemma lineEnd_read_blank (free : style.BlankFree) {s : LineReader} (hskip : s.skip = 0) {c : Char}
    (hc : Text.isBlank c = true) (rest : List Char) :
    (s.read style c rest).skip = 0 ∧ (s.read style c rest).lineEnd = s.lineEnd := by
  obtain ⟨mode, skip, hasCode⟩ := s
  dsimp only at hskip
  subst hskip
  cases mode with
  | code =>
    have hread : read style ⟨.code, 0, hasCode⟩ c rest = ⟨.code, 0, hasCode⟩ :=
      readCode_blank free hasCode hc rest
    exact ⟨congrArg skip hread, congrArg lineEnd hread⟩
  | block =>
    have hread : read style ⟨.block, 0, hasCode⟩ c rest = ⟨.block, 0, hasCode⟩ :=
      readBlock_blank free hasCode hc rest
    exact ⟨congrArg skip hread, congrArg lineEnd hread⟩
  | comment => exact ⟨rfl, rfl⟩
  | quoted quote escaped =>
    -- the span may end or go on with a blank, but what it is in stays outside of block comments
    have hread : read style ⟨.quoted quote escaped, 0, hasCode⟩ c rest
        = ⟨modeOf (Quoting.next quote escaped c), 0, hasCode⟩ := by
      have hquoted := readQuoted_eq quote escaped hasCode c
      rw [hc, Bool.not_true, Bool.or_false] at hquoted
      exact hquoted
    rw [hread]
    refine ⟨rfl, ?_⟩
    cases Quoting.next quote escaped c with
    | outside => rfl
    | inside quote escaped => rfl

/-- Blanks at the end of a line do not change how it ends. -/
lemma lineEnd_run_blanks (free : style.BlankFree) {s : LineReader} (hskip : s.skip = 0)
    (hblanks : Text.isBlankLine blanks = true) : (s.run style blanks).lineEnd = s.lineEnd := by
  induction blanks generalizing s with
  | nil => rfl
  | cons c rest ih =>
    rw [Text.isBlankLine, List.all_cons, Bool.and_eq_true] at hblanks
    obtain ⟨hnext, hend⟩ := lineEnd_read_blank free hskip hblanks.1 rest
    rw [run, ih hnext hblanks.2, hend]

/-- What is read of a character does not depend on the blanks behind the line. -/
lemma read_append_blanks (free : style.BlankFree) (s : LineReader) (c : Char) (text : Text.Line)
    (hblanks : Text.isBlankLine blanks = true) :
    s.read style c (text ++ blanks) = s.read style c text := by
  have hstarts {marker : List Char} (h : Text.BlankFree marker) :
      marker.isPrefixOf (c :: (text ++ blanks)) = marker.isPrefixOf (c :: text) :=
    h.isPrefixOf_append_blanks hblanks (c :: text)
  obtain ⟨mode, skip, hasCode⟩ := s
  cases skip with
  | succ k => rfl
  | zero =>
    cases mode with
    | code =>
      show readCode style hasCode c (text ++ blanks) = readCode style hasCode c text
      rw [readCode, readCode, hstarts free.lineBlankFree]
      cases hblock : style.block with
      | none => rfl
      | some markers =>
        dsimp only
        rw [hstarts (free.openingBlankFree markers hblock)]
    | quoted quote escaped => rfl
    | block =>
      show readBlock style hasCode c (text ++ blanks) = readBlock style hasCode c text
      rw [readBlock, readBlock]
      cases hblock : style.block with
      | none => rfl
      | some markers =>
        dsimp only
        rw [hstarts (free.closingBlankFree markers hblock)]
    | comment => rfl

/-- A marker that has been met ends on the line. -/
lemma skip_read_le {s : LineReader} {c : Char} {text : Text.Line}
    (h : s.skip ≤ (c :: text).length) : (s.read style c text).skip ≤ text.length := by
  have hmarker {marker : List Char} (hstarts : marker.isPrefixOf (c :: text) = true) :
      marker.length - 1 ≤ text.length :=
    Nat.sub_le_of_le_add (List.isPrefixOf_iff_prefix.1 hstarts).length_le
  obtain ⟨mode, skip, hasCode⟩ := s
  cases skip with
  | succ k => exact Nat.le_of_succ_le_succ h
  | zero =>
    cases mode with
    | code =>
      show (readCode style hasCode c text).skip ≤ text.length
      rw [readCode]
      split
      · exact Nat.zero_le _
      · split
        · exact Nat.zero_le _
        · split
          · exact Nat.zero_le _
          · split
            · next hstarts => exact hmarker hstarts
            · exact Nat.zero_le _
    | quoted quote escaped => exact Nat.zero_le _
    | block =>
      show (readBlock style hasCode c text).skip ≤ text.length
      rw [readBlock]
      split
      · exact Nat.zero_le _
      · split
        · next hstarts => exact hmarker hstarts
        · exact Nat.zero_le _
    | comment => exact Nat.zero_le _

/-- The blanks behind a line do not change what the line comes to. -/
lemma lineEnd_run_append_blanks (free : style.BlankFree) {s : LineReader} {text : Text.Line}
    (hskip : s.skip ≤ text.length) (hblanks : Text.isBlankLine blanks = true) :
    (s.run style (text ++ blanks)).lineEnd = (s.run style text).lineEnd := by
  induction text generalizing s with
  | nil => exact lineEnd_run_blanks free (Nat.le_zero.1 hskip) hblanks
  | cons c rest ih =>
    rw [List.cons_append, run, run, read_append_blanks free s c rest hblanks]
    exact ih (skip_read_le hskip)

end LineReader

namespace LineSort

variable {style : CommentStyle}

/-- A line is of the sort that it is of after trimming. -/
lemma ofLine_trim (free : style.BlankFree) (inBlock : Bool) (line : Text.Line) :
    ofLine style inBlock (Text.trim line) = ofLine style inBlock line := by
  obtain ⟨front, back, hfront, hback, hline⟩ := Text.exists_eq_append_trim_append line
  generalize Text.trim line = kept at hline
  subst hline
  have hblank : (front ++ (kept ++ back)).all Text.isBlank = kept.all Text.isBlank := by
    rw [Text.isBlankLine] at hfront hback
    rw [List.all_append, List.all_append, hfront, hback, Bool.true_and, Bool.and_true]
  have hend : ((LineReader.start inBlock).run style (front ++ (kept ++ back))).lineEnd
      = ((LineReader.start inBlock).run style kept).lineEnd := by
    rw [LineReader.run_start_blanks free inBlock hfront]
    exact LineReader.lineEnd_run_append_blanks free (Nat.zero_le _) hback
  rw [ofLine, ofLine, hblank, hend]

/-- The sorts of lines depend on the trimmed lines only. -/
lemma ofLines_map_trim (free : style.BlankFree) (inBlock : Bool) (lines : List Text.Line) :
    ofLines style inBlock (lines.map Text.trim) = ofLines style inBlock lines := by
  induction lines generalizing inBlock with
  | nil => rfl
  | cons line more ih => rw [List.map_cons, ofLines, ofLines, ofLine_trim free, ih]

end LineSort

namespace LineCounts

/-- The counts of a source depend on its trimmed lines only, for every style without blanks in its
markers and quotes, as those of the languages are. -/
theorem ofSource_respaced :
    (∀ language : Language, language.commentStyle.BlankFree) ∧
    ∀ style : CommentStyle, style.BlankFree → ∀ source source' : String,
      List.Forall₂ (fun a b => Text.trim a = Text.trim b) (Text.lines source.toList)
        (Text.lines source'.toList) →
      ofSource style source = ofSource style source' := by
  refine ⟨Language.blankFree_commentStyle, ?_⟩
  intro style free source source' h
  have htrim : (Text.lines source.toList).map Text.trim = (Text.lines source'.toList).map Text.trim := by
    rw [← List.forall₂_eq_eq_eq, List.forall₂_map_left_iff, List.forall₂_map_right_iff]
    exact h
  have hsorts : LineSort.ofLines style false (Text.lines source.toList)
      = LineSort.ofLines style false (Text.lines source'.toList) := by
    rw [← LineSort.ofLines_map_trim free, htrim, LineSort.ofLines_map_trim free]
  have hcounts (lines : List Text.Line) :
      ofLines style lines = plus {} (ofSorts (LineSort.ofLines style false lines)) :=
    foldl_addLine free.toMarked lines {} (fun h => absurd h Bool.false_ne_true)
  rw [ofSource, ofSource, hcounts, hcounts, hsorts]

/-- A source with a comment over several lines and with quotes, indented anew, with other blanks at the
ends of its lines and with carriage returns. -/
theorem ofSource_respaced_tricky :
    let source := "s = \"a\\\" /* b\"; /* c\n\n d */ t()\n\t// u \"\n v /*\n*/ 'w\\"
    let source' := "\t s = \"a\\\" /* b\"; /* c\r\n \x0c \r\nd */ t() \r\n// u \"\t\r\nv /*\r\n  */ 'w\\ \r\n"
    let style := Language.typescript.commentStyle
    style.BlankFree ∧
      List.Forall₂ (fun a b => Text.trim a = Text.trim b) (Text.lines source.toList)
        (Text.lines source'.toList) ∧
      ofSource style source = ofSource style source' := by
  intro source source' style
  obtain ⟨hstyle, hcounts⟩ := ofSource_respaced
  have hlines : List.Forall₂ (fun a b => Text.trim a = Text.trim b) (Text.lines source.toList)
      (Text.lines source'.toList) := by
    decide +kernel
  exact ⟨hstyle .typescript, hlines, hcounts style (hstyle .typescript) source source' hlines⟩

end LineCounts

end CodeAudit
