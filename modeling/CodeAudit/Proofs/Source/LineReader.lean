import CodeAudit.Source.LineCount
import Mathlib
/-!
# Lines read one character at a time

A line can be read from its first character to its last one, with a mode that says what the next
character belongs to. The scan that jumps from marker to marker comes to the same end, so the lines of
a source are sorted as this reader sorts them.
-/
namespace CodeAudit

/-- What a character of a line belongs to. -/
inductive ReadingMode where
  | code
  /-- A quoted span; `escaped` right after a backslash. -/
  | quoted (quote : Char) (escaped : Bool)
  | block
  /-- A comment up to the end of the line. -/
  | comment
deriving DecidableEq, Repr

/-- How far a line has been read. -/
structure LineReader where
  mode : ReadingMode
  /-- The characters of a marker that are still to be passed over. -/
  skip : Nat
  /-- A character that is not blank has been read as code or in a quoted span. -/
  hasCode : Bool
deriving DecidableEq, Repr

namespace LineReader

/-- A reader at the start of a line. -/
def start (inBlock : Bool) : LineReader :=
  ⟨if inBlock then .block else .code, 0, false⟩

/-- What a line comes to when its reader has got to its end: only a block comment stays open. -/
def lineEnd (s : LineReader) : CommentStyle.LineEnd :=
  ⟨s.hasCode, s.mode = .block⟩

/-- Reads a character of the code; `rest` is what follows it on the line. -/
def readCode (style : CommentStyle) (hasCode : Bool) (c : Char) (rest : List Char) : LineReader :=
  if c ∈ style.quotes then ⟨.quoted c false, 0, hasCode || !Text.isBlank c⟩
  else if style.lineMarker.isPrefixOf (c :: rest) then ⟨.comment, 0, hasCode⟩
  else
    match style.block with
    | none => ⟨.code, 0, hasCode || !Text.isBlank c⟩
    | some markers =>
      if markers.opening.isPrefixOf (c :: rest) then ⟨.block, markers.opening.length - 1, hasCode⟩
      else ⟨.code, 0, hasCode || !Text.isBlank c⟩

/-- Reads a character in a quoted span. -/
def readQuoted (quote : Char) (escaped hasCode : Bool) (c : Char) : LineReader :=
  let mode :=
    if escaped then .quoted quote false
    else if c = '\\' then .quoted quote true
    else if c = quote then .code
    else .quoted quote false
  ⟨mode, 0, hasCode || !Text.isBlank c⟩

/-- Reads a character of a block comment. -/
def readBlock (style : CommentStyle) (hasCode : Bool) (c : Char) (rest : List Char) : LineReader :=
  match style.block with
  | none => ⟨.block, 0, hasCode⟩
  | some markers =>
    if markers.closing.isPrefixOf (c :: rest) then ⟨.code, markers.closing.length - 1, hasCode⟩
    else ⟨.block, 0, hasCode⟩

/-- Reads a character, which is passed over if it belongs to a marker that has been met. -/
def read (style : CommentStyle) (s : LineReader) (c : Char) (rest : List Char) : LineReader :=
  match s.skip with
  | k + 1 => { s with skip := k }
  | 0 =>
    match s.mode with
    | .code => readCode style s.hasCode c rest
    | .quoted quote escaped => readQuoted quote escaped s.hasCode c
    | .block => readBlock style s.hasCode c rest
    | .comment => s

def run (style : CommentStyle) (s : LineReader) : List Char → LineReader
  | [] => s
  | c :: rest => run style (s.read style c rest) rest

end LineReader

inductive LineSort where
  | code
  | comment
  | blank
deriving DecidableEq, Repr

namespace LineSort

/-- The sort of a line, and whether a block comment is open after it. A blank line is not read. -/
def ofLine (style : CommentStyle) (inBlock : Bool) (line : Text.Line) : LineSort × Bool :=
  if line.all Text.isBlank then (blank, inBlock)
  else
    let done := ((LineReader.start inBlock).run style line).lineEnd
    (if done.hasCode then code else comment, done.inBlock)

/-- The sorts of some lines, one after the other. -/
def ofLines (style : CommentStyle) (inBlock : Bool) : List Text.Line → List LineSort
  | [] => []
  | line :: more =>
    (ofLine style inBlock line).1 :: ofLines style (ofLine style inBlock line).2 more

/-- Each line is sorted. -/
lemma length_ofLines (style : CommentStyle) (inBlock : Bool) (lines : List Text.Line) :
    (ofLines style inBlock lines).length = lines.length := by
  induction lines generalizing inBlock with
  | nil => rfl
  | cons line more ih => exact congrArg (· + 1) (ih _)

end LineSort

/-- No marker of the style is empty. -/
structure CommentStyle.Marked (style : CommentStyle) : Prop where
  line : style.lineMarker ≠ []
  opening : ∀ markers, style.block = some markers → markers.opening ≠ []
  closing : ∀ markers, style.block = some markers → markers.closing ≠ []

/-- No marker of a language is empty. -/
lemma Language.marked_commentStyle (language : Language) : language.commentStyle.Marked := by
  have star : ∀ markers, some Language.starMarkers = some markers →
      markers.opening ≠ [] ∧ markers.closing ≠ [] := by
    intro markers h
    cases h
    exact ⟨List.cons_ne_nil _ _, List.cons_ne_nil _ _⟩
  cases language with
  | python =>
    have hnone : Language.python.commentStyle.block = none := rfl
    constructor
    case line => exact List.cons_ne_nil _ _
    case opening => exact fun m h => absurd (h.symm.trans hnone) (Option.some_ne_none m)
    case closing => exact fun m h => absurd (h.symm.trans hnone) (Option.some_ne_none m)
  | typescript | tsx | javascript | rust | go =>
    exact ⟨List.cons_ne_nil _ _, fun m h => (star m h).1, fun m h => (star m h).2⟩

namespace LineReader

variable {style : CommentStyle}

/-- A reader that is to pass over some characters goes on after them. -/
lemma run_skip (mode : ReadingMode) (hasCode : Bool) {skip : Nat} {text : List Char}
    (h : skip ≤ text.length) :
    run style ⟨mode, skip, hasCode⟩ text = run style ⟨mode, 0, hasCode⟩ (text.drop skip) := by
  induction text generalizing skip with
  | nil =>
    rw [Nat.le_zero.1 h]
    rfl
  | cons c rest ih =>
    cases skip with
    | zero => rfl
    | succ skip =>
      rw [List.drop_succ_cons, ← ih (Nat.le_of_succ_le_succ h)]
      rfl

/-- What is left of a line that starts with a marker, once its first character has been read. -/
lemma run_marker (mode : ReadingMode) (hasCode : Bool) {marker : List Char} {c : Char}
    {rest : List Char} (hne : marker ≠ []) (h : marker.isPrefixOf (c :: rest) = true) :
    run style ⟨mode, marker.length - 1, hasCode⟩ rest
      = run style ⟨mode, 0, hasCode⟩ ((c :: rest).drop marker.length) := by
  have hlength : marker.length ≤ rest.length + 1 := (List.isPrefixOf_iff_prefix.1 h).length_le
  cases marker with
  | nil => exact absurd rfl hne
  | cons d marker =>
    rw [List.length_cons] at hlength
    exact run_skip mode hasCode (Nat.le_of_succ_le_succ hlength)

/-- In a comment nothing is read any more. -/
lemma run_comment (hasCode : Bool) (text : List Char) :
    run style ⟨.comment, 0, hasCode⟩ text = ⟨.comment, 0, hasCode⟩ := by
  induction text with
  | nil => rfl
  | cons c rest ih => exact ih

/-- In a block comment a line is read up to the end of the first closing marker. -/
lemma run_block (marked : style.Marked) {markers : BlockMarkers} (hblock : style.block = some markers)
    (hasCode : Bool) (text : List Char) :
    run style ⟨.block, 0, hasCode⟩ text =
      match CommentStyle.after? markers.closing text with
      | none => ⟨.block, 0, hasCode⟩
      | some rest => run style ⟨.code, 0, hasCode⟩ rest := by
  have hne : markers.closing ≠ [] := marked.closing markers hblock
  induction text with
  | nil =>
    have hnot : markers.closing.isPrefixOf [] = false := by
      cases hclosing : markers.closing with
      | nil => exact absurd hclosing hne
      | cons d closing => rfl
    rw [CommentStyle.after?, hnot]
    rfl
  | cons c rest ih =>
    have hread : read style ⟨.block, 0, hasCode⟩ c rest = readBlock style hasCode c rest := rfl
    rw [run, hread, readBlock, hblock, CommentStyle.after?]
    dsimp only
    split
    · next hprefix => exact run_marker .code hasCode hne hprefix
    · exact ih

/-- Where a reader stands that is among the quoted spans at the given place. -/
def modeOf : Quoting → ReadingMode
  | .outside => .code
  | .inside quote escaped => .quoted quote escaped

/-- What is read in a quote depends on whether it is over. -/
lemma readQuoted_eq (quote : Char) (escaped hasCode : Bool) (c : Char) :
    readQuoted quote escaped hasCode c
      = ⟨modeOf (Quoting.next quote escaped c), 0, hasCode || !Text.isBlank c⟩ := by
  rw [readQuoted, Quoting.next]
  split
  · rfl
  · split
    · rfl
    · split
      · rfl
      · rfl

/-- The end of a line whose text has been cut at the first marker outside of quotes. -/
def endOfCut (style : CommentStyle) (hasCode : Bool) (text : List Char) :
    Option CommentStyle.Cut → CommentStyle.LineEnd
  | none => ⟨hasCode || !Text.isBlankLine text, false⟩
  | some ⟨before, .line, _⟩ => ⟨hasCode || !Text.isBlankLine before, false⟩
  | some ⟨before, .block, rest⟩ =>
    (run style ⟨.block, 0, hasCode || !Text.isBlankLine before⟩ rest).lineEnd

/-- A character before the cut counts as code unless it is blank. -/
lemma endOfCut_cons (hasCode : Bool) (c : Char) (text : List Char) (cut : Option CommentStyle.Cut) :
    endOfCut style hasCode (c :: text) (cut.map fun k => { k with before := c :: k.before })
      = endOfCut style (hasCode || !Text.isBlank c) text cut := by
  have hblank (line : Text.Line) : (hasCode || !Text.isBlankLine (c :: line))
      = (hasCode || !Text.isBlank c || !Text.isBlankLine line) := by
    rw [Text.isBlankLine, Text.isBlankLine, List.all_cons, Bool.not_and, Bool.or_assoc]
  cases cut with
  | none =>
    show CommentStyle.LineEnd.mk _ _ = CommentStyle.LineEnd.mk _ _
    rw [hblank]
  | some k =>
    obtain ⟨before, marker, rest⟩ := k
    cases marker with
    | line =>
      show CommentStyle.LineEnd.mk _ _ = CommentStyle.LineEnd.mk _ _
      rw [hblank]
    | block =>
      show (run style ⟨_, _, hasCode || !Text.isBlankLine (c :: before)⟩ rest).lineEnd = _
      rw [hblank]
      rfl

/-- Outside of block comments a line is read up to the first marker outside of quotes. -/
lemma lineEnd_run_code (marked : style.Marked) (quoting : Quoting) (hasCode : Bool)
    (text : List Char) :
    (run style ⟨modeOf quoting, 0, hasCode⟩ text).lineEnd
      = endOfCut style hasCode text (style.cut? quoting text) := by
  induction text generalizing quoting hasCode with
  | nil =>
    rw [CommentStyle.cut?]
    cases quoting with
    | outside => exact congrArg (CommentStyle.LineEnd.mk · false) (Bool.or_false hasCode).symm
    | inside quote escaped => exact congrArg (CommentStyle.LineEnd.mk · false) (Bool.or_false hasCode).symm
  | cons c rest ih =>
    cases quoting with
    | inside quote escaped =>
      have hread : read style ⟨modeOf (.inside quote escaped), 0, hasCode⟩ c rest
          = readQuoted quote escaped hasCode c := rfl
      rw [run, hread, readQuoted_eq, ih, CommentStyle.cut?, endOfCut_cons]
    | outside =>
      have hread : read style ⟨modeOf .outside, 0, hasCode⟩ c rest
          = readCode style hasCode c rest := rfl
      rw [run, hread, readCode, CommentStyle.cut?, CommentStyle.markerAt?]
      split
      · rw [endOfCut_cons]
        exact ih (.inside c false) _
      · split
        · rw [run_comment]
          exact congrArg (CommentStyle.LineEnd.mk · false) (Bool.or_false hasCode).symm
        · cases hblock : style.block with
          | none =>
            dsimp only
            rw [endOfCut_cons]
            exact ih .outside _
          | some markers =>
            dsimp only
            split
            · next hprefix =>
              rw [run_marker .block hasCode (marked.opening markers hblock) hprefix]
              show _ = (run style ⟨.block, 0, hasCode || false⟩ _).lineEnd
              rw [Bool.or_false]
            · rw [endOfCut_cons]
              exact ih .outside _

/-- The reader that stands where a scan does. -/
def ofScan (s : CommentStyle.Scan) : LineReader :=
  ⟨if s.inBlock then .block else .code, 0, s.hasCode⟩

/-- What is left of a step of a scan: the end of the line, or that of a reader that goes on. -/
def endOfStep (style : CommentStyle) :
    CommentStyle.LineEnd ⊕ CommentStyle.Scan → CommentStyle.LineEnd
  | .inl done => done
  | .inr more => (run style (ofScan more) more.rest).lineEnd

/-- A step of a scan takes the reader with it. -/
lemma lineEnd_run_ofScan (marked : style.Marked) {s : CommentStyle.Scan}
    (hopen : s.inBlock = true → style.block ≠ none) :
    (run style (ofScan s) s.rest).lineEnd = endOfStep style (style.step s) := by
  obtain ⟨inBlock, hasCode, rest⟩ := s
  cases inBlock with
  | true =>
    cases hblock : style.block with
    | none => exact absurd hblock (hopen rfl)
    | some markers =>
      show (run style ⟨.block, 0, hasCode⟩ rest).lineEnd = _
      rw [run_block marked hblock, CommentStyle.step, if_pos rfl, hblock]
      dsimp only
      cases CommentStyle.after? markers.closing rest with
      | none => rfl
      | some after => rfl
  | false =>
    show (run style ⟨modeOf .outside, 0, hasCode⟩ rest).lineEnd = _
    rw [lineEnd_run_code marked, CommentStyle.step, if_neg Bool.false_ne_true]
    cases style.cut? .outside rest with
    | none => rfl
    | some k =>
      obtain ⟨before, marker, after⟩ := k
      cases marker with
      | line => rfl
      | block => rfl

/-- A step leaves a block comment open only where the style has markers for it. -/
lemma block_ne_none_of_step {s : CommentStyle.Scan}
    (h : (style.step s).elim CommentStyle.LineEnd.inBlock CommentStyle.Scan.inBlock = true) :
    style.block ≠ none := by
  rw [CommentStyle.step] at h
  split at h
  · split at h
    · exact absurd h Bool.false_ne_true
    · next markers hblock =>
      rw [hblock]
      exact Option.some_ne_none markers
  · split at h
    · exact absurd h Bool.false_ne_true
    · exact absurd h Bool.false_ne_true
    · next hcut =>
      obtain ⟨markers, hblock, -⟩ := CommentStyle.cut?_block hcut
      rw [hblock]
      exact Option.some_ne_none markers

/-- A scan comes to the same end as the reader. -/
lemma scan_eq_lineEnd_run (marked : style.Marked) {s : CommentStyle.Scan}
    (hopen : s.inBlock = true → style.block ≠ none) :
    style.scan s = (run style (ofScan s) s.rest).lineEnd := by
  fun_induction CommentStyle.scan style s with
  | case1 s done h =>
    rw [lineEnd_run_ofScan marked hopen, h]
    rfl
  | case2 s more h ih =>
    rw [lineEnd_run_ofScan marked hopen, h]
    apply ih
    intro hin
    apply block_ne_none_of_step (s := s)
    rw [h]
    exact hin

/-- Only a style with blocks ends a line in one. -/
lemma block_ne_none_of_scan {s : CommentStyle.Scan} (h : (style.scan s).inBlock = true) :
    style.block ≠ none := by
  fun_induction CommentStyle.scan style s with
  | case1 s done hstep =>
    apply block_ne_none_of_step (s := s)
    rw [hstep]
    exact h
  | case2 s more hstep ih => exact ih h

end LineReader

namespace LineSort

variable {style : CommentStyle} {inBlock : Bool}

/-- A line that is not blank has the sort that its scan tells. -/
lemma ofLine_of_not_blank (marked : style.Marked) (hopen : inBlock = true → style.block ≠ none)
    {line : Text.Line} (h : ¬ Text.isBlankLine line = true) :
    ofLine style inBlock line =
      (if (style.scan ⟨inBlock, false, line⟩).hasCode then code else comment,
        (style.scan ⟨inBlock, false, line⟩).inBlock) := by
  have hscan : style.scan ⟨inBlock, false, line⟩
      = ((LineReader.start inBlock).run style line).lineEnd :=
    LineReader.scan_eq_lineEnd_run marked hopen
  rw [ofLine, hscan]
  exact if_neg h

/-- A line leaves a block comment open only where the style has markers for it. -/
lemma block_ne_none_of_ofLine (marked : style.Marked) (hopen : inBlock = true → style.block ≠ none)
    {line : Text.Line} (h : (ofLine style inBlock line).2 = true) : style.block ≠ none := by
  by_cases hblank : Text.isBlankLine line = true
  · rw [ofLine, ← Text.isBlankLine, if_pos hblank] at h
    exact hopen h
  · rw [ofLine_of_not_blank marked hopen hblank] at h
    exact LineReader.block_ne_none_of_scan h

end LineSort

namespace LineCounts

variable {style : CommentStyle} {inBlock : Bool}

def ofSorts (sorts : List LineSort) : LineCounts :=
  ⟨sorts.count .code, sorts.count .comment, sorts.count .blank⟩

def plus (c d : LineCounts) : LineCounts :=
  ⟨c.code + d.code, c.comment + d.comment, c.blank + d.blank⟩

/-- Counts can be added in any order. -/
lemma plus_assoc (c d e : LineCounts) : (c.plus d).plus e = c.plus (d.plus e) := by
  simp only [plus, Nat.add_assoc]

/-- The first of some lines counts by itself. -/
lemma ofSorts_cons (sort : LineSort) (rest : List LineSort) :
    ofSorts (sort :: rest) = (ofSorts [sort]).plus (ofSorts rest) := by
  simp only [ofSorts, plus, ← List.count_append, List.singleton_append]

/-- Each line is counted once. -/
lemma total_ofSorts (sorts : List LineSort) :
    (ofSorts sorts).code + (ofSorts sorts).comment + (ofSorts sorts).blank = sorts.length := by
  induction sorts with
  | nil => rfl
  | cons sort rest ih =>
    have hone : (ofSorts [sort]).code + (ofSorts [sort]).comment + (ofSorts [sort]).blank = 1 := by
      cases sort with
      | code => rfl
      | comment => rfl
      | blank => rfl
    rw [ofSorts_cons, List.length_cons, ← ih]
    simp only [plus]
    omega

/-- A line is counted as the reader sorts it. -/
lemma addLine_eq (marked : style.Marked) (counts : LineCounts)
    (hopen : inBlock = true → style.block ≠ none) (line : Text.Line) :
    addLine style counts inBlock line
      = (counts.plus (ofSorts [(LineSort.ofLine style inBlock line).1]),
        (LineSort.ofLine style inBlock line).2) := by
  rw [addLine]
  split
  · next hblank =>
    rw [LineSort.ofLine, ← Text.isBlankLine, if_pos hblank]
    rfl
  · next hblank =>
    rw [LineSort.ofLine_of_not_blank marked hopen hblank]
    split
    · next hscan =>
      rw [hscan]
      rfl
    · next hscan =>
      rw [hscan]
      rfl

/-- The lines after some others are counted as the reader sorts them. -/
lemma foldl_addLine (marked : style.Marked) (lines : List Text.Line) (counts : LineCounts)
    (hopen : inBlock = true → style.block ≠ none) :
    (lines.foldl (fun state line => addLine style state.1 state.2 line) (counts, inBlock)).1
      = counts.plus (ofSorts (LineSort.ofLines style inBlock lines)) := by
  induction lines generalizing counts inBlock with
  | nil => rfl
  | cons line more ih =>
    rw [List.foldl_cons, addLine_eq marked counts hopen, LineSort.ofLines,
      ofSorts_cons _ (LineSort.ofLines _ _ more), ← plus_assoc]
    apply ih
    exact LineSort.block_ne_none_of_ofLine marked hopen

/-- The lines of a source are counted as a reader sorts them that reads each line once, one character
after the other, and every line counts. -/
theorem ofSource_eq_ofSorts :
    (∀ language : Language, language.commentStyle.Marked) ∧
    ∀ style : CommentStyle, style.Marked → ∀ source : String,
      let lines := Text.lines source.toList
      let counts := ofSource style source
      counts = ofSorts (LineSort.ofLines style false lines) ∧
        counts.code + counts.comment + counts.blank = lines.length := by
  constructor
  · exact Language.marked_commentStyle
  · intro style marked source lines counts
    have hcounts : counts = ofSorts (LineSort.ofLines style false lines) := by
      have hfold := foldl_addLine marked lines {} (fun h => absurd h Bool.false_ne_true)
      have hzero (c : LineCounts) : plus {} c = c := by
        simp only [plus, Nat.zero_add]
      exact hfold.trans (hzero _)
    refine ⟨hcounts, ?_⟩
    rw [hcounts, total_ofSorts]
    exact LineSort.length_ofLines style false lines

/-- An escaped quote, a closing marker that overlaps an opening one, a comment over a blank line with
code after it, and a line with nothing but comments. -/
theorem ofSource_tricky :
    (Language.typescript.commentStyle).Marked ∧
      ofSource Language.typescript.commentStyle
        "s = \"a\\\" /* b\"; /*/ c\n\n d */ t() /* */ // u\n /* v */ /* */ // w\n"
        = ⟨2, 1, 1⟩ := by
  obtain ⟨hmarked, hcounts⟩ := ofSource_eq_ofSorts
  have hstyle := hmarked .typescript
  refine ⟨hstyle, ?_⟩
  rw [(hcounts _ hstyle _).1]
  decide +kernel

end LineCounts

end CodeAudit
