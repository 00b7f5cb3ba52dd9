import CodeAudit.Proofs.Source.Respacing
/-!
# Styles without block comments

Where a style has line comments only, with no blank in its marker and quotes and no quote at the start
of its marker, the first character of a line that is not blank decides: either the line marker starts
there, or the line is code, whatever quotes, backslashes and markers come after.
-/
namespace CodeAudit

/-- There are no block comments, the line marker does not start with a quote, and neither in the marker
nor among the quotes there is a blank. -/
structure CommentStyle.LineOnly (style : CommentStyle) : Prop where
  block : style.block = none
  line : style.lineMarker ≠ []
  unquoted : style.lineMarker.head line ∉ style.quotes
  lineBlankFree : Text.BlankFree style.lineMarker
  quotesBlankFree : Text.BlankFree style.quotes

/-- A style of line comments alone has no blanks in its markers. -/
lemma CommentStyle.LineOnly.blankFree {style : CommentStyle} (only : style.LineOnly) :
    style.BlankFree := by
  have hnone (markers : BlockMarkers) : style.block ≠ some markers := by
    rw [only.block]
    exact (Option.some_ne_none markers).symm
  constructor
  case toMarked =>
    exact ⟨only.line, fun markers h => absurd h (hnone markers),
      fun markers h => absurd h (hnone markers)⟩
  case lineBlankFree => exact only.lineBlankFree
  case openingBlankFree => exact fun markers h => absurd h (hnone markers)
  case closingBlankFree => exact fun markers h => absurd h (hnone markers)
  case quotesBlankFree => exact only.quotesBlankFree

/-- In Python comments go to the end of the line and nowhere else. -/
lemma Language.lineOnly_python : Language.python.commentStyle.LineOnly where
  block := rfl
  line := List.cons_ne_nil _ _
  unquoted := by decide +kernel
  lineBlankFree := Language.python.blankFree_commentStyle.lineBlankFree
  quotesBlankFree := Language.python.blankFree_commentStyle.quotesBlankFree

/-- What trimming leaves of a line does not start with a blank. -/
lemma Text.not_isBlank_of_trim_eq_cons {line rest : Line} {c : Char} (h : trim line = c :: rest) :
    ¬ isBlank c = true := by
  obtain ⟨back, -, hback⟩ := exists_eq_trimEnd_append (line.dropWhile isBlank)
  have hdrop : line.dropWhile isBlank = c :: (rest ++ back) := by
    rw [← List.cons_append, ← h]
    exact hback
  have hhead := List.head?_dropWhile_not isBlank line
  rw [hdrop, List.head?_cons] at hhead
  exact Bool.eq_false_iff.1 hhead

namespace LineReader

variable {style : CommentStyle}

/-- Code that has been read is not forgotten. -/
lemma hasCode_read {s : LineReader} (h : s.hasCode = true) (c : Char) (rest : List Char) :
    (s.read style c rest).hasCode = true := by
  obtain ⟨mode, skip, hasCode⟩ := s
  dsimp only at h
  subst h
  cases skip with
  | succ k => rfl
  | zero =>
    cases mode with
    | code =>
      show (readCode style true c rest).hasCode = true
      rw [readCode]
      split
      · rfl
      · split
        · rfl
        · split
          · rfl
          · split
            · rfl
            · rfl
    | quoted quote escaped => rfl
    | block =>
      show (readBlock style true c rest).hasCode = true
      rw [readBlock]
      split
      · rfl
      · split
        · rfl
        · rfl
    | comment => rfl

/-- A line that has code has it however it goes on. -/
lemma hasCode_run {s : LineReader} (h : s.hasCode = true) (text : List Char) :
    (s.run style text).hasCode = true := by
  induction text generalizing s with
  | nil => exact h
  | cons c rest ih => exact ih (hasCode_read h c rest)

/-- A line that starts with a character that is not blank has code unless the line marker starts there. -/
lemma hasCode_run_start (only : style.LineOnly) {c : Char} (hc : ¬ Text.isBlank c = true)
    (rest : List Char) :
    ((start false).run style (c :: rest)).hasCode = !style.lineMarker.isPrefixOf (c :: rest) := by
  have hread : (start false).read style c rest = readCode style false c rest := rfl
  have hcode : (false || !Text.isBlank c) = true := by
    rw [Bool.false_or, Bool.not_eq_true', ← Bool.not_eq_true]
    exact hc
  rw [run, hread, readCode]
  split
  · next hquote =>
    have hmarker : style.lineMarker.isPrefixOf (c :: rest) = false := by
      have hhead : (style.lineMarker.head only.line == c) = false :=
        beq_eq_false_iff_ne.2 fun e => only.unquoted (e ▸ hquote)
      rw [← List.cons_head_tail only.line, List.isPrefixOf_cons_cons, hhead, Bool.false_and]
    rw [hmarker]
    exact hasCode_run hcode rest
  · split
    · next hmarker =>
      rw [run_comment, hmarker]
      rfl
    · next hmarker =>
      rw [Bool.eq_false_iff.2 hmarker, only.block]
      exact hasCode_run hcode rest

end LineReader

namespace LineSort

variable {style : CommentStyle}

/-- The sort of a line by its trimmed text, where there are line comments only. -/
def ofTrimmed (marker text : List Char) : LineSort :=
  if text = [] then blank else if marker <+: text then comment else code

/-- A line is sorted by its trimmed text alone. -/
lemma ofLine_eq_ofTrimmed (only : style.LineOnly) (line : Text.Line) :
    ofLine style false line = (ofTrimmed style.lineMarker (Text.trim line), false) := by
  have hclosed : (ofLine style false line).2 = false := by
    by_contra h
    exact block_ne_none_of_ofLine only.blankFree.toMarked (fun h => absurd h Bool.false_ne_true)
      (Bool.not_eq_false _ ▸ h) only.block
  refine Prod.ext ?_ hclosed
  rw [← ofLine_trim only.blankFree]
  cases htrim : Text.trim line with
  | nil => rfl
  | cons c rest =>
    have hc := Text.not_isBlank_of_trim_eq_cons htrim
    have hcode := LineReader.hasCode_run_start only hc rest
    have hblank : ¬ (c :: rest).all Text.isBlank = true := by
      rw [List.all_cons, Bool.and_eq_true]
      exact fun h => hc h.1
    rw [ofLine, if_neg hblank, ofTrimmed, if_neg (List.cons_ne_nil c rest)]
    show (if ((LineReader.start false).run style (c :: rest)).hasCode then code else comment) = _
    rw [hcode]
    by_cases hmarker : style.lineMarker <+: c :: rest
    · rw [if_pos hmarker, List.isPrefixOf_iff_prefix.2 hmarker]
      rfl
    · rw [if_neg hmarker, Bool.eq_false_iff.2 (mt List.isPrefixOf_iff_prefix.1 hmarker)]
      rfl

/-- Lines are sorted by their trimmed texts, one by one. -/
lemma ofLines_eq_map (only : style.LineOnly) (lines : List Text.Line) :
    ofLines style false lines = (lines.map Text.trim).map (ofTrimmed style.lineMarker) := by
  induction lines with
  | nil => rfl
  | cons line more ih =>
    rw [ofLines, ofLine_eq_ofTrimmed only, ih]
    rfl

variable {marker text : List Char}

/-- A trimmed line is blank if it is empty. -/
lemma ofTrimmed_eq_blank_iff : ofTrimmed marker text = blank ↔ text = [] := by
  rw [ofTrimmed]
  split_ifs with hnil <;> simp [hnil]

/-- A trimmed line is a comment if it starts with the marker. -/
lemma ofTrimmed_eq_comment_iff (hne : marker ≠ []) :
    ofTrimmed marker text = comment ↔ marker <+: text := by
  rw [ofTrimmed]
  split_ifs with hnil hmarker
  · rw [hnil, List.prefix_nil]
    simp [hne]
  · simp [hmarker]
  · simp [hmarker]

/-- A trimmed line is code if it is not empty and does not start with the marker. -/
lemma ofTrimmed_eq_code_iff :
    ofTrimmed marker text = code ↔ text ≠ [] ∧ ¬ marker <+: text := by
  rw [ofTrimmed]
  split_ifs with hnil hmarker <;> simp [*]

end LineSort

namespace LineCounts

/-- The counts of a source are those of its sorted lines. -/
lemma ofSource_eq {style : CommentStyle} (marked : style.Marked) (source : String) :
    ofSource style source = ofSorts (LineSort.ofLines style false (Text.lines source.toList)) := by
  have hzero (c : LineCounts) : plus {} c = c := by
    simp only [plus, Nat.zero_add]
  rw [ofSource, ofLines, foldl_addLine marked _ _ (fun h => absurd h Bool.false_ne_true), hzero]

/-- Without block comments the lines of a source are counted by their trimmed texts: those that are
empty, those that start with the line marker, and the others. -/
theorem ofSource_lineOnly :
    Language.python.commentStyle.LineOnly ∧
    ∀ style : CommentStyle, style.LineOnly → ∀ source : String,
      let trimmed := (Text.lines source.toList).map Text.trim
      let counts := ofSource style source
      counts.blank = trimmed.countP (· = []) ∧
        counts.comment = trimmed.countP (style.lineMarker <+: ·) ∧
        counts.code = trimmed.countP fun text => text ≠ [] ∧ ¬ style.lineMarker <+: text := by
  refine ⟨Language.lineOnly_python, ?_⟩
  intro style only source trimmed counts
  have hcounts : counts = ofSorts (trimmed.map (LineSort.ofTrimmed style.lineMarker)) := by
    rw [← LineSort.ofLines_eq_map only]
    exact ofSource_eq only.blankFree.toMarked source
  have hcount {sort : LineSort} {p : List Char → Prop} [DecidablePred p]
      (hsort : ∀ text, LineSort.ofTrimmed style.lineMarker text = sort ↔ p text) :
      (trimmed.map (LineSort.ofTrimmed style.lineMarker)).count sort = trimmed.countP fun t => p t := by
    rw [List.count_eq_countP, List.countP_map]
    refine List.countP_congr fun text _ => ?_
    rw [Function.comp_apply, beq_iff_eq, hsort, decide_eq_true_eq]
  rw [hcounts]
  refine ⟨hcount fun text => ?_, hcount fun text => ?_, hcount fun text => ?_⟩
  · exact LineSort.ofTrimmed_eq_blank_iff
  · exact LineSort.ofTrimmed_eq_comment_iff only.line
  · exact LineSort.ofTrimmed_eq_code_iff

/-- A style whose marker has a quote in it, though not at its start. -/
def percentStyle : CommentStyle :=
  ⟨['%', Language.doubleQuote], none, [Language.doubleQuote, '\\']⟩

/-- Markers in quoted spans, behind code and behind blanks, spans that stay open, and a backslash that
opens one. -/
theorem ofSource_percentStyle :
    let source :=
      "%\" a\n\t %\"\\b\n% c\n\"%\"\n d \\%\" e\n\\\n\u00a0\n\u3000%\"\r\n f \" %\"%\" \\\"\n\n \r"
    percentStyle.LineOnly ∧ ofSource percentStyle source = ⟨5, 3, 3⟩ := by
  intro source
  have honly : percentStyle.LineOnly :=
    ⟨rfl, List.cons_ne_nil _ _, by decide +kernel, by decide +kernel, by decide +kernel⟩
  obtain ⟨hblank, hcomment, hcode⟩ := ofSource_lineOnly.2 percentStyle honly source
  refine ⟨honly, ?_⟩
  rw [LineCounts.mk.injEq, hblank, hcomment, hcode]
  decide +kernel

end LineCounts

end CodeAudit
