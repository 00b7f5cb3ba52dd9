import CodeAudit.Text.Lines
import Mathlib
/-!
# Lines and their blanks

What the readers of lines rely on: a line has no line feed in it, trimming adds nothing to a line,
and what trimming leaves of a line is empty exactly if the line is blank. So lines that have been
trimmed and joined with line feeds can be told back from the text that they make. A text that is written
row by row has these rows for its lines, but for carriage returns and other blanks at their ends. The
number of lines is bounded by the line feeds, which are found among the bytes of the text too.
-/
namespace CodeAudit.Text

/-- A line of a text has no line feed in it. -/
lemma feed_not_mem_of_mem_lines {text : List Char} {line : Line} (h : line ∈ lines text) :
    '\n' ∉ line := by
  induction text using lines.induct generalizing line with
  | case1 => simp [lines] at h
  | case2 rest ih =>
    rw [lines, List.mem_cons] at h
    obtain rfl | h := h
    · exact List.not_mem_nil
    · exact ih h
  | case3 rest ih =>
    rw [lines, List.mem_cons] at h
    obtain rfl | h := h
    · exact List.not_mem_nil
    · exact ih h
  | case4 c rest hfeed hbreak hnil ih =>
    rw [lines.eq_4 c rest hfeed hbreak, hnil, List.mem_singleton] at h
    subst h
    rw [List.mem_singleton]
    exact fun e => hfeed e.symm
  | case5 c rest hfeed hbreak first more hlines ih =>
    rw [lines.eq_4 c rest hfeed hbreak, hlines, List.mem_cons] at h
    rw [hlines] at ih
    obtain rfl | h := h
    · have hfirst : '\n' ∉ first := ih List.mem_cons_self
      rw [List.mem_cons, not_or]
      exact ⟨fun e => hfeed e.symm, hfirst⟩
    · exact ih (List.mem_cons_of_mem _ h)

/-- What is kept of the front of a line is part of the line. -/
lemma mem_of_mem_trimEnd {line : Line} {c : Char} (h : c ∈ trimEnd line) : c ∈ line := by
  induction line with
  | nil => exact h
  | cons d rest ih =>
    rw [trimEnd] at h
    split at h
    · split at h
      · exact absurd h List.not_mem_nil
      · rw [List.mem_singleton] at h
        exact h ▸ List.mem_cons_self
    · rw [List.mem_cons] at h
      obtain rfl | h := h
      · exact List.mem_cons_self
      · exact List.mem_cons_of_mem _ (ih h)

/-- What trimming leaves of a line is part of the line. -/
lemma mem_of_mem_trim {line : Line} {c : Char} (h : c ∈ trim line) : c ∈ line :=
  (List.dropWhile_sublist _).subset (mem_of_mem_trimEnd h)

/-- Nothing is left of a line without its end exactly if it is blank. -/
lemma trimEnd_eq_nil_iff {line : Line} : trimEnd line = [] ↔ isBlankLine line = true := by
  induction line with
  | nil => simp [trimEnd, isBlankLine]
  | cons c rest ih =>
    rw [isBlankLine, List.all_cons, Bool.and_eq_true, ← isBlankLine, ← ih, trimEnd]
    cases trimEnd rest with
    | nil => by_cases hc : isBlank c <;> simp [hc]
    | cons d kept => simp

/-- Trimming leaves nothing of a line exactly if it is blank. -/
lemma trim_eq_nil_iff {line : Line} : trim line = [] ↔ isBlankLine line = true := by
  rw [trim, trimEnd_eq_nil_iff, isBlankLine, isBlankLine]
  induction line with
  | nil => rfl
  | cons c rest ih => by_cases hc : isBlank c <;> simp [hc, ih]

/-- Lines without line feeds can be told back from the text that joins them. -/
lemma intercalate_feed_injective {first second : List Line}
    (hfirst : ∀ line ∈ first, '\n' ∉ line) (hsecond : ∀ line ∈ second, '\n' ∉ line)
    (hlength : first.length = second.length)
    (h : List.intercalate ['\n'] first = List.intercalate ['\n'] second) : first = second := by
  cases first with
  | nil =>
    rw [List.length_nil] at hlength
    exact (List.length_eq_zero_iff.1 hlength.symm).symm
  | cons line rest =>
    have hne : second ≠ [] := by
      rintro rfl
      simp at hlength
    rw [← List.splitOn_intercalate '\n' hfirst (List.cons_ne_nil _ _), h,
      List.splitOn_intercalate '\n' hsecond hne]

/-- A row up to a line feed is a line, less the carriage return that it may end with. -/
lemma exists_lines_append_feed {row : Line} (h : '\n' ∉ row) (rest : List Char) :
    ∃ line, lines (row ++ '\n' :: rest) = line :: lines rest ∧ (row = line ∨ row = line ++ ['\r']) := by
  induction row with
  | nil => exact ⟨[], lines.eq_2 rest, .inl rfl⟩
  | cons c row ih =>
    rw [List.mem_cons, not_or] at h
    obtain ⟨hfeed, hrow⟩ := h
    obtain ⟨line, hlines, hline⟩ := ih hrow
    by_cases hbreak : c = '\r' ∧ row = []
    · obtain ⟨rfl, rfl⟩ := hbreak
      exact ⟨[], lines.eq_3 rest, .inr rfl⟩
    · have hnobreak : ∀ more, c = '\r' → row ++ '\n' :: rest = '\n' :: more → False := by
        intro more hreturn heq
        cases row with
        | nil => exact hbreak ⟨hreturn, rfl⟩
        | cons d row => exact hrow ((List.cons.inj heq).1 ▸ List.mem_cons_self)
      refine ⟨c :: line, ?_, hline.imp (congrArg (c :: ·)) (congrArg (c :: ·))⟩
      rw [List.cons_append, lines.eq_4 c _ (fun e => hfeed e.symm) hnobreak, hlines]

/-- What stands behind the last line feed is a line unless it is empty. -/
lemma lines_of_feed_not_mem {row : Line} (h : '\n' ∉ row) :
    lines row = if row = [] then [] else [row] := by
  induction row with
  | nil => rfl
  | cons c row ih =>
    rw [List.mem_cons, not_or] at h
    have hnobreak : ∀ more, c = '\r' → row = '\n' :: more → False :=
      fun more _ heq => h.2 (heq ▸ List.mem_cons_self)
    rw [lines.eq_4 c _ (fun e => h.1 e.symm) hnobreak, ih h.2, if_neg (List.cons_ne_nil c row)]
    cases row with
    | nil => rfl
    | cons d row => rfl

/-- Blanks at the end are trimmed off. -/
lemma trimEnd_append_blanks {blanks : Line} (h : isBlankLine blanks = true) (line : Line) :
    trimEnd (line ++ blanks) = trimEnd line := by
  induction line with
  | nil => exact trimEnd_eq_nil_iff.2 h
  | cons c rest ih => rw [List.cons_append, trimEnd, ih, trimEnd]

/-- Blanks behind a text are trimmed off. -/
lemma trim_append_blanks {blanks : Line} (h : isBlankLine blanks = true) (line : Line) :
    trim (line ++ blanks) = trim line := by
  have hnone : blanks.dropWhile isBlank = [] := List.dropWhile_eq_nil_iff.2 (List.all_eq_true.1 h)
  rw [trim, trim, List.dropWhile_append]
  split
  · next hempty => rw [hnone, List.isEmpty_iff.1 hempty]
  · exact trimEnd_append_blanks h _

/-- What is trimmed off the end of a line is blank. -/
lemma exists_eq_trimEnd_append (line : Line) :
    ∃ back, isBlankLine back = true ∧ line = trimEnd line ++ back := by
  induction line with
  | nil => exact ⟨[], rfl, rfl⟩
  | cons c rest ih =>
    obtain ⟨back, hback, hrest⟩ := ih
    rw [trimEnd]
    split
    · next hnil =>
      rw [hnil, List.nil_append] at hrest
      subst hrest
      split
      · next hc => exact ⟨c :: rest, by rw [isBlankLine, List.all_cons, hc]; exact hback, rfl⟩
      · exact ⟨rest, hback, rfl⟩
    · exact ⟨back, hback, congrArg (c :: ·) hrest⟩

/-- A line is what trimming leaves of it, with blanks around it. -/
lemma exists_eq_append_trim_append (line : Line) : ∃ front back, isBlankLine front = true ∧
    isBlankLine back = true ∧ line = front ++ (trim line ++ back) := by
  obtain ⟨back, hback, hend⟩ := exists_eq_trimEnd_append (line.dropWhile isBlank)
  refine ⟨line.takeWhile isBlank, back, List.all_takeWhile, hback, ?_⟩
  rw [trim, ← hend, List.takeWhile_append_dropWhile]

/-- The lines of a text that is written row by row are the rows, as far as trimming goes. -/
lemma map_trim_lines {rows : List Line} {last : Line} (hrows : ∀ row ∈ rows, '\n' ∉ row)
    (hlast : '\n' ∉ last) :
    (lines (rows.flatMap (· ++ ['\n']) ++ last)).map trim
      = (rows ++ if last = [] then [] else [last]).map trim := by
  induction rows with
  | nil => rw [List.flatMap_nil, List.nil_append, List.nil_append, lines_of_feed_not_mem hlast]
  | cons row rest ih =>
    obtain ⟨hrow, hrest⟩ := List.forall_mem_cons.1 hrows
    obtain ⟨line, hlines, hline⟩ :=
      exists_lines_append_feed hrow (rest.flatMap (· ++ ['\n']) ++ last)
    have htrim : trim line = trim row := by
      obtain rfl | rfl := hline
      · rfl
      · exact (trim_append_blanks (by decide) line).symm
    rw [List.flatMap_cons, List.append_assoc, List.append_assoc, List.singleton_append, hlines,
      List.map_cons, ih hrest, htrim]
    rfl

/-- A text has at most one line more than it has line feeds. -/
lemma length_lines_le (text : List Char) : (lines text).length ≤ text.count '\n' + 1 := by
  induction text using lines.induct with
  | case1 => exact Nat.zero_le _
  | case2 rest ih =>
    rw [lines, List.length_cons, List.count_cons_self]
    exact Nat.succ_le_succ ih
  | case3 rest ih =>
    rw [lines, List.length_cons, List.count_cons_of_ne (by decide), List.count_cons_self]
    exact Nat.succ_le_succ ih
  | case4 c rest hfeed hbreak hnil ih =>
    rw [lines.eq_4 c rest hfeed hbreak, hnil]
    exact Nat.le_add_left _ _
  | case5 c rest hfeed hbreak first more hlines ih =>
    rw [lines.eq_4 c rest hfeed hbreak, hlines, List.count_cons_of_ne hfeed]
    rw [hlines] at ih
    exact ih

/-- What the loop that lists some bytes adds to those it has listed. -/
lemma toList_loop (bytes : ByteArray) (i : Nat) (front : List UInt8) :
    ByteArray.toList.loop bytes i front = front.reverse ++ bytes.data.toList.drop i := by
  fun_induction ByteArray.toList.loop bytes i front with
  | case1 i front hlt ih =>
    have hlength : i < bytes.data.toList.length := hlt
    have hget : bytes.get! i = bytes.data.toList[i] := getElem!_pos bytes.data i hlt
    rw [ih, List.drop_eq_getElem_cons hlength, hget, List.reverse_cons, List.append_assoc]
    rfl
  | case2 i front hle =>
    rw [List.drop_eq_nil_of_le (Nat.le_of_not_lt hle), List.append_nil]

/-- The bytes of a text are those of its characters. -/
lemma toList_toUTF8 (s : String) : s.toUTF8.toList = s.toList.flatMap String.utf8EncodeChar := by
  rw [String.toUTF8_eq_toByteArray, ← String.utf8Encode_toList, ByteArray.toList, toList_loop]
  exact List.toList_data_toByteArray

/-- Every line feed of a text is one of its bytes. -/
lemma count_feed_le (s : String) : s.toList.count '\n' ≤ s.toUTF8.toList.count 10 := by
  rw [toList_toUTF8]
  induction s.toList with
  | nil => exact le_refl _
  | cons c rest ih =>
    rw [List.flatMap_cons, List.count_append, Nat.add_comm, List.count_cons]
    apply Nat.add_le_add ih
    split
    · next h =>
      rw [beq_iff_eq.1 h]
      decide
    · exact Nat.zero_le _

end CodeAudit.Text
