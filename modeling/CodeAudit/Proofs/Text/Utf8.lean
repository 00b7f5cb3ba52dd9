import CodeAudit.Proofs.Checked
import CodeAudit.Proofs.Text.Lines
/-!
# Texts as bytes

A character takes one to four bytes, of which only the first one can start a character. So what is found
by its bytes is found as a text: it occurs between characters, and an offset where it starts or ends is
one where the text can be cut.
-/
namespace CodeAudit.Text

/-- The bytes of a text. -/
def utf8 (text : List Char) : List UInt8 :=
  text.flatMap String.utf8EncodeChar

/-- The characters of a text, each with the offset of its first byte. -/
def charOffsets (start : Nat) : List Char → List (Nat × Char)
  | [] => []
  | c :: rest => (start, c) :: charOffsets (start + c.utf8Size) rest

/-- The offset of the first place where some bytes occur among others. -/
def findBytes? (part : List UInt8) : List UInt8 → Option Nat
  | [] => if part.isPrefixOf [] then some 0 else none
  | b :: rest => if part.isPrefixOf (b :: rest) then some 0 else (findBytes? part rest).map (· + 1)

/-- Cuts a text at an offset in bytes, which has to lie between two characters or at an end. -/
def cutAt (text : List Char) (offset : Nat) : Checked (List Char × List Char) :=
  if offset = 0 then .ok ([], text)
  else
    match text with
    | [] => .error .offBoundary
    | c :: rest =>
      if offset < c.utf8Size then .error .offBoundary
      else (cutAt rest (offset - c.utf8Size)).map fun (front, back) => (c :: front, back)

/-- The bytes of a text begin with those of its first character. -/
lemma utf8_cons (c : Char) (rest : List Char) :
    utf8 (c :: rest) = String.utf8EncodeChar c ++ utf8 rest :=
  List.flatMap_cons

/-- The bytes of two texts in a row are those of each. -/
lemma utf8_append (front back : List Char) : utf8 (front ++ back) = utf8 front ++ utf8 back :=
  List.flatMap_append

/-- The bytes of a text are those of its characters. -/
lemma length_utf8_cons (c : Char) (rest : List Char) :
    (utf8 (c :: rest)).length = c.utf8Size + (utf8 rest).length := by
  rw [utf8_cons, List.length_append, String.length_utf8EncodeChar]

/-- The bytes of a string are as many as its size says. -/
lemma length_utf8_toList (s : String) : (utf8 s.toList).length = s.utf8ByteSize := by
  rw [← String.size_toByteArray, ← String.utf8Encode_toList, List.utf8Encode, List.size_toByteArray]
  rfl

/-- A text has no more characters than bytes. -/
lemma length_le_length_utf8 (text : List Char) : text.length ≤ (utf8 text).length := by
  induction text with
  | nil => exact Nat.le_refl _
  | cons c rest ih =>
    rw [length_utf8_cons, List.length_cons, Nat.add_comm]
    exact Nat.add_le_add c.utf8Size_pos ih

/-- A text has no more lines than characters. -/
lemma length_lines_le_length (text : List Char) : (lines text).length ≤ text.length := by
  induction text using lines.induct with
  | case1 => exact Nat.le_refl _
  | case2 rest ih =>
    rw [lines]
    exact Nat.succ_le_succ ih
  | case3 rest ih =>
    rw [lines]
    exact Nat.le_succ_of_le (Nat.succ_le_succ ih)
  | case4 c rest hfeed hbreak hnil ih =>
    rw [lines.eq_4 c rest hfeed hbreak, hnil]
    exact Nat.succ_le_succ (Nat.zero_le _)
  | case5 c rest hfeed hbreak first more hlines ih =>
    rw [lines.eq_4 c rest hfeed hbreak, hlines]
    rw [hlines] at ih
    exact Nat.le_succ_of_le ih

/-- A text has no more lines than bytes. -/
lemma length_lines_le_utf8ByteSize (s : String) : (lines s.toList).length ≤ s.utf8ByteSize := by
  rw [← length_utf8_toList]
  exact (length_lines_le_length _).trans (length_le_length_utf8 _)

/-- A text can be cut where a part of it ends. -/
lemma cutAt_append (front back : List Char) :
    cutAt (front ++ back) (utf8 front).length = .ok (front, back) := by
  induction front with
  | nil =>
    rw [cutAt.eq_def]
    exact if_pos rfl
  | cons c front ih =>
    have hpos : 0 < c.utf8Size := c.utf8Size_pos
    have hsize : ¬ c.utf8Size + (utf8 front).length = 0 := by omega
    have hlarge : ¬ c.utf8Size + (utf8 front).length < c.utf8Size := by omega
    rw [length_utf8_cons, List.cons_append, cutAt, if_neg hsize, if_neg hlarge,
      Nat.add_sub_cancel_left, ih]
    rfl

/-- A text can be cut behind a marker. -/
lemma cutAt_append_append (front marker back : List Char) :
    cutAt (front ++ (marker ++ back)) ((utf8 front).length + (utf8 marker).length)
      = .ok (front ++ marker, back) := by
  rw [← List.append_assoc, ← List.length_append, ← utf8_append]
  exact cutAt_append _ _

/-- No text can be cut inside of a character. -/
example : cutAt ['a', 'é', 'b'] 2 = .error .offBoundary := by decide

/-- Of the bytes of a character only the first one can start a character. -/
lemma exists_utf8EncodeChar_eq (c : Char) : ∃ first more, String.utf8EncodeChar c = first :: more ∧
    first.IsUTF8FirstByte ∧ ∀ b ∈ more, ¬ b.IsUTF8FirstByte := by
  have hfirst (i : Nat) (hi : i < (String.utf8EncodeChar c).length) :
      (String.utf8EncodeChar c)[i].IsUTF8FirstByte ↔ i = 0 :=
    UInt8.isUTF8FirstByte_getElem_utf8EncodeChar
  cases hbytes : String.utf8EncodeChar c with
  | nil => exact absurd hbytes String.utf8EncodeChar_ne_nil
  | cons first more =>
    rw [hbytes] at hfirst
    refine ⟨first, more, rfl, (hfirst 0 (Nat.zero_lt_succ _)).2 rfl, ?_⟩
    intro b hb hstarts
    obtain ⟨i, hi, rfl⟩ := List.getElem_of_mem hb
    exact absurd ((hfirst (i + 1) (Nat.succ_lt_succ hi)).1 hstarts) (Nat.succ_ne_zero i)

/-- The character that some bytes start with is determined by the bytes. -/
lemma utf8EncodeChar_append_inj {c d : Char} {after after' : List UInt8}
    (h : String.utf8EncodeChar c ++ after = String.utf8EncodeChar d ++ after') :
    c = d ∧ after = after' := by
  have hc := ByteArray.utf8DecodeChar?_utf8EncodeChar_append (c := c) (b := after.toByteArray)
  have hd := ByteArray.utf8DecodeChar?_utf8EncodeChar_append (c := d) (b := after'.toByteArray)
  rw [← List.toByteArray_append] at hc hd
  rw [h, hd] at hc
  cases hc
  exact ⟨rfl, List.append_cancel_left h⟩

/-- A text starts with another one if its bytes do. -/
lemma prefix_of_utf8_prefix {part text : List Char} (h : utf8 part <+: utf8 text) :
    part <+: text := by
  induction part generalizing text with
  | nil => exact List.nil_prefix
  | cons c part ih =>
    cases text with
    | nil =>
      have hempty : utf8 (c :: part) = [] := List.prefix_nil.1 h
      rw [utf8_cons] at hempty
      exact absurd (List.append_eq_nil_iff.1 hempty).1 String.utf8EncodeChar_ne_nil
    | cons d text =>
      obtain ⟨after, hafter⟩ := h
      rw [utf8_cons, utf8_cons, List.append_assoc] at hafter
      obtain ⟨hcd, hrest⟩ := utf8EncodeChar_append_inj hafter
      rw [List.cons_prefix_cons]
      exact ⟨hcd, ih ⟨after, hrest⟩⟩

/-- A text starts with the bytes of a part where it starts with the part. -/
lemma isPrefixOf_utf8 (part text : List Char) :
    (utf8 part).isPrefixOf (utf8 text) = part.isPrefixOf text := by
  rw [Bool.eq_iff_iff, List.isPrefixOf_iff_prefix, List.isPrefixOf_iff_prefix]
  constructor
  · exact prefix_of_utf8_prefix
  · rintro ⟨back, rfl⟩
    rw [utf8_append]
    exact List.prefix_append _ _

/-- A part at the front of a text is found there. -/
lemma findBytes?_of_prefix {part bytes : List UInt8} (h : part.isPrefixOf bytes = true) :
    findBytes? part bytes = some 0 := by
  cases bytes <;> exact if_pos h

/-- What starts with a first byte is not found among the further bytes of a character. -/
lemma findBytes?_append {first : UInt8} (hfirst : first.IsUTF8FirstByte) (part : List UInt8)
    {more : List UInt8} (hmore : ∀ b ∈ more, ¬ b.IsUTF8FirstByte) (back : List UInt8) :
    findBytes? (first :: part) (more ++ back)
      = (findBytes? (first :: part) back).map (· + more.length) := by
  induction more with
  | nil => exact Option.map_id'.symm
  | cons b more ih =>
    have hb : (first == b) = false := by
      apply beq_eq_false_iff_ne.2
      rintro rfl
      exact hmore first List.mem_cons_self hfirst
    have hstarts : ¬ (first :: part).isPrefixOf (b :: (more ++ back)) = true := by
      rw [List.isPrefixOf_cons_cons, hb, Bool.false_and]
      exact Bool.false_ne_true
    rw [List.cons_append, findBytes?, if_neg hstarts,
      ih (fun b hb => hmore b (List.mem_cons_of_mem _ hb)), Option.map_map]
    rfl

/-- A part that a text does not start with is looked for behind the first character. -/
lemma findBytes?_utf8_cons {part : List Char} {c : Char} {rest : List Char}
    (h : part.isPrefixOf (c :: rest) = false) :
    findBytes? (utf8 part) (utf8 (c :: rest))
      = (findBytes? (utf8 part) (utf8 rest)).map (· + c.utf8Size) := by
  cases part with
  | nil => exact absurd h Bool.noConfusion
  | cons d part =>
    obtain ⟨first, back, hpart, hfirst, -⟩ := exists_utf8EncodeChar_eq d
    obtain ⟨b, more, hbytes, -, hmore⟩ := exists_utf8EncodeChar_eq c
    have hsize : c.utf8Size = more.length + 1 := by
      rw [← String.length_utf8EncodeChar, hbytes, List.length_cons]
    have hstarts : ¬ (utf8 (d :: part)).isPrefixOf (b :: (more ++ utf8 rest)) = true := by
      rw [← List.cons_append, ← hbytes, ← utf8_cons, isPrefixOf_utf8, h]
      exact Bool.false_ne_true
    rw [utf8_cons c, hbytes, List.cons_append, findBytes?, if_neg hstarts, utf8_cons d, hpart,
      List.cons_append, findBytes?_append hfirst _ hmore, Option.map_map, hsize]
    rfl

end CodeAudit.Text
