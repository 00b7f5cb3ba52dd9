import CodeAudit.Decimal.Scaling
import CodeAudit.Json.Basic
/-!
# Reading JSON texts

A text is cut into tokens, and the tokens are put together with a stack of the lists and objects
that are still open.
-/
namespace CodeAudit.Json

/-- A token of a JSON text. -/
inductive Token where
  /-- A number, or one of the three words. -/
  | atom (value : Json)
  | text (s : String)
  | openList
  | closeList
  | openObject
  | closeObject
  | comma
  | colon

/-- The value of a hexadecimal digit. -/
def hexDigit? (c : Char) : Option Nat :=
  if c.isDigit then some (c.toNat - '0'.toNat)
  else if 'a' ≤ c ∧ c ≤ 'f' then some (c.toNat - 'a'.toNat + 10)
  else if 'A' ≤ c ∧ c ≤ 'F' then some (c.toNat - 'A'.toNat + 10)
  else none

/-- The value of some hexadecimal digits. -/
def hexValue? (digits : List Char) : Option Nat :=
  digits.foldlM (fun n c => (hexDigit? c).map (n * 16 + ·)) 0

/-- The character that a backslash and one more character stand for. -/
def simpleEscape? (c : Char) : Option Char :=
  if c = '\x22' ∨ c = '\\' ∨ c = '/' then some c
  else if c = 'b' then some '\x08'
  else if c = 'f' then some '\x0c'
  else if c = 'n' then some '\n'
  else if c = 'r' then some '\r'
  else if c = 't' then some '\t'
  else none

/-- The character of two units of which the first is the upper half of a pair. -/
def pairChar? (high low : Nat) : Option Char :=
  if 0xDC00 ≤ low ∧ low < 0xE000 then
    some (Char.ofNat (0x10000 + (high - 0xD800) * 0x400 + (low - 0xDC00)))
  else none

/-- Reads a quoted text up to its closing quote. -/
def readText : List Char → List Char → Option (List Char × List Char)
  | _, [] => none
  | done, '\\' :: 'u' :: a :: b :: c :: d :: rest =>
    match hexValue? [a, b, c, d] with
    | none => none
    | some unit =>
      if 0xD800 ≤ unit ∧ unit < 0xDC00 then
        match rest with
        | '\\' :: 'u' :: e :: f :: g :: h :: rest =>
          match (hexValue? [e, f, g, h]).bind (pairChar? unit) with
          | some char => readText (char :: done) rest
          | none => none
        | _ => none
      else if 0xDC00 ≤ unit ∧ unit < 0xE000 then none
      else readText (Char.ofNat unit :: done) rest
  | done, '\\' :: c :: rest =>
    match simpleEscape? c with
    | some char => readText (char :: done) rest
    | none => none
  | done, c :: rest =>
    if c = '\x22' then some (done.reverse, rest)
    else if c.toNat < 0x20 then none
    else readText (c :: done) rest

/-- A text that has been read leaves less than there was. -/
theorem readText_length {done text content rest : List Char}
    (h : readText done text = some (content, rest)) : rest.length < text.length := by
  fun_induction readText done text <;> simp_all <;> omega

/-- The characters of numbers and words. -/
def isAtomChar (c : Char) : Bool :=
  c.isAlphanum || c = '+' || c = '-' || c = '.'

/-- The parts of a number. -/
structure NumberText where
  negative : Bool
  whole : List Char
  /-- The digits after the point, if there is a point. -/
  fraction : Option (List Char)
  exponent : Option Int

/-- Reads the exponent of a number. -/
def exponentOf? (text : List Char) : Option (Option Int) :=
  let signed (sign : Int) (digits : List Char) :=
    if digits ≠ [] ∧ digits.all Char.isDigit then some (some (sign * Decimal.digitsValue digits))
    else none
  match text with
  | [] => some none
  | e :: rest =>
    if e = 'e' ∨ e = 'E' then
      match rest with
      | '-' :: digits => signed (-1) digits
      | '+' :: digits => signed 1 digits
      | digits => signed 1 digits
    else none

/-- Takes a number apart. The whole part has no leading zero, and a point has digits on both sides. -/
def NumberText.ofChars? (text : List Char) : Option NumberText :=
  let (negative, text) : Bool × List Char :=
    match text with
    | '-' :: rest => (true, rest)
    | _ => (false, text)
  let whole := text.takeWhile Char.isDigit
  let text := text.dropWhile Char.isDigit
  if whole = [] ∨ (whole.head? = some '0' ∧ 1 < whole.length) then none
  else
    match text with
    | '.' :: rest =>
      let fraction := rest.takeWhile Char.isDigit
      if fraction = [] then none
      else (exponentOf? (rest.dropWhile Char.isDigit)).map fun e => ⟨negative, whole, some fraction, e⟩
    | rest => (exponentOf? rest).map fun e => ⟨negative, whole, none, e⟩

/-- The floating-point number of a number text. -/
def NumberText.float? (t : NumberText) : Option Float :=
  let (significand, dropped) := Decimal.takeDigits 0 t.whole
  let fraction := t.fraction.getD []
  let (significand, left) := Decimal.takeDigits significand fraction
  let exponent := t.exponent.getD 0 + dropped - (fraction.length - left : Nat)
  (Decimal.scaled? significand exponent).map fun x => if t.negative then -x else x

/-- The value of a number text; an integer is one that has neither a point nor an exponent. -/
def NumberText.value? (t : NumberText) : Option Json :=
  let magnitude := Decimal.digitsValue t.whole
  let n : Int := if t.negative then -magnitude else magnitude
  if t.fraction = none ∧ t.exponent = none ∧ Json.leastInt ≤ n ∧ n ≤ Json.greatestInt
      ∧ ¬(t.negative ∧ n = 0) then
    some (.int n)
  else t.float?.map .float

/-- The value of a number or a word. -/
def atom? (text : List Char) : Option Json :=
  if text = ['n', 'u', 'l', 'l'] then some .null
  else if text = ['t', 'r', 'u', 'e'] then some (.bool true)
  else if text = ['f', 'a', 'l', 's', 'e'] then some (.bool false)
  else (NumberText.ofChars? text).bind NumberText.value?

/-- The mark that is a token of its own. -/
def mark? (c : Char) : Option Token :=
  if c = '[' then some .openList
  else if c = ']' then some .closeList
  else if c = '\x7b' then some .openObject
  else if c = '\x7d' then some .closeObject
  else if c = ',' then some .comma
  else if c = ':' then some .colon
  else none

/-- The tokens of a text. -/
def tokens? : List Char → Option (List Token)
  | [] => some []
  | c :: rest =>
    if c = ' ' ∨ c = '\t' ∨ c = '\n' ∨ c = '\r' then tokens? rest
    else if c = '\x22' then
      match _h : readText [] rest with
      | some (content, more) => (tokens? more).map (Token.text (String.ofList content) :: ·)
      | none => none
    else if isAtomChar c then
      match atom? (c :: rest.takeWhile isAtomChar) with
      | some value => (tokens? (rest.dropWhile isAtomChar)).map (Token.atom value :: ·)
      | none => none
    else
      match mark? c with
      | some token => (tokens? rest).map (token :: ·)
      | none => none
termination_by text => text.length
decreasing_by
  · simp
  · have := readText_length _h; simp only [List.length_cons]; omega
  · have := (List.dropWhile_suffix isAtomChar (l := rest)).length_le
    simp only [List.length_cons]; omega
  · simp

/-- A list or object that is still open, with what it has got so far. -/
inductive Frame where
  /-- The items, the last one first. -/
  | list (items : List Json)
  /-- The fields, the last one first, and the name of the field that a value is awaited for. -/
  | object (fields : List (String × Json)) (name : Option String)

/-- What may come next. -/
inductive Awaited where
  | value
  /-- A value, or the end of the list that has just been opened. -/
  | firstItem
  | name
  /-- A name, or the end of the object that has just been opened. -/
  | firstName
  | colon
  /-- A comma or the end of what is open; the end of the text if nothing is. -/
  | separator

/-- What has been read so far: the open lists and objects, innermost first, or the whole value. -/
structure Assembly where
  frames : List Frame
  value : Option Json
  awaited : Awaited

namespace Assembly

/-- Puts a value that is complete into what is open. -/
def put (frames : List Frame) (value : Json) : Assembly :=
  match frames with
  | [] => ⟨[], some value, .separator⟩
  | .list items :: outer => ⟨.list (value :: items) :: outer, none, .separator⟩
  | .object fields name :: outer =>
    ⟨.object ((name.getD "", value) :: fields) none :: outer, none, .separator⟩

/-- Takes one more token. -/
def add (a : Assembly) (token : Token) : Option Assembly :=
  match a.awaited, token, a.frames with
  | .value, .atom value, frames | .firstItem, .atom value, frames => some (put frames value)
  | .value, .text s, frames | .firstItem, .text s, frames => some (put frames (.text s))
  | .value, .openList, frames | .firstItem, .openList, frames =>
    some ⟨.list [] :: frames, none, .firstItem⟩
  | .value, .openObject, frames | .firstItem, .openObject, frames =>
    some ⟨.object [] none :: frames, none, .firstName⟩
  | .firstItem, .closeList, .list items :: outer | .separator, .closeList, .list items :: outer =>
    some (put outer (.list items.reverse))
  | .firstName, .closeObject, .object fields _ :: outer
  | .separator, .closeObject, .object fields _ :: outer =>
    some (put outer (.ofFields fields.reverse))
  | .name, .text s, .object fields _ :: outer | .firstName, .text s, .object fields _ :: outer =>
    some ⟨.object fields (some s) :: outer, none, .colon⟩
  | .colon, .colon, frames => some ⟨frames, none, .value⟩
  | .separator, .comma, .list items :: outer => some ⟨.list items :: outer, none, .value⟩
  | .separator, .comma, .object fields name :: outer =>
    some ⟨.object fields name :: outer, none, .name⟩
  | _, _, _ => none

end Assembly

/-- The value that a text stands for. -/
def parse? (text : String) : Option Json :=
  (tokens? text.toList).bind fun tokens =>
    (tokens.foldlM Assembly.add ⟨[], none, .value⟩).bind Assembly.value

end CodeAudit.Json
