import CodeAudit.Json.Parse
import CodeAudit.Toml.Reader
/-!
# Texts in TOML

Four ways to write a text: in double quotes with escapes or in single quotes without, on one line or,
with the quotes written three times, on several. A line break in a text of several lines counts as a
line feed, and one right after the opening quotes is not part of the text.
-/
namespace CodeAudit.Toml

/-- The character with a number, if it is one. -/
def charOfNat? (n : Nat) : Option Char :=
  if n < 0xD800 ∨ (0xE000 ≤ n ∧ n < 0x110000) then some (Char.ofNat n) else none

/-- The character that a backslash and one more character stand for. -/
def shortEscape? (c : Char) : Option Char :=
  if c = 'b' then some '\x08'
  else if c = 't' then some '\t'
  else if c = 'n' then some '\n'
  else if c = 'f' then some '\x0c'
  else if c = 'r' then some '\r'
  else if c = '\x22' ∨ c = '\\' then some c
  else none

/-- Reads what follows a backslash. -/
def escape? : List Char → Option (Char × List Char)
  | 'u' :: a :: b :: c :: d :: rest =>
    ((Json.hexValue? [a, b, c, d]).bind charOfNat?).map (·, rest)
  | 'U' :: a :: b :: c :: d :: e :: f :: g :: h :: rest =>
    ((Json.hexValue? [a, b, c, d, e, f, g, h]).bind charOfNat?).map (·, rest)
  | c :: rest => (shortEscape? c).map (·, rest)
  | [] => none

/-- What is left after a backslash at the end of a line: all blanks and line breaks are passed over. -/
def continued? (text : List Char) : Option (List Char) :=
  let rest := text.dropWhile fun c => c = ' ' ∨ c = '\t'
  let broken :=
    match rest with
    | '\n' :: _ => true
    | '\r' :: '\n' :: _ => true
    | _ => false
  if broken then some (passOver rest.length rest) else none
where
  /-- Passes over blanks and line breaks. -/
  passOver : Nat → List Char → List Char
    | 0, text => text
    | fuel + 1, text =>
      match text with
      | ' ' :: rest | '\t' :: rest | '\n' :: rest | '\r' :: '\n' :: rest => passOver fuel rest
      | _ => text

/-- How a text is written. -/
structure TextStyle where
  quote : Char
  escapes : Bool
  severalLines : Bool

/-- The quotes that close a text. -/
def TextStyle.closing (s : TextStyle) : List Char :=
  List.replicate (if s.severalLines then 3 else 1) s.quote

/-- Reads a text up to its closing quotes; each step uses up at least one character. -/
def readBody (s : TextStyle) : Nat → List Char → List Char → Option (List Char × List Char)
  | 0, _, _ => none
  | fuel + 1, done, text =>
    if s.closing.isPrefixOf text then
      -- in a text of several lines up to two quotes may stand right before the closing ones
      let run := if s.severalLines then (text.takeWhile (· == s.quote)).length else 1
      let more := run - s.closing.length
      if more ≤ 2 then some (done.reverse ++ List.replicate more s.quote, text.drop run) else none
    else
      match text with
      | [] => none
      | '\r' :: '\n' :: rest => if s.severalLines then readBody s fuel ('\n' :: done) rest else none
      | '\n' :: rest => if s.severalLines then readBody s fuel ('\n' :: done) rest else none
      | c :: rest =>
        if c = '\\' ∧ s.escapes then
          match (if s.severalLines then continued? rest else none) with
          | some rest => readBody s fuel done rest
          | none =>
            match escape? rest with
            | some (char, rest) => readBody s fuel (char :: done) rest
            | none => none
        else if Reader.isPlain c then readBody s fuel (c :: done) rest
        else none

/-- Reads a text whose style is known. -/
def styledText (s : TextStyle) : Reader (List Char) := do
  Reader.expect s.closing
  if s.severalLines then
    let _ ← Reader.acceptNewline
  let text ← get
  match readBody s (text.length + 1) [] text with
  | some (content, rest) =>
    set rest
    return content
  | none => failure

/-- Reads a text that is written on one line. -/
def lineText : Reader (List Char) := do
  match ← Reader.peek with
  | some '\x22' => styledText ⟨'\x22', true, false⟩
  | some '\x27' => styledText ⟨'\x27', false, false⟩
  | _ => failure

/-- Reads a text. -/
def text : Reader (List Char) := do
  match ← get with
  | '\x22' :: '\x22' :: '\x22' :: _ => styledText ⟨'\x22', true, true⟩
  | '\x27' :: '\x27' :: '\x27' :: _ => styledText ⟨'\x27', false, true⟩
  | _ => lineText

end CodeAudit.Toml
