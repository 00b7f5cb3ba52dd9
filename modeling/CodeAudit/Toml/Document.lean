import CodeAudit.Toml.Moment
import CodeAudit.Toml.Number
import CodeAudit.Toml.Table
import CodeAudit.Toml.Text
/-!
# TOML documents

Reads a document of TOML 1.0 as a JSON value. Infinities and what is no number become null, and a
date or time becomes an object with its written form in one field.
-/
namespace CodeAudit.Toml

/-- The name of the field that holds the written form of a date or time. -/
def momentField : String := "$__toml_private_datetime"

/-- A character of a name without quotes. -/
def isNameChar (c : Char) : Bool :=
  c.isAlphanum || c == '_' || c == '-'

/-- Reads one part of a name. -/
def namePart : Reader String := do
  match ← Reader.peek with
  | some c =>
    if c = '\x22' ∨ c = '\x27' then return String.ofList (← lineText)
    else
      let name ← Reader.takeWhile isNameChar
      if name.isEmpty then failure
      return String.ofList name
  | none => failure

/-- Reads the parts of a name after the first one. -/
def moreParts : Nat → Reader (List String)
  | 0 => failure
  | fuel + 1 => do
    Reader.spaces
    if ← Reader.accept ['.'] then
      Reader.spaces
      let part ← namePart
      return part :: (← moreParts fuel)
    else return []

/-- How many parts a name may have, and how many lists and tables may be open in a value at once. -/
def nestingLimit : Nat := 79

/-- Reads a name: the tables it leads through, and its last part. -/
def name : Reader (List String × String) := do
  Reader.spaces
  let first ← namePart
  let parts := first :: (← moreParts ((← get).length + 1))
  unless parts.length ≤ nestingLimit do failure
  return (parts.dropLast, parts.getLast?.getD first)

/-- A character of a number or a word. -/
def isWordChar (c : Char) : Bool :=
  isNameChar c || c == '+' || c == '.'

/-- The value of a floating-point number. -/
def floatJson (x : Float) : Json :=
  .ofFloat x

/-- Reads a value that is neither a text nor made of values. -/
def word : Reader Json := do
  let text ← get
  match moment? text with
  | some (form, rest) =>
    set rest
    return .ofFields [(momentField, .text (String.ofList form))]
  | none =>
    let word ← Reader.takeWhile isWordChar
    if word = ['t', 'r', 'u', 'e'] then return .bool true
    else if word = ['f', 'a', 'l', 's', 'e'] then return .bool false
    else
      match integer? word, float? word with
      | some n, _ => return .int n
      | none, some x => return floatJson x
      | none, none => failure

/-- Passes over blanks, comments and line breaks. -/
def gaps : Nat → Reader Unit
  | 0 => failure
  | fuel + 1 => do
    Reader.spaces
    Reader.comment
    if ← Reader.acceptNewline then gaps fuel

/-- Reads the items of a list and its closing bracket; `read` reads an item. -/
def items (read : Reader Json) : Nat → Reader (List Json)
  | 0 => failure
  | fuel + 1 => do
    gaps ((← get).length + 1)
    if ← Reader.accept [']'] then return []
    else
      let first ← read
      gaps ((← get).length + 1)
      if ← Reader.accept [','] then return first :: (← items read fuel)
      else
        Reader.expect [']']
        return [first]

/-- Reads the names and values of a table in braces, and its closing brace; `read` reads a value. -/
def pairs (read : Reader Json) : Nat → Entries → Reader Entries
  | 0, _ => failure
  | fuel + 1, entries => do
    let (path, last) ← name
    Reader.spaces
    Reader.expect ['=']
    Reader.spaces
    let v ← read
    Reader.spaces
    match entries.assign path last v with
    | none => failure
    | some entries =>
      if ← Reader.accept [','] then pairs read fuel entries
      else
        Reader.expect ['\x7d']
        return entries

/-- Reads a value that is not made of values. -/
def scalar : Reader Json := do
  match ← Reader.peek with
  | some c =>
    if c = '\x22' ∨ c = '\x27' then return .text (String.ofList (← text))
    else word
  | none => failure

/-- Reads a value in which `depth` lists and tables may be open at once. -/
def value : Nat → Reader Json
  | 0 => scalar
  | depth + 1 => do
    let fuel := (← get).length
    if ← Reader.accept ['['] then return .list (← items (value depth) fuel)
    else if ← Reader.accept ['\x7b'] then
      Reader.spaces
      if ← Reader.accept ['\x7d'] then return .ofFields []
      else return (Item.table .header (← pairs (value depth) fuel [])).toJson
    else scalar

/-- A document that has been read in part: its tables, and the way to the open one. -/
structure Draft where
  entries : Entries
  /-- The names that lead to the open table. -/
  place : List String

/-- Reads a header or a line with a name and a value. -/
def line (d : Draft) : Reader Draft := do
  if ← Reader.accept ['[', '['] then
    let (path, last) ← name
    Reader.spaces
    Reader.expect [']', ']']
    match d.entries.appendTable path last with
    | some entries => return ⟨entries, path ++ [last]⟩
    | none => failure
  else if ← Reader.accept ['['] then
    let (path, last) ← name
    Reader.spaces
    Reader.expect [']']
    match d.entries.openTable path last with
    | some entries => return ⟨entries, path ++ [last]⟩
    | none => failure
  else
    let (path, last) ← name
    Reader.spaces
    Reader.expect ['=']
    Reader.spaces
    let v ← value nestingLimit
    match d.entries.descend d.place (·.assign path last v) with
    | some entries => return { d with entries }
    | none => failure

/-- Reads lines to the end of the text. -/
def lines : Nat → Draft → Reader Draft
  | 0, _ => failure
  | fuel + 1, d => do
    gaps ((← get).length + 1)
    if (← get).isEmpty then return d
    else
      let d ← line d
      Reader.endLine
      lines fuel d

/-- The value that a document stands for. -/
def parse? (document : String) : Option Json :=
  let text :=
    match document.toList with
    | '\uFEFF' :: rest => rest
    | text => text
  ((lines (text.length + 1) ⟨[], []⟩).run text).map fun (d, _) =>
    (Item.table .header d.entries).toJson

end CodeAudit.Toml
