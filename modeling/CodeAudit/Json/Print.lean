import CodeAudit.Json.Basic
/-!
# Writing JSON texts

Two layouts: the compact one has no blanks, the indented one gives each item and each field a line.
In a quoted text the quote, the backslash and the control characters are escaped and all else is
written as it is.
-/
namespace CodeAudit.Json

/-- The escape of a character in a quoted text. -/
def escape (c : Char) : List Char :=
  if c = '\x22' then ['\\', '\x22']
  else if c = '\\' then ['\\', '\\']
  else if c = '\x08' then ['\\', 'b']
  else if c = '\x0c' then ['\\', 'f']
  else if c = '\n' then ['\\', 'n']
  else if c = '\r' then ['\\', 'r']
  else if c = '\t' then ['\\', 't']
  else if c.toNat < 0x20 then
    ['\\', 'u', '0', '0', (c.toNat / 16).digitChar, (c.toNat % 16).digitChar]
  else [c]

/-- A text in quotes. -/
def quote (s : String) : String :=
  String.ofList ('\x22' :: s.toList.flatMap escape ++ ['\x22'])

/-- How floating-point numbers are written. -/
abbrev FloatText := Float → String

/-- A number that is not finite has no text of its own. -/
def floatText (x : Float) : String :=
  if x.isFinite then Decimal.json x else "null"

mutual

/-- The compact text of a value. -/
def compactWith (floats : FloatText) : Json → String
  | null => "null"
  | bool b => if b then "true" else "false"
  | int n => toString n
  | float x => floats x
  | text s => quote s
  | list items => "[" ++ ",".intercalate (compactItems floats items) ++ "]"
  | object fields => "\x7b" ++ ",".intercalate (compactFields floats fields) ++ "\x7d"

/-- The compact texts of the items of a list. -/
def compactItems (floats : FloatText) : List Json → List String
  | [] => []
  | item :: rest => compactWith floats item :: compactItems floats rest

/-- The compact texts of the fields of an object. -/
def compactFields (floats : FloatText) : List (String × Json) → List String
  | [] => []
  | (name, value) :: rest =>
    (quote name ++ ":" ++ compactWith floats value) :: compactFields floats rest

end

/-- The compact text of a value. -/
def compact (value : Json) : String :=
  compactWith floatText value

/-- The blanks at the start of a line. -/
def indent (depth : Nat) : String :=
  String.ofList (List.replicate (2 * depth) ' ')

/-- Items on lines of their own, between two brackets. -/
def bracketed (opening closing : String) (depth : Nat) (items : List String) : String :=
  if items.isEmpty then opening ++ closing
  else
    opening ++ "\n" ++ ",\n".intercalate (items.map (indent (depth + 1) ++ ·)) ++ "\n" ++ indent depth
      ++ closing

mutual

/-- The indented text of a value that stands at a depth. -/
def indentedAt (depth : Nat) : Json → String
  | null => "null"
  | bool b => if b then "true" else "false"
  | int n => toString n
  | float x => floatText x
  | text s => quote s
  | list items => bracketed "[" "]" depth (indentedItems depth items)
  | object fields => bracketed "\x7b" "\x7d" depth (indentedFields depth fields)

/-- The indented texts of the items of a list. -/
def indentedItems (depth : Nat) : List Json → List String
  | [] => []
  | item :: rest => indentedAt (depth + 1) item :: indentedItems depth rest

/-- The indented texts of the fields of an object. -/
def indentedFields (depth : Nat) : List (String × Json) → List String
  | [] => []
  | (name, value) :: rest =>
    (quote name ++ ": " ++ indentedAt (depth + 1) value) :: indentedFields depth rest

end

/-- The indented text of a value. -/
def indented (value : Json) : String :=
  indentedAt 0 value

end CodeAudit.Json
