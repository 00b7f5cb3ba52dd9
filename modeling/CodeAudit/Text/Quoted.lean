import CodeAudit.Text.Visible
/-!
# Quoted texts in messages

A text that a message quotes stands in double quotes. Quotes and backslashes have a backslash before
them, four control characters have short escapes, and every other character that is not visible is
written by its number in hexadecimal digits, in braces.
-/
namespace CodeAudit.Text

/-- A character inside a quoted text. -/
def escapeQuoted (c : Char) : List Char :=
  if c = '\x00' then ['\\', '0']
  else if c = '\t' then ['\\', 't']
  else if c = '\r' then ['\\', 'r']
  else if c = '\n' then ['\\', 'n']
  else if c = '\x22' ∨ c = '\\' then ['\\', c]
  else if isVisible c then [c]
  else ['\\', 'u', '\x7b'] ++ Nat.toDigits 16 c.toNat ++ ['\x7d']

/-- A text as a message quotes it. -/
def quoted (s : String) : String :=
  String.ofList ('\x22' :: s.toList.flatMap escapeQuoted ++ ['\x22'])

/-- A list of texts as a message quotes it. -/
def quotedList (items : List String) : String :=
  "[" ++ ", ".intercalate (items.map quoted) ++ "]"

end CodeAudit.Text
