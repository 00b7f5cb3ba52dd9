import CodeAudit.Text.Blank
/-!
# Searching a text
-/
namespace CodeAudit.Text

/-- Whether a text occurs somewhere in another one. -/
def occursIn (part : List Char) : List Char → Bool
  | [] => part.isEmpty
  | c :: rest => part.isPrefixOf (c :: rest) || occursIn part rest

/-- A text with the ASCII letters in lower case. -/
def lower (text : List Char) : List Char :=
  text.map Char.toLower

end CodeAudit.Text
