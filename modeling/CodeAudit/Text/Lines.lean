import CodeAudit.Text.Blank
/-!
# Lines of a text

A line ends at a line feed, and a carriage return right before that line feed belongs to the break.
Text after the last line feed is a line of its own; nothing after it is none.
-/
namespace CodeAudit.Text

/-- The lines of a text, without their breaks. -/
def lines : List Char → List Line
  | [] => []
  | '\n' :: rest => [] :: lines rest
  | '\r' :: '\n' :: rest => [] :: lines rest
  | c :: rest =>
    match lines rest with
    | [] => [[c]]
    | line :: more => (c :: line) :: more

end CodeAudit.Text
