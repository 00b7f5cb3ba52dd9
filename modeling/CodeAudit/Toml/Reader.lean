/-!
# Reading a text from left to right

A reader takes a part off the front of a text, or fails.
-/
namespace CodeAudit.Toml

/-- Takes a part off the front of a text. -/
abbrev Reader (α : Type) := StateT (List Char) Option α

namespace Reader

/-- The next character, which stays where it is. -/
def peek : Reader (Option Char) := do
  return (← get).head?

/-- Takes the given characters off. -/
def expect (front : List Char) : Reader Unit := do
  let text ← get
  if front.isPrefixOf text then set (text.drop front.length) else failure

/-- Takes the given characters off if they are next. -/
def accept (front : List Char) : Reader Bool := do
  let text ← get
  if front.isPrefixOf text then
    set (text.drop front.length)
    return true
  else return false

/-- Takes off all characters at the front that pass a test. -/
def takeWhile (test : Char → Bool) : Reader (List Char) := do
  let text ← get
  set (text.dropWhile test)
  return text.takeWhile test

/-- Passes over spaces and tabs. -/
def spaces : Reader Unit :=
  modify (·.dropWhile fun c => c = ' ' ∨ c = '\t')

/-- Takes off the end of a line if it is next. -/
def acceptNewline : Reader Bool := do
  if ← accept ['\n'] then return true else accept ['\r', '\n']

/-- Characters that may stand in comments and in texts: no control character but the tab. -/
def isPlain (c : Char) : Bool :=
  c = '\t' || (0x20 ≤ c.toNat && c.toNat != 0x7F)

/-- Passes over a comment if one is next. -/
def comment : Reader Unit := do
  if (← peek) = some '#' then
    let _ ← takeWhile isPlain

/-- Ends a line: blanks, a comment, and the break or the end of the text. -/
def endLine : Reader Unit := do
  spaces
  comment
  if (← get).isEmpty then return
  unless ← acceptNewline do failure

end Reader

end CodeAudit.Toml
