import CodeAudit.Digest.Blake3
import CodeAudit.Text.Lines
/-!
# Windows of lines

A window is a number of consecutive lines. Its text is the trimmed lines with a line feed between
them, and its hash is the BLAKE3 hash of that text: two windows that differ only in the blanks
around their lines have one hash.
-/
namespace CodeAudit.Duplicate

/-- The text that stands for a window. -/
def windowText (window : List Text.Line) : List Char :=
  List.intercalate ['\n'] (window.map Text.trim)

/-- The hash of a window. -/
def windowHash (window : List Text.Line) : String :=
  Blake3.hashText (windowText window)

/-- The lines from `start` on that a window of `size` lines holds. -/
def windowAt (lines : List Text.Line) (size start : Nat) : List Text.Line :=
  (lines.drop start).take size

/-- Where the windows of `size` lines start; there are none if the lines are too few. -/
def windowStarts (lines : List Text.Line) (size : Nat) : List Nat :=
  if lines.length < size then [] else List.range (lines.length - size + 1)

/-- The starts of the windows that are looked at: those with a line that is not blank. -/
def scannedStarts (lines : List Text.Line) (size : Nat) : List Nat :=
  (windowStarts lines size).filter fun start =>
    !(windowAt lines size start).all Text.isBlankLine

end CodeAudit.Duplicate
