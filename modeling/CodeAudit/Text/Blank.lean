/-!
# Blank characters

White space is the Unicode property `White_Space`: 25 code points. A line is blank when all of its
characters are, and trimming takes the blank characters off both ends of a line.
-/
namespace CodeAudit.Text

/-- A text cut into characters: a line of a source, or a part of one. -/
abbrev Line := List Char

/-- The characters with the Unicode property `White_Space`. -/
def isBlank (c : Char) : Bool :=
  let n := c.toNat
  (0x09 ≤ n && n ≤ 0x0D) || n == 0x20 || n == 0x85 || n == 0xA0 || n == 0x1680
    || (0x2000 ≤ n && n ≤ 0x200A) || n == 0x2028 || n == 0x2029 || n == 0x202F
    || n == 0x205F || n == 0x3000

/-- Takes the blank characters off the end. -/
def trimEnd : Line → Line
  | [] => []
  | c :: rest =>
    match trimEnd rest with
    | [] => if isBlank c then [] else [c]
    | kept => c :: kept

/-- Takes the blank characters off both ends. -/
def trim (line : Line) : Line :=
  trimEnd (line.dropWhile isBlank)

/-- A line of blank characters only, the empty line included. -/
def isBlankLine (line : Line) : Bool :=
  line.all isBlank

end CodeAudit.Text
