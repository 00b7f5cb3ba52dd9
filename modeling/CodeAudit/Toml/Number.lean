import CodeAudit.Decimal.Scaling
import CodeAudit.Json.Parse
/-!
# Numbers in TOML

Integers have 64 bits and a sign and may be written with base 16, 8 or 2; floating-point numbers have
a point or an exponent, or are one of the words for infinity and for no number. Underscores may stand
between digits. A word is what stands between two characters that no number has.
-/
namespace CodeAudit.Toml

/-- Takes the underscores out of digits; each has to stand between two of them. -/
def plainDigits? (isDigit : Char → Bool) : List Char → Option (List Char)
  | [] => none
  | [c] => if isDigit c then some [c] else none
  | c :: '_' :: rest => if isDigit c then (plainDigits? isDigit rest).map (c :: ·) else none
  | c :: rest => if isDigit c then (plainDigits? isDigit rest).map (c :: ·) else none

/-- A word without its sign, and whether that is a minus. -/
def splitSign : List Char → Bool × List Char
  | '-' :: rest => (true, rest)
  | '+' :: rest => (false, rest)
  | word => (false, word)

/-- The value of digits in a base. -/
def valueIn (base : Nat) (digits : List Char) : Nat :=
  digits.foldl (fun n c => n * base + (Json.hexDigit? c).getD 0) 0

/-- A digit of a base of at most sixteen. -/
def isDigitIn (base : Nat) (c : Char) : Bool :=
  match Json.hexDigit? c with
  | some value => value < base
  | none => false

/-- The digits of a decimal integer: no zero stands before another digit. -/
def decimalDigits? (word : List Char) : Option (List Char) :=
  match plainDigits? Char.isDigit word with
  | some ('0' :: _ :: _) => none
  | digits => digits

/-- The integers that can be held. -/
def inRange? (n : Int) : Option Int :=
  if -Int.pow 2 63 ≤ n ∧ n < Int.pow 2 63 then some n else none

/-- The integer that a word stands for. -/
def integer? (word : List Char) : Option Int :=
  let inBase (base : Nat) (digits : List Char) :=
    (plainDigits? (isDigitIn base) digits).bind fun digits => inRange? (valueIn base digits)
  match word with
  | '0' :: 'x' :: digits => inBase 16 digits
  | '0' :: 'o' :: digits => inBase 8 digits
  | '0' :: 'b' :: digits => inBase 2 digits
  | _ =>
    let (negative, digits) := splitSign word
    (decimalDigits? digits).bind fun digits =>
      let n : Int := valueIn 10 digits
      inRange? (if negative then -n else n)

/-- The exponent at the end of a floating-point number. -/
def exponent? (word : List Char) : Option Int :=
  match word with
  | [] => some 0
  | e :: rest =>
    if e = 'e' ∨ e = 'E' then
      let (negative, digits) := splitSign rest
      (plainDigits? Char.isDigit digits).map fun digits =>
        let n : Int := valueIn 10 digits
        if negative then -n else n
    else none

/-- The greatest power of ten that matters; beyond it a number is infinite or zero anyway. -/
def exponentLimit : Nat := 100000

/-- The number nearest to `significand · 10 ^ exponent`. -/
def nearest (significand : Nat) (exponent : Int) : Float :=
  Float.ofScientific significand (exponent < 0) (min exponent.natAbs exponentLimit)

/-- The characters of the digits before a point or an exponent. -/
def isDigitOrBar (c : Char) : Bool :=
  c.isDigit || c == '_'

/-- The floating-point number that a word stands for. -/
def float? (word : List Char) : Option Float :=
  let (negative, rest) := splitSign word
  let signed (x : Float) : Float := if negative then -x else x
  if rest = ['i', 'n', 'f'] then some (signed (1 / 0))
  else if rest = ['n', 'a', 'n'] then some (signed (0 / 0))
  else
    let whole := rest.takeWhile isDigitOrBar
    let tail := rest.dropWhile isDigitOrBar
    let make (whole fraction : List Char) (exponent : Int) : Option Float :=
      let x := signed (nearest (valueIn 10 (whole ++ fraction)) (exponent - fraction.length))
      -- a positive number that is too great is refused
      if x.isInf ∧ !negative then none else some x
    match decimalDigits? whole, tail with
    | some whole, '.' :: tail =>
      let fraction := tail.takeWhile isDigitOrBar
      match plainDigits? Char.isDigit fraction, exponent? (tail.dropWhile isDigitOrBar) with
      | some fraction, some exponent => make whole fraction exponent
      | _, _ => none
    | some whole, e :: tail => (exponent? (e :: tail)).bind (make whole [])
    | _, _ => none

end CodeAudit.Toml
