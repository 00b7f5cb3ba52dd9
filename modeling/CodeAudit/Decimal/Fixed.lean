import CodeAudit.Decimal.Binary
/-!
# Fixed places

A number written with a given number of places after the point. The digits are those of the exact
value of the number, rounded to the nearest; of two nearest, the even one is taken.
-/
namespace CodeAudit.Decimal

/-- The quotient rounded to the nearest integer; a tie goes to the even one. -/
def roundDiv (num den : Nat) : Nat :=
  let quotient := num / den
  let rest := num % den
  if 2 * rest < den then quotient
  else if den < 2 * rest then quotient + 1
  else if quotient % 2 = 0 then quotient
  else quotient + 1

/-- The magnitude of a number in units of the last of `places` decimal places. -/
def Binary.units (b : Binary) (places : Nat) : Nat :=
  roundDiv (b.significand * Nat.pow 10 places * Nat.pow 2 b.exponent.toNat)
    (Nat.pow 2 (-b.exponent).toNat)

/-- Puts zeros before a text that is too short. -/
def padLeft (width : Nat) (digits : List Char) : List Char :=
  List.replicate (width - digits.length) '0' ++ digits

/-- The text of a number of units of the last of `places` decimal places. -/
def unitsText (places units : Nat) : String :=
  let digits := padLeft (places + 1) (Nat.toDigits 10 units)
  let whole := digits.take (digits.length - places)
  let rest := digits.drop (digits.length - places)
  String.ofList (if places = 0 then whole else whole ++ '.' :: rest)

/-- The text of a number with a fixed number of places after the point. -/
def fixed (places : Nat) (x : Float) : String :=
  match Shape.of x with
  | .finite b => signText b.negative ++ unitsText places (b.units places)
  | .infinite negative => infiniteText negative
  | .nan => nanText

end CodeAudit.Decimal
