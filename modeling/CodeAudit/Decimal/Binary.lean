/-!
# Binary fractions

A finite floating-point number is a sign, a significand and a power of two. Everything that is
written of a number is computed from these in exact arithmetic.
-/
namespace CodeAudit.Decimal

/-- The number `significand · 2 ^ exponent`, with a sign. -/
structure Binary where
  negative : Bool
  significand : Nat
  exponent : Int
deriving DecidableEq, Repr

/-- What a floating-point number is. -/
inductive Shape where
  | finite (b : Binary)
  | infinite (negative : Bool)
  | nan
deriving DecidableEq, Repr

/-- The least exponent a number can have, that of the numbers below `2 ^ -1022`. -/
def leastExponent : Int := -1074

/-- The least significand of a number that is not among the smallest. -/
def leastNormal : Nat := Nat.pow 2 52

/-- Reads the shape of a number off its 64 bits. -/
def Shape.ofBits (bits : Nat) : Shape :=
  let negative := bits / Nat.pow 2 63 % 2 == 1
  let biased := bits / Nat.pow 2 52 % 2048
  let fraction := bits % Nat.pow 2 52
  if biased = 2047 then
    if fraction = 0 then .infinite negative else .nan
  else if biased = 0 then .finite ⟨negative, fraction, leastExponent⟩
  else .finite ⟨negative, leastNormal + fraction, leastExponent + (biased - 1 : Nat)⟩

/-- The shape of a number. -/
def Shape.of (x : Float) : Shape :=
  Shape.ofBits x.toBits.toNat

/-- The sign a number is written with. -/
def signText (negative : Bool) : String :=
  if negative then "-" else ""

/-- The text of a number that is not finite. -/
def infiniteText (negative : Bool) : String :=
  signText negative ++ "inf"

/-- The text of what is no number. -/
def nanText : String := "NaN"

end CodeAudit.Decimal
