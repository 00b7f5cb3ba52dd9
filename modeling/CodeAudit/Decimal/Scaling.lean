/-!
# Reading decimals

A decimal is a significand and a power of ten. JSON numbers are read by way of a significand of at
most 64 bits, later digits being dropped, which is rounded to a floating-point number and then
multiplied with or divided by the power of ten, with a second rounding.
-/
namespace CodeAudit.Decimal

/-- A power of ten, rounded to the nearest number. -/
def powerOfTen (n : Nat) : Float :=
  Float.ofScientific 1 false n

/-- The greatest power of ten that is a finite number. -/
def greatestPower : Nat := 308

/-- Divides by a power of ten, in several steps if it is not a finite number. -/
def scaleDown (x : Float) (power : Nat) : Float :=
  if power ≤ greatestPower then x / powerOfTen power
  else if x == 0 then x
  else scaleDown (x / powerOfTen greatestPower) (power - greatestPower)
termination_by power
decreasing_by simp only [greatestPower] at *; omega

/-- The number `significand · 10 ^ exponent`, if it is finite. -/
def scaled? (significand : Nat) (exponent : Int) : Option Float :=
  let x := significand.toUInt64.toFloat
  if exponent < 0 then some (scaleDown x exponent.natAbs)
  else if x == 0 then some x
  else if greatestPower < exponent.toNat then none
  else
    let y := x * powerOfTen exponent.toNat
    if y.isFinite then some y else none

/-- Takes digits to a significand as long as it has 64 bits, and counts those that are left out. -/
def takeDigits (significand : Nat) : List Char → Nat × Nat
  | [] => (significand, 0)
  | d :: rest =>
    let more := significand * 10 + (d.toNat - '0'.toNat)
    if more < Nat.pow 2 64 then takeDigits more rest else (significand, rest.length + 1)

/-- The value of some decimal digits. -/
def digitsValue (digits : List Char) : Nat :=
  digits.foldl (fun n d => n * 10 + (d.toNat - '0'.toNat)) 0

end CodeAudit.Decimal
