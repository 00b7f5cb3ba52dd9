import CodeAudit.Decimal.Binary
/-!
# Shortest digits

The fewest decimal digits that read back as the same number. A decimal reads back as a number when
it lies among the reals that round to it; the grids of the powers of ten are tried from coarse to
fine, and on the first grid with a point in that interval the one nearest to the number is taken.

Two layouts write such digits. The plain one never has an exponent and has a point only where digits
follow; a number halfway between two points of the grid goes to the greater of them. The one of JSON
texts always shows that the number is no integer, and uses an exponent for what is very large or very
small; a number halfway between two points goes to the even one.
-/
namespace CodeAudit.Decimal

/-- The number `digits · 10 ^ exponent`. -/
structure Scaled where
  digits : Nat
  exponent : Int
deriving DecidableEq, Repr

/-- The reals that round to a positive number, in units of a quarter of its last binary place. -/
structure Interval where
  low : Nat
  value : Nat
  high : Nat
  /-- Whether the ends belong to the interval. -/
  closed : Bool
  /-- The power of two of the unit. -/
  exponent : Int
deriving DecidableEq, Repr

/-- The interval of a positive number. Below a power of two the neighbours are twice as near. -/
def Interval.of (b : Binary) : Interval where
  low :=
    4 * b.significand -
      if b.significand = leastNormal ∧ leastExponent < b.exponent then 1 else 2
  value := 4 * b.significand
  high := 4 * b.significand + 2
  closed := b.significand % 2 == 0
  exponent := b.exponent - 2

/--
What the points of a grid have to be multiplied with, and what the ends of the interval have to be
multiplied with, for the two to be compared as integers.
-/
def Interval.factors (i : Interval) (grid : Int) : Nat × Nat :=
  (Nat.pow 10 grid.toNat * Nat.pow 2 (-i.exponent).toNat,
    Nat.pow 2 i.exponent.toNat * Nat.pow 10 (-grid).toNat)

/-- Whether a point of a grid lies in the interval. -/
def Interval.has (i : Interval) (grid : Int) (point : Nat) : Bool :=
  let (f, g) := i.factors grid
  if i.closed then i.low * g ≤ point * f && point * f ≤ i.high * g
  else i.low * g < point * f && point * f < i.high * g

/-- Which of two points a value halfway between them goes to. -/
inductive Ties where
  | toEven
  | toGreater
deriving DecidableEq, Repr

/-- Whether a value halfway between a point and the next one goes to the first of them. -/
def Ties.keep (ties : Ties) (point : Nat) : Bool :=
  match ties with
  | toEven => point % 2 == 0
  | toGreater => false

/-- The point of a grid in the interval that is nearest to its value, if the grid has one there. -/
def Interval.nearest? (i : Interval) (ties : Ties) (grid : Int) : Option Nat :=
  let (f, g) := i.factors grid
  let below := i.value * g / f
  let rest := i.value * g % f
  match i.has grid below, i.has grid (below + 1) with
  | true, true =>
    if 2 * rest < f ∨ (2 * rest = f ∧ ties.keep below) then some below else some (below + 1)
  | true, false => some below
  | false, true => some (below + 1)
  | false, false => none

/-- Tries `count` grids, the coarsest first. -/
def Interval.search (i : Interval) (ties : Ties) : Nat → Int → Option Scaled
  | 0, _ => none
  | count + 1, grid =>
    match i.nearest? ties grid with
    | some digits => some ⟨digits, grid⟩
    | none => i.search ties count (grid - 1)

/-- A grid that is too coarse to have a point in the interval of a number. -/
def coarseGrid (b : Binary) : Int :=
  ((b.significand.log2 + 1 : Int) + b.exponent) * 30103 / 100000 + 2

/-- The shortest digits of a number; 17 digits are enough for every number. -/
def Binary.shortest (b : Binary) (ties : Ties) : Scaled :=
  if b.significand = 0 then ⟨0, 0⟩
  else ((Interval.of b).search ties 22 (coarseGrid b)).getD ⟨0, 0⟩

/-- The decimal digits of a scaled number. -/
def Scaled.text (s : Scaled) : List Char :=
  Nat.toDigits 10 s.digits

/-- The place of the point, counted from the first digit. -/
def Scaled.point (s : Scaled) : Int :=
  s.text.length + s.exponent

/-- Digits with the point after `point` of them, filled up with zeros. -/
def withPoint (digits : List Char) (point : Int) : List Char :=
  if point ≤ 0 then ['0', '.'] ++ List.replicate (-point).toNat '0' ++ digits
  else if digits.length ≤ point.toNat then
    digits ++ List.replicate (point.toNat - digits.length) '0'
  else digits.take point.toNat ++ '.' :: digits.drop point.toNat

/-- The plain layout. -/
def plain (x : Float) : String :=
  match Shape.of x with
  | .finite b =>
    let s := b.shortest .toGreater
    let digits := if s.digits = 0 then ['0'] else withPoint s.text s.point
    signText b.negative ++ String.ofList digits
  | .infinite negative => infiniteText negative
  | .nan => nanText

/-- Where a layout changes from a point to an exponent. -/
structure PointRange where
  /-- The least place of the point that is written out. -/
  least : Int
  /-- The greatest place of the point that is written out. -/
  greatest : Int

/-- JSON texts write numbers from `0.00001` up to below `10 ^ 16` without an exponent. -/
def jsonRange : PointRange := ⟨-4, 16⟩

/-- An exponent: a sign and its digits. -/
def exponentText (e : Int) : List Char :=
  'e' :: (if e < 0 then '-' else '+') :: Nat.toDigits 10 e.natAbs

/-- The digits of a number in the layout of JSON texts. -/
def jsonDigits (s : Scaled) : List Char :=
  let digits := s.text
  let point := s.point
  if jsonRange.least ≤ point ∧ point ≤ jsonRange.greatest then
    let written := withPoint digits point
    if (digits.length : Int) ≤ point then written ++ ['.', '0'] else written
  else
    match digits with
    | [] => []
    | [first] => first :: exponentText (point - 1)
    | first :: more => first :: '.' :: more ++ exponentText (point - 1)

/-- The layout of JSON texts. -/
def json (x : Float) : String :=
  match Shape.of x with
  | .finite b =>
    let s := b.shortest .toEven
    signText b.negative ++ String.ofList (if s.digits = 0 then ['0', '.', '0'] else jsonDigits s)
  | .infinite negative => infiniteText negative
  | .nan => nanText

end CodeAudit.Decimal
