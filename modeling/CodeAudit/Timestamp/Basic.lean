/-!
# Timestamps

A moment in universal time: the seconds since the start of 1970 and the nanoseconds after that
second. A leap second is the second before it with another thousand million nanoseconds.
Dates are those of the Gregorian calendar, also before it was in use.
-/
namespace CodeAudit

/-- A moment in universal time. -/
structure Timestamp where
  seconds : Int
  nanos : Nat
deriving DecidableEq, Repr, Inhabited

/-- A day of the calendar. -/
structure Date where
  year : Int
  month : Nat
  day : Nat
deriving DecidableEq, Repr

namespace Date

def isLeapYear (year : Int) : Bool :=
  year % 4 == 0 && (year % 100 != 0 || year % 400 == 0)

def daysInMonth (year : Int) (month : Nat) : Nat :=
  if month = 2 then (if isLeapYear year then 29 else 28)
  else if month ∈ [4, 6, 9, 11] then 30
  else 31

/-- Whether the day exists. -/
def isValid (d : Date) : Bool :=
  1 ≤ d.month && d.month ≤ 12 && 1 ≤ d.day && d.day ≤ daysInMonth d.year d.month

/--
The number of days since the first of January 1970. Years are taken to start in March, so that the
leap day is the last day of a year.
-/
def toDays (d : Date) : Int :=
  let year := if d.month ≤ 2 then d.year - 1 else d.year
  let month := (d.month + 9) % 12
  let dayOfYear : Int := (153 * month + 2) / 5 + d.day - 1
  year * 365 + year / 4 - year / 100 + year / 400 + dayOfYear - 719468

/-- The date of a number of days since the first of January 1970. -/
def ofDays (days : Int) : Date :=
  let shifted := days + 719468
  let era := shifted / 146097
  let dayOfEra := (shifted % 146097).toNat
  let yearOfEra := (dayOfEra - dayOfEra / 1460 + dayOfEra / 36524 - dayOfEra / 146096) / 365
  let dayOfYear := dayOfEra - (365 * yearOfEra + yearOfEra / 4 - yearOfEra / 100)
  let month := (5 * dayOfYear + 2) / 153
  { year := era * 400 + yearOfEra + (if 10 ≤ month then 1 else 0)
    month := if month < 10 then month + 3 else month - 9
    day := dayOfYear - (153 * month + 2) / 5 + 1 }

end Date

end CodeAudit
