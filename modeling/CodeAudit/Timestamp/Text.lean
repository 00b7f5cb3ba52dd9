import CodeAudit.Decimal.Fixed
import CodeAudit.Decimal.Scaling
import CodeAudit.Text.Blank
import CodeAudit.Timestamp.Basic
/-!
# Timestamps as texts

The format of RFC 3339: `2024-05-06T07:08:09.120+02:00`. A timestamp is written in universal time
with `Z`, and with as many groups of three digits of its fraction as it needs. In reading, a blank
may stand for the `T`, and the offset is taken off; the day that this leads to has to be one that is
counted in, as much as the day that is written.
-/
namespace CodeAudit.Timestamp

/-- Why a text is no timestamp. -/
inductive ParseError where
  | tooShort
  | tooLong
  | invalid
  | outOfRange
  | noSuchMoment
deriving DecidableEq, Repr

/-- The text of an error. -/
def ParseError.message : ParseError → String
  | tooShort => "premature end of input"
  | tooLong => "trailing input"
  | invalid => "input contains invalid characters"
  | outOfRange => "input is out of range"
  | noSuchMoment => "no possible date and time matching input"

/-- Reads a part of a text and gives what is left of it. -/
abbrev Parser (α : Type) := StateT (List Char) (Except ParseError) α

namespace Parser

/-- Passes over blanks. -/
def blanks : Parser Unit :=
  modify (·.dropWhile Text.isBlank)

/-- Passes over one character. -/
def mark (c : Char) : Parser Unit := do
  match ← get with
  | [] => throw .tooShort
  | d :: rest => if d = c then set rest else throw .invalid

/-- Reads a number of one digit at least and `most` digits at most. -/
def digits (most : Nat) : Parser (List Char) := do
  let text ← get
  let number := (text.take most).takeWhile Char.isDigit
  if number.isEmpty then
    throw (if text.isEmpty then .tooShort else .invalid)
  set (text.drop number.length)
  return number

/-- Reads a number of at most `most` digits that lies between two bounds; blanks may precede it. -/
def number (most least greatest : Nat) : Parser Nat := do
  blanks
  let value := Decimal.digitsValue (← digits most)
  if least ≤ value ∧ value ≤ greatest then return value else throw .outOfRange

/-- Whether a year can be read: its number fits 32 bits. -/
def isReadableYear (year : Int) : Bool :=
  -Int.pow 2 31 ≤ year && year < Int.pow 2 31

/-- Whether a year is one of those that dates are counted in. -/
def isCountedYear (year : Int) : Bool :=
  -262143 ≤ year && year ≤ 262142

/-- Reads a year: at most four digits, or any number of them after a sign. -/
def year : Parser Int := do
  blanks
  let signed (sign : Int) (rest : List Char) : Parser Int := do
    set rest
    let year := sign * Decimal.digitsValue (← digits rest.length)
    if isReadableYear year then return year else throw .outOfRange
  match ← get with
  | '-' :: rest => signed (-1) rest
  | '+' :: rest => signed 1 rest
  | _ => return Decimal.digitsValue (← digits 4)

/-- Reads the fraction of a second, in nanoseconds; digits after the ninth do not count. -/
def fraction : Parser Nat := do
  match ← get with
  | '.' :: rest =>
    let given := rest.takeWhile Char.isDigit
    if given.isEmpty then throw (if rest.isEmpty then .tooShort else .invalid)
    set (rest.dropWhile Char.isDigit)
    return Decimal.digitsValue (given.take 9) * Nat.pow 10 (9 - given.length)
  | _ => return 0

/-- Reads two digits. -/
def twoDigits : Parser Nat := do
  match ← get with
  | a :: b :: rest =>
    if a.isDigit ∧ b.isDigit then
      set rest
      return Decimal.digitsValue [a, b]
    else throw .invalid
  | [c] => throw (if c.utf8Size = 1 then .tooShort else .invalid)
  | [] => throw .tooShort

/-- Reads an offset from universal time, in seconds. -/
def offset : Parser Int := do
  let ahead (sign : Int) (rest : List Char) : Parser Int := do
    set rest
    let hours ← twoDigits
    modify (·.dropWhile fun c => c = ':' ∨ Text.isBlank c)
    let minutes ← twoDigits
    if 60 ≤ minutes then throw .outOfRange
    return sign * (hours * 3600 + minutes * 60)
  match ← get with
  | [] => throw .tooShort
  | c :: rest =>
    if c = 'Z' ∨ c = 'z' then do set rest; return 0
    else if c = '+' then ahead 1 rest
    else if c = '-' ∨ c = '−' then ahead (-1) rest
    else throw .invalid

/-- Reads an offset, or the name of universal time. -/
def zone : Parser Int := do
  blanks
  let text ← get
  if (text.take 3).map Char.toLower = ['u', 't', 'c'] then do set (text.drop 3); return 0
  else offset

/-- Reads a timestamp. -/
def timestamp : Parser Timestamp := do
  let year ← year
  blanks; mark '-'
  let month ← number 2 1 12
  blanks; mark '-'
  let day ← number 2 1 31
  match ← get with
  | [] => throw .tooShort
  | c :: rest => if c = 'T' ∨ c = 't' ∨ c = ' ' then set rest else throw .invalid
  let hour ← number 2 0 23
  blanks; mark ':'
  let minute ← number 2 0 59
  blanks; mark ':'
  let second ← number 2 0 60
  let nanos ← fraction
  let offset ← zone
  unless (← get).all Text.isBlank do throw .tooLong
  let date : Date := ⟨year, month, day⟩
  unless isCountedYear year ∧ date.isValid ∧ offset.natAbs < 86400 do throw .outOfRange
  let leap := if second = 60 then 1 else 0
  let seconds : Int :=
    date.toDays * 86400 + (hour * 3600 + minute * 60 + (second - leap) : Nat) - offset
  unless isCountedYear (Date.ofDays (seconds / 86400)).year do throw .noSuchMoment
  return ⟨seconds, nanos + leap * 1000000000⟩

end Parser

/-- Reads a timestamp. -/
def parse (text : String) : Except ParseError Timestamp :=
  (Parser.timestamp.run text.toList).map Prod.fst

/-- A number with zeros before it. -/
def padded (width n : Nat) : List Char :=
  Decimal.padLeft width (Nat.toDigits 10 n)

/-- A year: four digits, with a sign if those are not enough. -/
def yearText (year : Int) : List Char :=
  if 0 ≤ year ∧ year ≤ 9999 then padded 4 year.toNat
  else (if year < 0 then '-' else '+') :: padded 4 year.natAbs

/-- The fraction of a second in as many groups of three digits as it needs. -/
def fractionText (nanos : Nat) : List Char :=
  if nanos = 0 then []
  else if nanos % 1000000 = 0 then '.' :: padded 3 (nanos / 1000000)
  else if nanos % 1000 = 0 then '.' :: padded 6 (nanos / 1000)
  else '.' :: padded 9 nanos

/-- The text of a timestamp. -/
def text (t : Timestamp) : String :=
  let date := Date.ofDays (t.seconds / 86400)
  let second := (t.seconds % 86400).toNat
  String.ofList <|
    yearText date.year ++ '-' :: padded 2 date.month ++ '-' :: padded 2 date.day
      ++ 'T' :: padded 2 (second / 3600) ++ ':' :: padded 2 (second / 60 % 60)
      ++ ':' :: padded 2 (second % 60 + t.nanos / 1000000000)
      ++ fractionText (t.nanos % 1000000000) ++ ['Z']

end CodeAudit.Timestamp
