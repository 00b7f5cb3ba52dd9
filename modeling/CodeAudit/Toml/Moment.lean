import CodeAudit.Timestamp.Basic
import CodeAudit.Timestamp.Text
/-!
# Dates and times in TOML

A date, a time, or both, and then perhaps an offset. They are kept as texts in one written form: a
`T` between date and time, no zeros at the end of a fraction, and `Z` or a signed offset.
-/
namespace CodeAudit.Toml

open Timestamp (padded)

/-- Two digits and what follows them, if their value lies between two bounds. -/
def twoDigits? (least greatest : Nat) : List Char → Option (Nat × List Char)
  | a :: b :: rest =>
    if a.isDigit ∧ b.isDigit then
      let n := Decimal.digitsValue [a, b]
      if least ≤ n ∧ n ≤ greatest then some (n, rest) else none
    else none
  | _ => none

/-- The written form of the date at the front of a text, and what follows it. -/
def date? (text : List Char) : Option (List Char × List Char) := do
  let year := text.take 4
  guard (year.length = 4 ∧ year.all Char.isDigit)
  let '-' :: text := text.drop 4 | none
  let (month, text) ← twoDigits? 1 12 text
  let '-' :: text := text | none
  let (day, text) ← twoDigits? 1 31 text
  guard (Date.isValid ⟨Decimal.digitsValue year, month, day⟩)
  return (year ++ '-' :: padded 2 month ++ '-' :: padded 2 day, text)

/-- The written form of a fraction of a second in at most nine digits. -/
def fractionForm (digits : List Char) : List Char :=
  let kept := ((digits.take 9).reverse.dropWhile (· == '0')).reverse
  if kept.isEmpty then [] else '.' :: kept

/-- The written form of the time at the front of a text, and what follows it. -/
def time? (text : List Char) : Option (List Char × List Char) := do
  let (hour, text) ← twoDigits? 0 23 text
  let ':' :: text := text | none
  let (minute, text) ← twoDigits? 0 59 text
  let ':' :: text := text | none
  let (second, text) ← twoDigits? 0 60 text
  let form := padded 2 hour ++ ':' :: padded 2 minute ++ ':' :: padded 2 second
  match text with
  | '.' :: rest =>
    let digits := rest.takeWhile Char.isDigit
    guard (!digits.isEmpty)
    return (form ++ fractionForm digits, rest.dropWhile Char.isDigit)
  | _ => return (form, text)

/-- The written form of the offset at the front of a text, empty if there is none. -/
def offset? (text : List Char) : Option (List Char × List Char) :=
  match text with
  | [] => some ([], [])
  | c :: rest =>
    if c = 'Z' ∨ c = 'z' then some (['Z'], rest)
    else if c = '+' ∨ c = '-' then do
      let (hour, rest) ← twoDigits? 0 23 rest
      let ':' :: rest := rest | none
      let (minute, rest) ← twoDigits? 0 59 rest
      let sign := if c = '-' ∧ 0 < hour * 60 + minute then '-' else '+'
      return (sign :: padded 2 hour ++ ':' :: padded 2 minute, rest)
    else some ([], text)

/-- The written form of the moment at the front of a text, and what follows it. -/
def moment? (text : List Char) : Option (List Char × List Char) :=
  match date? text with
  | none => time? text
  | some (date, rest) =>
    match rest with
    | c :: more =>
      if c = 'T' ∨ c = 't' ∨ c = ' ' then
        match time? more with
        | none => if c = ' ' then some (date, rest) else none
        | some (time, more) => do
          let (offset, more) ← offset? more
          return (date ++ 'T' :: time ++ offset, more)
      else some (date, rest)
    | [] => some (date, [])

end CodeAudit.Toml
