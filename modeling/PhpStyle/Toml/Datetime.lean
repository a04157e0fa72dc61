import PhpStyle.Decimal.Notation
import PhpStyle.Toml.Scan

/-!
# Dates and times

A date, a time, or a date with a time and perhaps an offset from universal time. `datetime` reads
one and gives its text in the standard form: a capital `T` between date and time, at most nine
digits of a second and no zeros at their end, and a capital `Z` or a signed offset.
-/

namespace PhpStyle.Toml

/-- A number of exactly `n` digits between two bounds, with its text. -/
def digitsIn (n low high : Nat) : Scan (List Char) := fun cs => do
  let (ds, cs) ← Scan.count Char.isDigit n cs
  let value := Decimal.digitsValue ds
  if low ≤ value ∧ value ≤ high then some (ds, cs) else none

/-- Whether a year has a leap day. -/
def isLeap (year : Nat) : Bool := year % 4 == 0 && (year % 100 != 0 || year % 400 == 0)

/-- The number of days of a month. -/
def daysIn (year month : Nat) : Nat :=
  if month = 2 then if isLeap year then 29 else 28
  else if month = 4 ∨ month = 6 ∨ month = 9 ∨ month = 11 then 30
  else 31

/-- A date. -/
def date : Scan (List Char) := fun cs => do
  let (year, cs) ← Scan.count Char.isDigit 4 cs
  let ((), cs) ← Scan.exactly ['-'] cs
  let (month, cs) ← digitsIn 2 1 12 cs
  let ((), cs) ← Scan.exactly ['-'] cs
  let (day, cs) ← digitsIn 2 1
    (daysIn (Decimal.digitsValue year) (Decimal.digitsValue month)) cs
  return (year ++ ['-'] ++ month ++ ['-'] ++ day, cs)

/-- The digits behind the point of a second, in the standard form. -/
def fraction (digits : List Char) : List Char :=
  match ((digits.take 9).reverse.dropWhile (· == '0')).reverse with
  | [] => []
  | kept => '.' :: kept

/-- A time of day. -/
def time : Scan (List Char) := fun cs => do
  let (hour, cs) ← digitsIn 2 0 23 cs
  let ((), cs) ← Scan.exactly [':'] cs
  let (minute, cs) ← digitsIn 2 0 59 cs
  let ((), cs) ← Scan.exactly [':'] cs
  let (second, cs) ← digitsIn 2 0 60 cs
  let whole := hour ++ [':'] ++ minute ++ [':'] ++ second
  match cs with
  | '.' :: c :: rest =>
    if c.isDigit then
      return (whole ++ fraction (c :: rest.takeWhile Char.isDigit), rest.dropWhile Char.isDigit)
    else none
  | '.' :: [] => none
  | _ => return (whole, cs)

/-- An offset from universal time. An offset of zero is written with a plus sign. -/
def offset : Scan (List Char)
  | 'Z' :: cs | 'z' :: cs => some (['Z'], cs)
  | c :: cs => do
    if c != '+' && c != '-' then none
    let (hour, cs) ← digitsIn 2 0 23 cs
    let ((), cs) ← Scan.exactly [':'] cs
    let (minute, cs) ← digitsIn 2 0 59 cs
    let isZero := Decimal.digitsValue (hour ++ minute) == 0
    return ((if isZero then '+' else c) :: hour ++ [':'] ++ minute, cs)
  | [] => none

/-- A time behind the letter or space that separates it from a date, with the offset behind it. -/
def timeOfDate : Scan (List Char) := fun cs => do
  let (_, cs) ← Scan.one (fun c => c == 'T' || c == 't' || c == ' ') cs
  let (clock, cs) ← time cs
  let (zone, cs) ← Scan.opt offset cs
  return (['T'] ++ clock ++ zone.getD [], cs)

/-- A date, a time, or both. -/
def datetime : Scan String := Scan.orElse
  (fun cs => do
    let (day, cs) ← date cs
    let (clock, cs) ← Scan.opt timeOfDate cs
    return (String.ofList (day ++ clock.getD []), cs))
  (fun cs => do
    let (clock, cs) ← time cs
    return (String.ofList clock, cs))

/-- The standard form of a text that is a date, a time, or both, and nothing else. -/
def datetimeOf? (text : String) : Option String := do
  let (standard, rest) ← datetime text.toList
  if rest.isEmpty then some standard else none

end PhpStyle.Toml
