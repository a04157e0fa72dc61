import PhpStyle.Decimal.Notation
import PhpStyle.Toml.Basic
import PhpStyle.Toml.Text

/-!
# Numbers

Integers in four bases and floating-point numbers. An underscore may stand between two digits. A
decimal number has no leading zeros, and only a decimal number has a sign.
-/

namespace PhpStyle.Toml

/-- Digits with property `p`, in which an underscore may stand between two of them. The
underscores are left out. -/
def digitRun (p : Char → Bool) : Scan (List Char) := fun cs => do
  let (first, cs) ← Scan.one p cs
  let next : Scan Char := fun cs =>
    match cs with
    | '_' :: cs => Scan.one p cs
    | cs => Scan.one p cs
  let (rest, cs) ← Scan.many next cs.length cs
  return (first :: rest, cs)

/-- A sign, if there is one: whether it is a minus. -/
def sign : List Char → Bool × List Char
  | '-' :: cs => (true, cs)
  | '+' :: cs => (false, cs)
  | cs => (false, cs)

/-- The digits of a decimal integer: a single zero, or digits that do not start with zero. -/
def wholeDigits : Scan (List Char)
  | '0' :: cs => some (['0'], cs)
  | cs => digitRun Char.isDigit cs

/-- An integer in base `2 ^ bits` behind its two-letter mark. -/
def binaryPower (bits : Nat) : Scan Value := fun cs => do
  let isDigit (c : Char) : Bool := (Text.hexDigit? c).any (· < Nat.pow 2 bits)
  let (ds, cs) ← digitRun isDigit cs
  let n : Nat := ds.foldl (fun n c => Nat.pow 2 bits * n + (Text.hexDigit? c).getD 0) 0
  if fits n then some (.integer n, cs) else none

/-- A decimal integer. -/
def decimalInteger : Scan Value := fun cs => do
  let (negative, cs) := sign cs
  let (ds, cs) ← wholeDigits cs
  let n : Int := Decimal.digitsValue ds
  let n := if negative then -n else n
  if fits n then some (.integer n, cs) else none

/-- An integer. -/
def integer : Scan Value
  | '0' :: 'x' :: cs => binaryPower 4 cs
  | '0' :: 'o' :: cs => binaryPower 3 cs
  | '0' :: 'b' :: cs => binaryPower 1 cs
  | cs => decimalInteger cs

/-- An exponent. -/
def exponent : Scan Int
  | c :: cs => do
    if c != 'e' && c != 'E' then none
    let (negative, cs) := sign cs
    let (ds, cs) ← digitRun Char.isDigit cs
    let n : Int := Decimal.digitsValue ds
    return (if negative then -n else n, cs)
  | [] => none

/-- The digits behind a point. -/
def places : Scan (List Char)
  | '.' :: cs => digitRun Char.isDigit cs
  | _ => none

/-- A floating-point number with a point, an exponent, or both. One that is too large is refused;
one that is too small on the negative side is infinite. -/
def decimalFloat : Scan Value := fun cs => do
  let (negative, cs) := sign cs
  let (ds, cs) ← wholeDigits cs
  let (fractional, cs) ← Scan.opt places cs
  let (power, cs) ← Scan.opt exponent cs
  if fractional.isNone && power.isNone then none
  let fractional := fractional.getD []
  let x := Decimal.read (Decimal.digitsValue (ds ++ fractional))
    (power.getD 0 - fractional.length)
  if negative then some (.float (-x), cs) else if x.isInf then none else some (.float x, cs)

/-- A floating-point number that is infinite or no number. -/
def specialFloat : Scan Value := fun cs =>
  let (negative, cs) := sign cs
  match cs with
  | 'i' :: 'n' :: 'f' :: cs => some (.float (if negative then -(1 / 0) else 1 / 0), cs)
  | 'n' :: 'a' :: 'n' :: cs => some (.float (0 / 0), cs)
  | _ => none

/-- The text of a floating-point number: the fewest digits that read back, where a tie goes away
from zero. -/
def floatText (x : Float) : String := Decimal.write .awayFromZero x

/-- A number. -/
def number : Scan Value := Scan.orElse decimalFloat (Scan.orElse specialFloat integer)

end PhpStyle.Toml
