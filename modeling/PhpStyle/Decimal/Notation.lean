import PhpStyle.Decimal.Shortest

/-!
# Writing and reading floating-point numbers

* `write` — the shortest decimal of a double. Numbers from `10 ^ -4` up to `10 ^ 16` are written
  with a point and at least one digit on either side of it, the others with an exponent.
* `read` — the double nearest to a decimal.
-/

namespace PhpStyle.Decimal

/-- The digits with a point behind the first `point` of them; at least one digit stands on either
side. -/
def positional (digits : List Char) (point : Int) : List Char :=
  if point ≤ 0 then ['0', '.'] ++ List.replicate (-point).toNat '0' ++ digits
  else
    let whole := digits.take point.toNat ++ List.replicate (point.toNat - digits.length) '0'
    let rest := digits.drop point.toNat
    whole ++ ['.'] ++ if rest.isEmpty then ['0'] else rest

/-- The digits with a point behind the first one and an exponent. -/
def scientific (digits : List Char) (exponent : Int) : List Char :=
  let rest := digits.drop 1
  digits.take 1 ++ (if rest.isEmpty then [] else '.' :: rest) ++ ['e'] ++
    (toString exponent).toList

/-- A positive decimal. -/
def writeScaled (d : Scaled) : List Char :=
  let d := d.strip 20
  let digits := Nat.toDigits 10 d.digits
  let point := d.exponent + digits.length
  if -3 ≤ point ∧ point ≤ 16 then positional digits point
  else scientific digits (point - 1)

/-- The text of a double. -/
def write (tie : Tie) (x : Float) : String :=
  if x.isNaN then "NaN"
  else
    let bits := x.toBits.toNat
    let sign := if bits / Nat.pow 2 63 = 1 then "-" else ""
    let magnitude := bits % Nat.pow 2 63
    if x.isInf then sign ++ "inf"
    else if magnitude = 0 then sign ++ "0.0"
    else sign ++ String.ofList (writeScaled ((Binary.ofBits magnitude).shortest tie))

/-- The value of a run of digits; other characters are passed over. -/
def digitsValue (cs : List Char) : Nat :=
  cs.foldl (fun n c => if c.isDigit then 10 * n + (c.toNat - '0'.toNat) else n) 0

/-- The double nearest to `digits * 10 ^ exponent`. A number far beyond the range of doubles is
infinite or zero. -/
def read (digits : Nat) (exponent : Int) : Float :=
  let places : Int := (Nat.toDigits 10 digits).length + exponent
  if digits = 0 ∨ places < -400 then 0
  else if 400 < places then 1 / 0
  else if 0 ≤ exponent then Float.ofScientific digits false exponent.toNat
  else Float.ofScientific digits true (-exponent).toNat

end PhpStyle.Decimal
