import PhpStyle.Json.Reader

/-!
# Numbers of a JSON text as doubles

`NumberText.float?` gives the double that a written number stands for. It is not always the nearest
one: the leading digits that fit in a 64-bit word are converted, and the result is scaled by a
power of ten in as few steps as possible. A number that is too large has no double.
-/

namespace PhpStyle.NumberText

/-- The word that the leading digits of `cs` give when they are put behind `n`, and how many digits
are left over. -/
def leading (n : Nat) : List Char → Nat × Nat
  | [] => (n, 0)
  | c :: cs =>
    let next := Decimal.digitsValue ('0' :: [c]) + 10 * n
    if next ≤ maxWord then leading next cs else (n, cs.length + 1)

/-- The digits that count, and the power of ten that they are taken by, without the written
exponent. Digits in front of the point that are left over raise the power. -/
def significand (t : NumberText) : Nat × Int :=
  let (whole, left) := leading 0 t.whole
  let fraction := t.fraction.getD []
  let (digits, dropped) := leading whole fraction
  (digits, left - ((fraction.length - dropped : Nat) : Int))

/-- The greatest power of ten that is a double. -/
def maxPower : Nat := 308

/-- The double next to a power of ten. -/
def power (n : Nat) : Float := Float.ofScientific 1 false n

/-- The product of a double and a power of ten. -/
def scale (x : Float) (exponent : Int) : Option Float :=
  if exponent < -maxPower then
    if x == 0 then some x else scale (x / power maxPower) (exponent + maxPower)
  else if exponent < 0 then some (x / power exponent.natAbs)
  else if maxPower < exponent then
    if x == 0 then some x else none
  else
    let y := x * power exponent.natAbs
    if y.isInf then none else some y
termination_by exponent.natAbs
decreasing_by simp only [maxPower] at *; omega

/-- The greatest exponent that is looked at. -/
def maxExponent : Nat := Nat.pow 2 31 - 1

/-- The double that a written number stands for. -/
def float? (t : NumberText) : Option Float := do
  let (digits, shift) := t.significand
  let signed (x : Float) := if t.negative then -x else x
  let start := Float.ofNat digits
  match t.exponent with
  | none => (scale start shift).map signed
  | some (down, ds) =>
    let exponent := Decimal.digitsValue ds
    if maxExponent < exponent then
      if digits ≠ 0 ∧ !down then none else some (signed 0)
    else
      (scale start (if down then shift - exponent else shift + exponent)).map signed

end PhpStyle.NumberText
