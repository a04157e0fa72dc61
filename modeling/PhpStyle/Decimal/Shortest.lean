/-!
# Shortest decimals

The decimal with the fewest digits that reads back as a given binary number.

A positive double is `m * 2 ^ q`. The reals that round to it form an interval around it, which
holds its ends exactly if `m` is even. `shortest` tries one digit, two digits, and so on, and takes
the first number of digits for which one of the two neighbours of the value on that decimal grid
lies in the interval; of two such neighbours it takes the nearer one, and a `Tie` decides between
neighbours that are equally near. All comparisons are made between natural numbers.
-/

namespace PhpStyle.Decimal

/-- A decimal number: `digits * 10 ^ exponent`. -/
structure Scaled where
  /-- The digits. -/
  digits : Nat
  /-- The power of ten. -/
  exponent : Int
  deriving DecidableEq, Repr

/-- Which of two neighbours on a grid is taken when the value lies in the middle. -/
inductive Tie where
  /-- The even one. -/
  | toEven
  /-- The one that is further from zero. -/
  | awayFromZero
  deriving DecidableEq, Repr

/-- Whether the tie between `low` and `low + 1` goes to `low`. -/
def Tie.takesLow : Tie → Nat → Bool
  | toEven, low => low % 2 == 0
  | awayFromZero, _ => false

/-- A positive binary number in quarters of its last place, with the interval that rounds to it:
the value is `4 * mantissa * 2 ^ exponent`. -/
structure Binary where
  /-- The mantissa. -/
  mantissa : Nat
  /-- The power of two of a quarter of the last place. -/
  exponent : Int
  /-- How many quarters the interval reaches downwards, one or two. -/
  below : Nat
  deriving DecidableEq, Repr

/-- The parts of a double that is not negative, given its bits. -/
def Binary.ofBits (bits : Nat) : Binary :=
  let fraction : Nat := bits % Nat.pow 2 52
  let biased : Nat := bits / Nat.pow 2 52 % Nat.pow 2 11
  if biased = 0 then ⟨fraction, -1076, 2⟩
  else ⟨fraction + Nat.pow 2 52, (biased : Int) - 1077, if fraction = 0 ∧ 1 < biased then 1 else 2⟩

/-- The integers `a` and `b` with `a / b = x * 2 ^ e / 10 ^ k`. -/
def ratio (x : Nat) (e k : Int) : Nat × Nat :=
  (x * Nat.pow 2 e.toNat * Nat.pow 10 (-k).toNat, Nat.pow 2 (-e).toNat * Nat.pow 10 k.toNat)

namespace Binary

/-- Whether `d * 10 ^ k` rounds to the number. -/
def rounds (b : Binary) (d : Nat) (k : Int) : Bool :=
  let (value, unit) := ratio 1 b.exponent k
  let quarters := d * unit
  let low := (4 * b.mantissa - b.below) * value
  let high := (4 * b.mantissa + 2) * value
  if b.mantissa % 2 = 0 then low ≤ quarters && quarters ≤ high
  else low < quarters && quarters < high

/-- The largest `k` with `10 ^ k` at most the number, for a positive number. -/
def magnitude (b : Binary) : Int :=
  let below (n : Nat) : Bool :=
    let (a, c) := ratio (4 * b.mantissa) b.exponent ((n : Int) - 324)
    a < c
  ((List.range 640).find? below).getD 640 - 325

/-- The neighbour of the number on the grid of `n` digits that rounds to it, the nearer one if both
do. -/
def neighbour? (tie : Tie) (b : Binary) (n : Nat) : Option Scaled :=
  let k := b.magnitude - n + 1
  let (a, c) := ratio (4 * b.mantissa) b.exponent k
  let low := a / c
  let nearLow := 2 * (a % c) < c || (2 * (a % c) == c && tie.takesLow low)
  let order := if nearLow then [low, low + 1] else [low + 1, low]
  (order.find? fun d => b.rounds d k).map (⟨·, k⟩)

/-- The shortest decimal that rounds to a positive number. -/
def shortest (tie : Tie) (b : Binary) : Scaled :=
  ((List.range' 1 17).findSome? (b.neighbour? tie)).getD ⟨0, 0⟩

end Binary

/-- The decimal without the zeros at its end. -/
def Scaled.strip (d : Scaled) : Nat → Scaled
  | 0 => d
  | fuel + 1 =>
    if d.digits ≠ 0 ∧ d.digits % 10 = 0 then Scaled.strip ⟨d.digits / 10, d.exponent + 1⟩ fuel
    else d

end PhpStyle.Decimal
