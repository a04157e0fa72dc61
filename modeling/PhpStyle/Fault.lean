/-!
# Faults

What could stop an analysis half-way: reading a token that is not there, taking more from a list or
a counter than it holds, a sum that does not fit in a 64-bit word, a text that is cut inside a
character, or a loop that goes in circles. A computation that can meet one of these runs in
`Checked`, so that the absence of faults is a statement about its result.
-/

namespace PhpStyle

/-- The reason why a computation stopped. -/
inductive Fault where
  /-- There is no token at this index. -/
  | noToken (index : Nat)
  /-- A list has fewer than this many elements. -/
  | tooShort (wanted : Nat)
  /-- A difference would have been negative. -/
  | negative
  /-- A sum does not fit in 64 bits. -/
  | overflow
  /-- A loop would not move forward. -/
  | stuck
  /-- A text does not go on between two characters at this byte. -/
  | noBoundary (byte : Nat)
  deriving DecidableEq, Repr

/-- A computation that may stop with a fault. -/
abbrev Checked := Except Fault

/-- The largest number of a 64-bit word. -/
def maxWord : Nat := Nat.pow 2 64 - 1

/-- The sum of two numbers, if it fits in a word. -/
def plus (m n : Nat) : Checked Nat :=
  if m + n ≤ maxWord then .ok (m + n) else .error .overflow

/-- The difference of two numbers, if it is not negative. -/
def minus (m n : Nat) : Checked Nat :=
  if n ≤ m then .ok (m - n) else .error .negative

/-- The first `n` elements of a list that is expected to have so many. -/
def firstOf {α : Type} (n : Nat) (xs : List α) : Checked (List α) :=
  if n ≤ xs.length then .ok (xs.take n) else .error (.tooShort n)

/-- A sum that fits is the sum of the natural numbers. -/
theorem plus_eq_ok_iff {m n r : Nat} : plus m n = .ok r ↔ r = m + n ∧ m + n ≤ maxWord := by
  unfold plus
  split
  · next h => simp [h, eq_comm]
  · next h => simp [h]

/-- A difference that is not negative is the difference of the natural numbers. -/
theorem minus_eq_ok_iff {m n r : Nat} : minus m n = .ok r ↔ r = m - n ∧ n ≤ m := by
  unfold minus
  split
  · next h => simp [h, eq_comm]
  · next h => simp [h]

end PhpStyle
