/-!
# Reading from the front of a text

A `Scan` takes a value from the front of a list of characters and gives back the rest, or gives
up. These are the few ways in which scans are put together; what must not fail silently, such as
a digit behind an underscore, is left to the scan that follows.
-/

namespace PhpStyle.Toml

/-- A reader of the front of a text. -/
abbrev Scan (α : Type) := List Char → Option (α × List Char)

namespace Scan

/-- Takes exactly the given text. -/
def exactly (lead : List Char) : Scan Unit := fun cs =>
  if lead.isPrefixOf cs then some ((), cs.drop lead.length) else none

/-- Takes one character with property `p`. -/
def one (p : Char → Bool) : Scan Char
  | c :: cs => if p c then some (c, cs) else none
  | [] => none

/-- Takes the longest run of characters with property `p`, which may be empty. -/
def run (p : Char → Bool) : Scan (List Char) := fun cs => some (cs.takeWhile p, cs.dropWhile p)

/-- Takes `n` characters with property `p`. -/
def count (p : Char → Bool) : Nat → Scan (List Char)
  | 0, cs => some ([], cs)
  | n + 1, cs => do
    let (c, cs) ← one p cs
    let (rest, cs) ← count p n cs
    return (c :: rest, cs)

/-- Takes what the first of two scans takes, or else what the second one takes. -/
def orElse {α : Type} (first second : Scan α) : Scan α := fun cs =>
  match first cs with
  | some r => some r
  | none => second cs

/-- Takes what a scan takes, or nothing. -/
def opt {α : Type} (scan : Scan α) : Scan (Option α) := fun cs =>
  match scan cs with
  | some (a, cs) => some (some a, cs)
  | none => some (none, cs)

/-- Repeats a scan as long as it succeeds, at most `fuel` times. -/
def many {α : Type} (scan : Scan α) : Nat → Scan (List α)
  | 0, cs => some ([], cs)
  | fuel + 1, cs =>
    match scan cs with
    | none => some ([], cs)
    | some (a, cs) => do
      let (rest, cs) ← many scan fuel cs
      return (a :: rest, cs)

/-- Takes one or more items with a separator between neighbours. The separator must be followed by
an item. -/
def separated {α : Type} (item : Scan α) (separator : Scan Unit) (cs : List Char) :
    Option (List α × List Char) := do
  let (first, cs) ← item cs
  let next : Scan α := fun cs => do
    let ((), cs) ← separator cs
    item cs
  let (rest, cs) ← many next cs.length cs
  return (first :: rest, cs)

end Scan

end PhpStyle.Toml
