/-!
# Severities

How grave a violation is. A warning is less grave than an error.
-/

namespace PhpStyle

/-- How grave a violation is. -/
inductive Severity where
  /-- Legal, but discouraged. -/
  | warning
  /-- Against the rules. -/
  | error
  deriving DecidableEq, Repr

namespace Severity

/-- The written name of a severity. -/
def name : Severity → String
  | warning => "warning"
  | error => "error"

/-- The severity with the given written name. -/
def ofName? : String → Option Severity
  | "error" => some error
  | "warning" => some warning
  | _ => none

/-- A severity is found under its own name. -/
@[simp] theorem ofName?_name (s : Severity) : ofName? s.name = some s := by
  cases s <;> rfl

/-- The severities as numbers, in their order. -/
def rank : Severity → Nat
  | warning => 0
  | error => 1

/-- Whether `s` is at least as grave as `threshold`. -/
def reaches (s threshold : Severity) : Bool := threshold.rank ≤ s.rank

/-- The answer to a name that is no severity. -/
def unknownMessage (name : String) : String :=
  s!"unknown severity `{name}`. Valid values: error, warning"

end Severity

end PhpStyle
