import PhpStyle.Event
import PhpStyle.SourceUnit

/-!
# Rules

A `Rule` names the kinds of token that it listens to and says what is wrong at one of them. The
result of looking at a token is an `Inspection`: the violations found there, and what is worth
noting beside them. Looking at a token may end in a fault, which is a property to be excluded and
not an answer.
-/

namespace PhpStyle

/-- What looking at one token gives. -/
structure Inspection where
  /-- What was found, in the order of the checks. -/
  violations : List Violation := []
  /-- What else is worth noting. -/
  events : List Event := []
  deriving DecidableEq, Repr

/-- The name and the code of a rule, which its violations carry. -/
structure RuleId where
  /-- The name of the rule. -/
  name : String
  /-- The code of the rule. -/
  code : String
  deriving DecidableEq, Repr

namespace RuleId

/-- A violation of the rule at the token with the given index. -/
def violation (id : RuleId) (u : SourceUnit) (index : Nat) (severity : Severity)
    (message : String) : Violation where
  code := id.code
  rule := id.name
  severity
  location := u.location index
  message

/-- An error at the token with the given index, as the only finding. -/
def oneError (id : RuleId) (u : SourceUnit) (index : Nat) (message : String) : Inspection where
  violations := [id.violation u index .error message]

end RuleId

/-- A rule. -/
structure Rule extends RuleId where
  /-- What the rule asks for. -/
  description : String := ""
  /-- The severity of its violations unless it says otherwise. -/
  severity : Severity := .error
  /-- The kinds of token that it listens to. -/
  triggers : List Kind
  /-- What is wrong at the token with the given index. -/
  check : SourceUnit → Nat → Checked Inspection

/-- Whether the violations of a rule carry its name. -/
def Rule.Signs (r : Rule) : Prop :=
  ∀ u i found, r.check u i = .ok found → ∀ v ∈ found.violations, v.rule = r.name

end PhpStyle
