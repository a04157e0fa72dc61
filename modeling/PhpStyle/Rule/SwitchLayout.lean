import PhpStyle.Rule.Basic
import PhpStyle.Switch.Layout

/-!
# The rule on switch statements

Reports the remarks of a `SwitchStyle` on a switch as errors.
-/

namespace PhpStyle.SwitchLayout

/-- The name and code of the rule. -/
def id : RuleId := ⟨"switch-declaration", "SL003"⟩

/-- What is worth noting about a remark: a switch that cannot be taken apart is skipped. -/
def event? (r : SwitchRemark) : Option Event :=
  match r.problem with
  | .malformed cause => some (.skippedSwitch r.index cause.message)
  | _ => none

/-- What is wrong with the switch of the keyword `i`. -/
def check (style : SwitchStyle) (u : SourceUnit) (i : Nat) : Checked Inspection := do
  let remarks ← style.remarks u.tokens i
  return {
    violations := remarks.map fun r => id.violation u r.index .error r.problem.message
    events := remarks.filterMap event? }

/-- The rule, for the given style. -/
def rule (style : SwitchStyle) : Rule where
  toRuleId := id
  description := "Enforces layout and terminators of switch statements"
  triggers := [.kwSwitch]
  check := check style

end PhpStyle.SwitchLayout
