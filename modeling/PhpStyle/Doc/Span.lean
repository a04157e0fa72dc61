import PhpStyle.Doc.Validation
import PhpStyle.Rule.Basic

/-!
# Documentation blocks in a token sequence

A comment covers a span of tokens, one for each of its lines. `DocSchema.inspect` reads the text of
a span, validates it, and reports each finding at the token of its line. Lines past the end of the
span count as its last one.
-/

namespace PhpStyle

/-- The token of a line of the comment that covers `start` to `last`. -/
def lineToken (start last line : Nat) : Checked Nat := do
  let index ← plus start line
  return min index last

/-- The token of a place in the comment that covers `start` to `last`. -/
def Place.token (start last : Nat) : Place → Checked Nat
  | .start => .ok start
  | .line number => lineToken start last number
  | .stop => .ok last

/-- The violations of a rule in the comment that covers the tokens `start` to `last`. A comment
that cannot be read is one error. -/
def DocSchema.inspect (schema : DocSchema) (id : RuleId) (u : SourceUnit) (start last : Nat) :
    Checked Inspection := do
  match u.comments (u.tokens.textOf start last) with
  | .error e =>
    let index ← lineToken start last e.line
    return { id.oneError u index e.message with events := [.unreadableComment start e.message] }
  | .ok doc =>
    let findings ← schema.findings doc
    let violations ← findings.mapM fun finding => do
      let index ← finding.place.token start last
      return id.violation u index finding.problem.severity (finding.problem.message schema)
    return { violations }

end PhpStyle
