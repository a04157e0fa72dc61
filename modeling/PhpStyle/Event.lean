/-!
# Events

What the analyses report about their own progress, beside the violations they find. An event has
a `Level` and a wording; both are functions of the event.
-/

namespace PhpStyle

/-- How important an event is. -/
inductive Level where
  | trace
  | debug
  | info
  | warn
  deriving DecidableEq, Repr

/-- The written name of a level. -/
def Level.name : Level → String
  | .trace => "trace"
  | .debug => "debug"
  | .info => "info"
  | .warn => "warn"

/-- One step of an analysis that is worth noting. -/
inductive Event where
  /-- A closing brace has no opening brace. -/
  | unbalancedBrace (line column : Nat)
  /-- The scope of the token at this place is still open at the end. -/
  | unclosedScope (line column : Nat)
  /-- A section of the configuration names no registered rule. -/
  | unknownRule (name : String)
  /-- A registered rule is switched off. -/
  | disabledRule (name : String)
  /-- A source unit is taken up. -/
  | analyzing (path : String)
  /-- A token is handed to a rule. -/
  | dispatching (index : Nat) (rule : String) (line column : Nat)
  /-- A switch cannot be taken apart. -/
  | skippedSwitch (index : Nat) (reason : String)
  /-- A documentation block cannot be read. -/
  | unreadableComment (index : Nat) (reason : String)
  /-- A batch of source units is taken up. -/
  | batchStarted (units : Nat)
  /-- A batch of source units is done. -/
  | batchFinished (violations units : Nat)
  deriving DecidableEq, Repr

namespace Event

/-- How important the event is. -/
def level : Event → Level
  | unbalancedBrace .. | unclosedScope .. | unknownRule .. => .warn
  | disabledRule .. | analyzing .. | skippedSwitch .. | unreadableComment .. => .debug
  | dispatching .. => .trace
  | batchStarted .. | batchFinished .. => .info

/-- The wording of the event. -/
def message : Event → String
  | unbalancedBrace line column => s!"Unbalanced closing brace at {line}:{column}"
  | unclosedScope line column => s!"Scope opened at {line}:{column} is never closed"
  | unknownRule name => s!"Configuration for unknown rule: {name}"
  | disabledRule name => s!"Skipping disabled rule: {name}"
  | analyzing path => s!"Analyzing: {path}"
  | dispatching index rule line column => s!"Dispatching {index} to {rule} at {line}:{column}"
  | skippedSwitch index reason => s!"Skipping switch at token {index}: {reason}"
  | unreadableComment index reason =>
    s!"Doc comment at token {index} failed to parse: {reason}"
  | batchStarted units => s!"Starting analysis of {units} source unit(s)"
  | batchFinished violations units =>
    s!"Analysis complete: {violations} violations in {units} files"

end Event

end PhpStyle
