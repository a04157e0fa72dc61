import PhpStyle.FileTree
import PhpStyle.Glob
import PhpStyle.Severity
import PhpStyle.Toml.Basic

/-!
# Configurations

* `RuleConfig` — the section of one rule: whether it is in force, the severity of its violations,
  and its options.
* `Config` — a preset, the severity at which a run fails, and the sections by rule name.
* `ConfigError` — why a configuration cannot be used.
-/

namespace PhpStyle

/-- The section of a rule. -/
structure RuleConfig where
  /-- Whether the rule is in force. -/
  enabled : Option Bool := none
  /-- The severity of all its violations. -/
  severity : Option Severity := none
  /-- Its options. -/
  options : Toml.Entries := []

namespace RuleConfig

/-- The value of an option. -/
def option? (c : RuleConfig) (key : String) : Option Toml.Value := c.options.get? key

/-- An option that is a natural number; any other value counts as absent. -/
def natOption (c : RuleConfig) (key : String) (default : Nat) : Nat :=
  match c.option? key with
  | some (.integer (.ofNat n)) => n
  | _ => default

/-- An option that is a string; any other value counts as absent. -/
def stringOption (c : RuleConfig) (key : String) (default : String) : String :=
  match c.option? key with
  | some (.string s) => s
  | _ => default

/-- The strings in an option that is an array. -/
def stringsOption (c : RuleConfig) (key : String) : List String :=
  match c.option? key with
  | some (.array items) => items.filterMap fun
    | .string s => some s
    | _ => none
  | _ => []

end RuleConfig

/-! ## Options of a given type -/

namespace Toml.Value

/-- A text: a string, or a date as it is written. -/
def text? : Value → Option String
  | .string s | .datetime s => some s
  | _ => none

/-- An integer. -/
def integer? : Value → Option Int
  | .integer n => some n
  | _ => none

/-- An integer of one byte. -/
def byte? : Value → Option Nat
  | .integer (.ofNat n) => if n < 256 then some n else none
  | _ => none

/-- A truth value. -/
def bool? : Value → Option Bool
  | .boolean b => some b
  | _ => none

/-- A list of texts. -/
def texts? : Value → Option (List String)
  | .array items => items.mapM text?
  | _ => none

end Toml.Value

/-- A configuration. -/
structure Config where
  /-- The name of the preset. -/
  preset : Option String := none
  /-- The severity at which a run fails. -/
  failOn : Option Severity := none
  /-- The sections, by the names of the rules. No name occurs twice. -/
  rules : List (String × RuleConfig) := []

namespace Config

/-- The section of a rule. -/
def rule? (c : Config) (name : String) : Option RuleConfig := c.rules.lookup name

/-- Whether a rule is in force, which it is unless its section says otherwise. -/
def isEnabled (c : Config) (name : String) : Bool :=
  ((c.rule? name).bind (·.enabled)).getD true

/-- The severity that the section of a rule asks for. -/
def severityOf (c : Config) (name : String) : Option Severity :=
  (c.rule? name).bind (·.severity)

/-- The severity at which a run fails: an error, unless the configuration says otherwise. -/
def threshold (c : Config) : Severity := c.failOn.getD .error

end Config

/-! ## Errors -/

/-- Why a configuration cannot be used. -/
inductive ConfigError where
  /-- The file cannot be read. -/
  | unreadable (path : String) (cause : ReadFailure)
  /-- The text is no configuration. -/
  | malformed
  /-- There is no such preset. -/
  | unknownPreset (name : String)
  /-- A pattern of class names cannot be read. -/
  | invalidPattern (pattern : String) (cause : GlobError)
  deriving DecidableEq, Repr

/-- The wording of the error. -/
def ConfigError.message : ConfigError → String
  | unreadable path cause => s!"Failed to read config file {path}: {cause.message}"
  | malformed => "Failed to parse config"
  | unknownPreset name => s!"Unknown preset `{name}`. Valid presets: stubbles, structural"
  | invalidPattern pattern cause =>
    s!"Invalid exclusion pattern `{pattern}`: {cause.message}"

end PhpStyle
