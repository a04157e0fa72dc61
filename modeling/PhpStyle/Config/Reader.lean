import PhpStyle.Config.Basic
import PhpStyle.Toml.Document

/-!
# Reading a configuration

`Config.parse` reads the text of a configuration. Keys that mean nothing at the top are passed
over; in the section of a rule they are options of the rule.

Two forms are rarely seen and hold throughout: a severity may be written as a table whose only key
is its name and whose value is empty, and a date stands for a table with a single reserved key
wherever a table is expected.
-/

namespace PhpStyle

/-- The key of the table that a date stands for. -/
def dateKey : String := "$__toml_private_datetime"

/-- Reads a severity. -/
def Severity.ofToml? : Toml.Value → Option Severity
  | .string name => ofName? name
  | .table [(name, .table [])] | .table [(name, .array [])] => ofName? name
  | _ => none

/-- The entries of a value that is expected to be a table. -/
def Toml.Value.entries? : Toml.Value → Option Toml.Entries
  | .table entries => some entries
  | .datetime text => some [(dateKey, .string text)]
  | _ => none

mutual

/-- An option as it is kept: a table that starts with the reserved key is the date that it stands
for. -/
def Toml.Value.settle : Toml.Value → Option Toml.Value
  | .array items => do return .array (← settleItems items)
  | .table ((key, value) :: rest) =>
    if key == dateKey then
      match value, rest with
      | .string text, [] => (Toml.datetimeOf? text).map .datetime
      | _, _ => none
    else do
      return .table ((key, ← settle value) :: (← settleEntries rest))
  | value => some value

/-- The items of an array as they are kept. -/
def Toml.Value.settleItems : List Toml.Value → Option (List Toml.Value)
  | [] => some []
  | item :: items => do return (← settle item) :: (← settleItems items)

/-- The entries of a table as they are kept. -/
def Toml.Value.settleEntries : Toml.Entries → Option Toml.Entries
  | [] => some []
  | (key, value) :: rest => do return (key, ← settle value) :: (← settleEntries rest)

end

namespace RuleConfig

/-- The names of the entries that are no options. -/
def ownKeys : List String := ["enabled", "severity"]

/-- Reads the section of a rule. -/
def ofToml? (value : Toml.Value) : Option RuleConfig := do
  let entries ← value.entries?
  let options := entries.filter fun (key, _) => !ownKeys.contains key
  return {
    enabled := ← (entries.get? "enabled").mapM Toml.Value.bool?
    severity := ← (entries.get? "severity").mapM Severity.ofToml?
    options := ← Toml.Value.settleEntries options }

end RuleConfig

namespace Config

/-- Reads the sections of the rules. -/
def rulesOfToml? (value : Toml.Value) : Option (List (String × RuleConfig)) := do
  (← value.entries?).mapM fun (name, value) => do return (name, ← RuleConfig.ofToml? value)

/-- A string. -/
def stringOfToml? : Toml.Value → Option String
  | .string s => some s
  | _ => none

/-- Reads the entries of a document. -/
def ofToml? (entries : Toml.Entries) : Option Config := do
  return {
    preset := ← (entries.get? "preset").mapM stringOfToml?
    failOn := ← (entries.get? "fail_on").mapM Severity.ofToml?
    rules := ((← (entries.get? "rules").mapM rulesOfToml?)).getD [] }

/-- Reads the text of a configuration. -/
def parse (text : String) : Except ConfigError Config :=
  match (Toml.parse text).bind ofToml? with
  | some config => .ok config
  | none => .error .malformed

end Config

end PhpStyle
