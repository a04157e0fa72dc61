import PhpStyle.Config.Reader
import PhpStyle.Json.Codec
import PhpStyle.Json.Number

/-!
# The JSON form of a configuration

A configuration is an object with a preset, a severity and the sections of the rules; the options
of a rule stand beside its own two fields. A date is an object with the reserved key alone.
-/

namespace PhpStyle

/-! ## Options -/

namespace Toml.Value

mutual

/-- Writes an option. -/
def toJson : Value → Json
  | .string s => .string s
  | .integer n => .int n
  | .float x => .float x
  | .boolean b => .bool b
  | .datetime text => .object [(dateKey, .string text)]
  | .array items => .array (itemsToJson items)
  | .table entries => .object (entriesToJson entries)

/-- Writes the items of an array. -/
def itemsToJson : List Value → List Json
  | [] => []
  | item :: items => item.toJson :: itemsToJson items

/-- Writes the entries of a table. -/
def entriesToJson : Entries → List (String × Json)
  | [] => []
  | (key, value) :: rest => (key, value.toJson) :: entriesToJson rest

end

/-- A number that is an option: an integer if it is written as one and has at most 64 bits, else a
double. An integer of 64 bits without a sign is too large unless its first bit is zero. -/
def ofNumber? (t : NumberText) : Option Value :=
  let n := Decimal.digitsValue t.whole
  let isInteger := t.fraction.isNone && t.exponent.isNone
  if isInteger && !t.negative && n ≤ maxWord then
    if fits n then some (.integer n) else none
  else if isInteger && t.negative && 0 < n && fits (-n) then some (.integer (-n))
  else t.float?.map .float

mutual

/-- Reads an option. -/
def ofJson? : JsonTree → Option Value
  | .null => none
  | .bool b => some (.boolean b)
  | .number t => ofNumber? t
  | .string raw => (JsonTree.textOf? raw).map .string
  | .array items => (itemsOfJson? items).map .array
  | .object fields => do (Value.table (← entriesOfJson? fields)).settle

/-- Reads the items of an array. -/
def itemsOfJson? : List JsonTree → Option (List Value)
  | [] => some []
  | item :: items => do return (← ofJson? item) :: (← itemsOfJson? items)

/-- Reads the entries of a table. No key may occur twice. -/
def entriesOfJson? : List (List Char × JsonTree) → Option Entries
  | [] => some []
  | (raw, tree) :: rest => do
    let key ← JsonTree.textOf? raw
    let value ← ofJson? tree
    let rest ← entriesOfJson? rest
    if (rest.lookup key).isSome then none else some ((key, value) :: rest)

end

end Toml.Value

namespace JsonTree

mutual

/-- How many arrays and objects stand inside each other. -/
def depth : JsonTree → Nat
  | .array items => depthOfItems items + 1
  | .object fields => depthOfFields fields + 1
  | _ => 0

/-- The greatest depth of the items of an array. -/
def depthOfItems : List JsonTree → Nat
  | [] => 0
  | item :: items => max item.depth (depthOfItems items)

/-- The greatest depth of the fields of an object. -/
def depthOfFields : List (List Char × JsonTree) → Nat
  | [] => 0
  | (_, value) :: fields => max value.depth (depthOfFields fields)

end

/-- The fields of an object. -/
def fields? : JsonTree → Option (List (String × JsonTree))
  | .object fields => fields.mapM fun (raw, tree) => do return (← textOf? raw, tree)
  | _ => none

end JsonTree

/-- The pairs whose key does not occur again behind them. -/
def lastOfEach {α : Type} : List (String × α) → List (String × α)
  | [] => []
  | (key, a) :: rest =>
    if (rest.lookup key).isSome then lastOfEach rest else (key, a) :: lastOfEach rest

/-! ## Sections -/

namespace RuleConfig

/-- The depth that an option may have. -/
def maxDepth : Nat := 124

/-- Writes the section of a rule. -/
def toJson (c : RuleConfig) : Json :=
  .object (ownKeys.zip [.ofOption .bool c.enabled, .ofOption Severity.toJson c.severity] ++
    Toml.Value.entriesToJson c.options)

/-- Reads a field that may be left out and stands at most once. -/
def ownField? {α : Type} (read : JsonTree → Option α) (fields : List (String × JsonTree))
    (key : String) : Option (Option α) :=
  match fields.filter (·.1 == key) with
  | [] => some none
  | [(_, tree)] => JsonTree.option? read tree
  | _ => none

/-- Reads the section of a rule. Of several options of one name the last one counts. -/
def ofJson? (tree : JsonTree) : Option RuleConfig := do
  let fields ← tree.fields?
  let others := fields.filter fun (key, _) => !ownKeys.contains key
  let options ← others.mapM fun (key, tree) => do
    if maxDepth < tree.depth then none
    return (key, ← Toml.Value.ofJson? tree)
  return {
    enabled := ← ownField? JsonTree.bool? fields "enabled"
    severity := ← ownField? Severity.ofJson? fields "severity"
    options := lastOfEach options }

end RuleConfig

namespace Config

/-- The names of the fields. -/
def fieldNames : List String := ["preset", "fail_on", "rules"]

/-- Writes a configuration. -/
def toJson (c : Config) : Json :=
  .object (fieldNames.zip
    [.ofOption .string c.preset, .ofOption Severity.toJson c.failOn,
      .object (c.rules.map fun (name, rule) => (name, rule.toJson))])

/-- Reads the sections. Of several sections of one rule the last one counts. -/
def rulesOfJson? (tree : JsonTree) : Option (List (String × RuleConfig)) := do
  let rules ← (← tree.fields?).mapM fun (name, tree) => do return (name, ← RuleConfig.ofJson? tree)
  return lastOfEach rules

/-- Reads a configuration. Every field may be left out. -/
def ofJson? (tree : JsonTree) : Option Config := do
  match ← JsonTree.record? fieldNames tree with
  | ([preset, failOn, rules], _) =>
    return {
      preset := (← preset.mapM (JsonTree.option? JsonTree.string?)).join
      failOn := (← failOn.mapM (JsonTree.option? Severity.ofJson?)).join
      rules := (← rules.mapM rulesOfJson?).getD [] }
  | _ => none

end Config

end PhpStyle
