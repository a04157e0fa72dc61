import PhpStyle.Config.Basic
import PhpStyle.Preset
import PhpStyle.Report

/-!
# Analyzers

An `Analyzer` runs rules over source units. Each token is handed to the rules that listen to its
kind. A `TriggerTable` gives these without a search through all rules: it holds, for each kind,
the indices of its listeners in the list of all rules. Rules that are switched off stay in that
list, but are not in the table.

* `Analyzer.ofRules` — the analyzer of a list of rules and a configuration.
* `Analyzer.inspect` — what is found in one unit: in the order of the tokens, then of the rules,
  then of the checks of a rule.
* `Analyzer.run` — the report on several units, in their order.
-/

namespace PhpStyle

/-! ## The trigger table -/

/-- The listeners of each kind of token, as indices into a list of `count` rules. -/
structure TriggerTable (count : Nat) where
  /-- The kinds that have a listener, with their listeners. No kind occurs twice. -/
  entries : List (Kind × List (Fin count)) := []

namespace TriggerTable

variable {count : Nat}

/-- The listeners of a kind. -/
def indices (t : TriggerTable count) (k : Kind) : List (Fin count) :=
  (t.entries.lookup k).getD []

/-- The table with one more listener of a kind, behind those that it has. -/
def insert (t : TriggerTable count) (k : Kind) (i : Fin count) : TriggerTable count :=
  ⟨(k, t.indices k ++ [i]) :: t.entries.filter (·.1 != k)⟩

/-- The table with an index for each of the given kinds. -/
def register (t : TriggerTable count) (i : Fin count) (kinds : List Kind) : TriggerTable count :=
  kinds.foldl (fun t k => t.insert k i) t

/-- The table of a list of rules. A rule that the configuration switches off is passed over. -/
def ofRules (rules : List Rule) (config : Config) : TriggerTable rules.length :=
  (List.finRange rules.length).foldl (fun t i =>
    if config.isEnabled (rules.get i).name then t.register i (rules.get i).triggers else t) {}

end TriggerTable

/-! ## Analyzers -/

/-- Rules that are ready to run. -/
structure Analyzer where
  /-- The registered rules. -/
  rules : List Rule
  /-- The configuration. -/
  config : Config
  /-- Where the rules in force are in the list, by kind of token. -/
  table : TriggerTable rules.length

namespace Analyzer

/-- The analyzer of a list of rules. -/
def ofRules (rules : List Rule) (config : Config) : Analyzer where
  rules
  config
  table := .ofRules rules config

/-- The analyzer that a configuration asks for. -/
def ofConfig (config : Config) (read : PatternReader := .glob) : Except ConfigError Analyzer := do
  return ofRules (← config.ruleSet read) config

/-- The rules in force that listen to a kind. -/
def listening (a : Analyzer) (k : Kind) : List Rule := (a.table.indices k).map a.rules.get

/-- The names of the rules in force that listen to a kind. -/
def listeners (a : Analyzer) (k : Kind) : List String := (a.listening k).map (·.name)

/-- What is worth noting about the configuration: sections that belong to no rule, by name, and
rules that are switched off. -/
def notices (a : Analyzer) : List Event :=
  let known := a.rules.map (·.name)
  let unknown := (a.config.rules.map (·.1)).filter fun name => !known.contains name
  (unknown.mergeSort fun s t => s ≤ t).map .unknownRule ++
    ((a.rules.filter fun r => !a.config.isEnabled r.name).map fun r => .disabledRule r.name)

/-- What is found, with the severity that the configuration asks for. -/
def adjust (a : Analyzer) (r : Rule) (found : Inspection) : Inspection :=
  match a.config.severityOf r.name with
  | none => found
  | some severity =>
    { found with violations := found.violations.map ({ · with severity }) }

/-- Hands the token `i` to a rule. -/
def dispatch (a : Analyzer) (u : SourceUnit) (i : Nat) (t : Token) (r : Rule) :
    Checked Inspection := do
  let found := a.adjust r (← r.check u i)
  return { found with events := .dispatching i r.name t.line t.column :: found.events }

/-- The findings one after the other. -/
def gather (found : List Inspection) : Inspection where
  violations := found.flatMap (·.violations)
  events := found.flatMap (·.events)

/-- What is found in one unit. -/
def inspect (a : Analyzer) (u : SourceUnit) : Checked Inspection := do
  let perToken ← u.tokens.tokens.toList.zipIdx.mapM fun (t, i) =>
    gather <$> (a.listening t.kind).mapM (a.dispatch u i t)
  let found := gather perToken
  return { found with events := .analyzing u.path :: found.events }

/-- The report on several units, and what is worth noting on the way. -/
def run (a : Analyzer) (units : List SourceUnit) : Checked (Report × List Event) := do
  let found := gather (← units.mapM a.inspect)
  let report : Report := { violations := found.violations, files := units.length }
  return (report, .batchStarted units.length :: found.events ++
    [.batchFinished report.violations.length report.files])

end Analyzer

end PhpStyle
