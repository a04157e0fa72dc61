import PhpStyle.Config.Basic
import PhpStyle.Rule.Declaration
import PhpStyle.Rule.FileComment
import PhpStyle.Rule.MemberComment
import PhpStyle.Rule.RepeatedBlock
import PhpStyle.Rule.Spacing
import PhpStyle.Rule.SwitchLayout

/-!
# Presets

* `Preset` — a named choice of rules.
* `RuleOptions` — what can be chosen about the rules.
* `Config.ruleSet` — the rules of the configured preset with their configured options.
-/

namespace PhpStyle

/-- A named choice of rules. -/
inductive Preset where
  /-- Every rule. -/
  | full
  /-- The rules on documentation blocks and on switches. -/
  | structural
  deriving DecidableEq, Repr

/-- What can be chosen about the rules. -/
structure RuleOptions where
  /-- The shape of the comment of a file. -/
  file : DocSchema := .file
  /-- The layout of a switch. -/
  switch : SwitchStyle := {}
  /-- The classes of which a file may declare a second one. -/
  single : Exemption := .standard
  /-- The classes that need not be named like their file. -/
  fileName : Exemption := .standard

namespace Preset

/-- The preset with the given name, in capital or small letters. -/
def ofName? (name : String) : Except ConfigError Preset :=
  match Text.asciiLower name with
  | "stubbles" => .ok full
  | "structural" => .ok structural
  | _ => .error (.unknownPreset name)

/-- The rules of the structural preset. -/
def structuralRules (o : RuleOptions) : List Rule :=
  [FileComment.rule o.file, MemberComment.rule .memberVariable, SwitchLayout.rule o.switch]

/-- The rules that only the full preset has. -/
def furtherRules (o : RuleOptions) : List Rule :=
  [Spacing.trailingRule, Spacing.castRule, Declaration.singleRule o.single,
    Declaration.camelRule, Declaration.fileNameRule o.fileName, RepeatedBlock.rule]

/-- The rules of a preset. -/
def rules (p : Preset) (o : RuleOptions) : List Rule :=
  match p with
  | full => structuralRules o ++ furtherRules o
  | structural => structuralRules o

end Preset

namespace Config

/-- The configured preset, which is the full one unless another is named. -/
def chosenPreset (c : Config) : Except ConfigError Preset :=
  match c.preset with
  | some name => Preset.ofName? name
  | none => .ok .full

/-- The configured shape of the comment of a file. -/
def fileSchema (c : Config) : DocSchema :=
  match (c.rule? FileComment.id.name).bind (·.option? "revision_marker") with
  | none => .file
  | some value =>
    match value.text? with
    | some marker => { DocSchema.file with revisionMarker := marker }
    | none => .file

/-- The configured layout of a switch. -/
def switchStyle (c : Config) : SwitchStyle :=
  let own := (c.rule? SwitchLayout.id.name).getD {}
  let standard : SwitchStyle := {}
  { indent := own.natOption "indent" standard.indent
    marker := own.stringOption "fallthrough_marker" standard.marker }

/-- The configured exemption of a rule. -/
def exemption (c : Config) (rule : RuleId) (read : PatternReader := .glob) :
    Except ConfigError Exemption :=
  let own := (c.rule? rule.name).getD {}
  match own.option? "excluded_classes" with
  | none => .ok (.standard read)
  | some _ =>
    (Exemption.ofPatterns (own.stringsOption "excluded_classes") read).mapError fun
      | (pattern, cause) => .invalidPattern pattern cause

/-- The rules of the configured preset with their configured options. Exemptions are read only for
the preset that uses them. -/
def ruleSet (c : Config) (read : PatternReader := .glob) : Except ConfigError (List Rule) := do
  let preset ← c.chosenPreset
  let options : RuleOptions := { file := c.fileSchema, switch := c.switchStyle }
  match preset with
  | .structural => return preset.rules options
  | .full =>
    let single ← c.exemption Declaration.singleId read
    let fileName ← c.exemption Declaration.fileNameId read
    return preset.rules { options with single, fileName }

end Config

end PhpStyle
