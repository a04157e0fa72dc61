import PhpStyle.Rule.Basic
import PhpStyle.Text.Bytes

/-!
# The class block repeats the file block

Each line of the documentation block of a file also stands in the block of the class, the lines of
two tags apart. The class block may have more lines.
-/

namespace PhpStyle.RepeatedBlock

/-- The name and code of the rule. -/
def id : RuleId := ⟨"file-equals-class-comment", "SL015"⟩

/-- The tags whose lines are not compared. -/
def freeTags : List String := ["@author", "@version"]

/-- Whether a line, behind its first two bytes, starts with a tag that is not compared. -/
def isFree (line : List Char) : Bool :=
  freeTags.any fun tag => tag.toList.isPrefixOf ((Text.dropBytes? 2 line).getD [])

/-- The line that closes a block. -/
def closingLine : List Char := ['*', '/']

/-- The lines up to the first closing line, that line included, and the lines behind it. -/
def splitBlocks : List (List Char) → List (List Char) × List (List Char)
  | [] => ([], [])
  | line :: lines =>
    if line == closingLine then ([line], lines)
    else
      let (first, second) := splitBlocks lines
      (line :: first, second)

/-- The compared lines of the documentation blocks among the tokens. -/
def comparedLines (tokens : List Token) : List (List Char) :=
  let lines := (tokens.filter (·.kind == .docComment)).map fun t => Text.trim t.text.toList
  lines.filter (!isFree ·)

/-- The numbers of the lines of the first block that the second one lacks. -/
def differences (tokens : List Token) : List Nat :=
  let (first, second) := splitBlocks (comparedLines tokens)
  (first.zipIdx.filter fun (line, _) => !second.contains line).map (·.2)

/-- The file that declares the class loader is not checked. -/
def exemptStem : String := "stubClassLoader"

/-- What is wrong with the blocks before the class keyword `i`. -/
def check (u : SourceUnit) (i : Nat) : Checked Inspection := do
  if u.stem? == some exemptStem then return {}
  let before ← firstOf i u.tokens.tokens.toList
  return {
    violations := (differences before).map fun k =>
      id.violation u i .error s!"File and class doc block differ in line {k}" }

/-- The rule. -/
def rule : Rule where
  toRuleId := id
  description := "Requires the class doc block to repeat the file doc block"
  triggers := [.kwClass]
  check := check

end PhpStyle.RepeatedBlock
