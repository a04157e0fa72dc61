import PhpStyle.Switch.Basic

/-!
# The layout of a switch

Labels stand one indent behind the keyword and breaks one indent behind the labels. A branch ends
in a break, a return, a throw or a comment that marks an intended fallthrough, and one blank line
follows it; none follows a label. There is at least one case, and a default.

* `SwitchStyle` — the width of an indent and the marker of an intended fallthrough.
* `SwitchProblem` — what can be wrong, with its wording.
* `SwitchStyle.remarks` — everything that is wrong with a switch, with the tokens where it is.
-/

namespace PhpStyle

/-- The choices of a switch layout. -/
structure SwitchStyle where
  /-- The width of an indent. -/
  indent : Nat := 4
  /-- The start of a comment that marks an intended fallthrough. -/
  marker : String := "// break omitted"
  deriving DecidableEq, Repr

/-- Something that is wrong with a switch. The word of a label is its name in capitals. -/
inductive SwitchProblem where
  /-- The switch cannot be taken apart. -/
  | malformed (cause : SwitchError)
  /-- There is no case. -/
  | noCase
  /-- There is no default. -/
  | noDefault
  /-- The closing brace is not below the keyword. -/
  | misplacedBrace
  /-- A label is not in small letters. -/
  | notLower (word expected found : String)
  /-- A label does not stand one indent behind the keyword. -/
  | labelColumn (word : String) (indent : Nat)
  /-- There is whitespace in front of the colon. -/
  | spaceBeforeColon (word : String)
  /-- A case label is not followed by one space. -/
  | noSingleSpace
  /-- A break does not stand one indent behind the labels. -/
  | breakColumn (indent : Nat)
  /-- There is no code between a case label and its break. -/
  | emptyCase
  /-- There is a blank line in front of a break. -/
  | blankBeforeBreak
  /-- There is no single blank line behind a break. -/
  | noBlankAfterBreak
  /-- Nothing ends a case. -/
  | noTerminator (marker : String)
  /-- There is no single blank line behind another end of a case. -/
  | noBlankAfterEnding
  /-- There is a blank line behind a case label. -/
  | blankAfterCase
  /-- There is a blank line behind the break of the default branch. -/
  | blankAfterDefaultBreak
  /-- The default branch is empty. -/
  | emptyDefault
  /-- There is a blank line behind the default label. -/
  | blankAfterDefault
  deriving DecidableEq, Repr

/-- The wording of the problem. -/
def SwitchProblem.message : SwitchProblem → String
  | malformed cause => cause.message
  | noCase => "All SWITCH statements must contain at least one CASE statement"
  | noDefault => "All SWITCH statements must contain a DEFAULT case"
  | misplacedBrace => "Closing brace of SWITCH statement must be aligned with SWITCH keyword"
  | notLower word expected found =>
    s!"{word} keyword must be lowercase; expected \"{expected}\" but found \"{found}\""
  | labelColumn word indent =>
    s!"{word} keyword must be indented {indent} spaces from SWITCH keyword"
  | spaceBeforeColon word => s!"There must be no space before the colon in a {word} statement"
  | noSingleSpace => "CASE keyword must be followed by a single space"
  | breakColumn indent => s!"BREAK statement must be indented {indent} spaces from CASE keyword"
  | emptyCase => "Empty CASE statements are not allowed"
  | blankBeforeBreak => "Blank lines are not allowed before BREAK statements"
  | noBlankAfterBreak => "BREAK statements must be followed by a single blank line"
  | noTerminator marker =>
    s!"CASE statement must have a BREAK, THROW or RETURN statement or the following comment: " ++
      marker
  | noBlankAfterEnding => "THROW/RETURN/COMMENT statement must be followed by a single blank line"
  | blankAfterCase => "Blank lines are not allowed after CASE statements"
  | blankAfterDefaultBreak =>
    "Blank lines are not allowed after the DEFAULT case's BREAK statement"
  | emptyDefault => "Comment required for empty DEFAULT case"
  | blankAfterDefault => "Blank lines are not allowed after DEFAULT statements"

/-- A problem and the token where it is. -/
structure SwitchRemark where
  /-- The index of the token. -/
  index : Nat
  /-- What is wrong there. -/
  problem : SwitchProblem
  deriving DecidableEq, Repr

/-- A remark that is made unless `fine` holds. -/
def remarkUnless (fine : Bool) (index : Nat) (problem : SwitchProblem) : List SwitchRemark :=
  if fine then [] else [⟨index, problem⟩]

/-! ## Around a branch -/

/-- The name of the label in capitals. -/
def Branch.word (b : Branch) : String := if b.isDefault then "DEFAULT" else "CASE"

/-- Where the content of the body ends: at the break, or at the end of the body. -/
def Branch.bound (b : Branch) : Nat :=
  match b.terminator with
  | .breakAt i => i
  | _ => b.bodyEnd

/-- The first token of the content of a body, whitespace apart. -/
def Branch.content? (b : Branch) (tokens : TokenSeq) : Option Nat :=
  tokens.nextNot [.whitespace] b.bodyStart (some b.bound)

/-- Whether the content of the body, or its end, is on the line behind the label. -/
def Branch.startsOnNextLine (b : Branch) (tokens : TokenSeq) : Checked Bool := do
  let first ← tokens.read ((b.content? tokens).getD b.bound)
  let label ← tokens.read b.label
  return first.line == label.line + 1

/-- The first token behind the statement of the break at `i` and before `closer`, whitespace
apart. -/
def afterBreak? (tokens : TokenSeq) (closer i : Nat) : Option Nat :=
  let stop := (tokens.nextOf [.semicolon] i (some closer)).getD i
  tokens.nextNot [.whitespace] (stop + 1) (some closer)

/-- The line of the last token in front of the break at `i`, whitespace apart. It is zero if there
is none behind the keyword. -/
def lineBefore (tokens : TokenSeq) (keyword i : Nat) : Checked Nat := do
  match tokens.prevNot [.whitespace] (← minus i 1) (keyword + 1) with
  | some j => return (← tokens.read j).line
  | none => return 0

/-- Whether one blank line separates the break at `i`, on the given line, from what follows it. -/
def isSeparated (tokens : TokenSeq) (closer i line : Nat) : Checked Bool := do
  match afterBreak? tokens closer i with
  | some j => return (← tokens.read j).line == line + 2
  | none => return true

/-- The line of what follows the break at `i`: a token of the switch or the closing brace. -/
def lineAfter (tokens : TokenSeq) (closer i : Nat) : Checked Nat := do
  let closing ← tokens.read closer
  match afterBreak? tokens closer i with
  | some j => return (← tokens.read j).line
  | none => return closing.line

/-! ## The checks -/

namespace SwitchStyle

/-- The checks of a label: letters, column and colon. Labels stand in column `column`. -/
def labelRemarks (style : SwitchStyle) (tokens : TokenSeq) (column : Nat) (b : Branch) :
    Checked (List SwitchRemark) := do
  let t ← tokens.read b.label
  let lower := Text.lower t.text
  let beforeColon ← tokens.read (← minus b.colon 1)
  return remarkUnless (t.text == lower) b.label (.notLower b.word lower t.text) ++
    remarkUnless (t.column == column) b.label (.labelColumn b.word style.indent) ++
    remarkUnless (beforeColon.kind != .whitespace) b.label (.spaceBeforeColon b.word)

/-- The column of a break. Labels stand in column `column`. -/
def breakRemarks (style : SwitchStyle) (tokens : TokenSeq) (column i : Nat) :
    Checked (List SwitchRemark) := do
  let t ← tokens.read i
  let expected ← plus column style.indent
  return remarkUnless (t.column == expected) i (.breakColumn style.indent)

/-- The checks of a case that ends in the break at `i`. -/
def caseBreakRemarks (style : SwitchStyle) (tokens : TokenSeq) (switch : Switch) (column : Nat)
    (b : Branch) (i : Nat) : Checked (List SwitchRemark) := do
  let columnRemarks ← style.breakRemarks tokens column i
  let t ← tokens.read i
  let body ← tokens.readRange b.bodyStart i
  let hasCode := body.any fun (t, _) => !t.isTrivia
  let before ← lineBefore tokens switch.keyword i
  let separated ← isSeparated tokens switch.closer i t.line
  return columnRemarks ++ remarkUnless hasCode b.label .emptyCase ++
    remarkUnless (before + 1 == t.line) i .blankBeforeBreak ++
    remarkUnless separated i .noBlankAfterBreak

/-- The blank line behind the ending at `i`, which reaches to `last`. -/
def endingRemarks (tokens : TokenSeq) (switch : Switch) (i last : Nat) :
    Checked (List SwitchRemark) := do
  match tokens.nextNot [.whitespace] (last + 1) (some switch.closer) with
  | none => return []
  | some j =>
    let next ← tokens.read j
    let t ← tokens.read i
    return remarkUnless (next.line == t.line + 2) i .noBlankAfterEnding

/-- The checks of the end of a case. A case that is stacked on the next one has none. -/
def terminatorRemarks (style : SwitchStyle) (tokens : TokenSeq) (switch : Switch) (column : Nat)
    (b : Branch) : Checked (List SwitchRemark) :=
  if b.stacked then .ok []
  else
    match b.terminator with
    | .breakAt i => style.caseBreakRemarks tokens switch column b i
    | .returnAt i | .throwAt i =>
      endingRemarks tokens switch i ((tokens.nextOf [.semicolon] i (some b.bodyEnd)).getD i)
    | .fallthroughAt i => endingRemarks tokens switch i i
    | .absent => .ok [⟨b.label, .noTerminator style.marker⟩]

/-- Whether a label is followed by one space. -/
def isSpaced (tokens : TokenSeq) (label : Nat) : Bool :=
  (tokens.get? (label + 1)).any fun t => t.kind == .whitespace && t.text == " "

/-- The checks of a case. -/
def caseRemarks (style : SwitchStyle) (tokens : TokenSeq) (switch : Switch) (column : Nat)
    (b : Branch) : Checked (List SwitchRemark) := do
  let label ← style.labelRemarks tokens column b
  let ending ← style.terminatorRemarks tokens switch column b
  let onNextLine ← b.startsOnNextLine tokens
  return label ++ remarkUnless (isSpaced tokens b.label) b.label .noSingleSpace ++ ending ++
    remarkUnless onNextLine b.label .blankAfterCase

/-- The checks of the end of the default branch, which need not have one. -/
def defaultBreakRemarks (style : SwitchStyle) (tokens : TokenSeq) (switch : Switch) (column : Nat)
    (b : Branch) : Checked (List SwitchRemark) :=
  match b.terminator with
  | .breakAt i => do
    let columnRemarks ← style.breakRemarks tokens column i
    let after ← lineAfter tokens switch.closer i
    let t ← tokens.read i
    return columnRemarks ++ remarkUnless (after == t.line + 1) i .blankAfterDefaultBreak
  | _ => .ok []

/-- The checks of the default branch. -/
def defaultRemarks (style : SwitchStyle) (tokens : TokenSeq) (switch : Switch) (column : Nat)
    (b : Branch) : Checked (List SwitchRemark) := do
  let label ← style.labelRemarks tokens column b
  let ending ← style.defaultBreakRemarks tokens switch column b
  let onNextLine ← b.startsOnNextLine tokens
  return label ++ ending ++ remarkUnless (b.content? tokens).isSome b.label .emptyDefault ++
    remarkUnless onNextLine b.label .blankAfterDefault

/-- The checks of the default branch, or that there is none. -/
def defaultPartRemarks (style : SwitchStyle) (tokens : TokenSeq) (switch : Switch) (column : Nat) :
    Checked (List SwitchRemark) :=
  match switch.default? with
  | some b => style.defaultRemarks tokens switch column b
  | none => .ok [⟨switch.keyword, .noDefault⟩]

/-- The checks of a switch that could be taken apart. -/
def switchRemarks (style : SwitchStyle) (tokens : TokenSeq) (switch : Switch) :
    Checked (List SwitchRemark) := do
  let keyword ← tokens.read switch.keyword
  let column ← plus keyword.column style.indent
  let cases ← switch.cases.mapM (style.caseRemarks tokens switch column)
  let default ← style.defaultPartRemarks tokens switch column
  let closing ← tokens.read switch.closer
  return remarkUnless (!switch.cases.isEmpty) switch.keyword .noCase ++ cases.flatten ++ default ++
    remarkUnless (closing.column == keyword.column) switch.closer .misplacedBrace

/-- Everything that is wrong with the switch of a keyword. A switch that cannot be taken apart is
one remark. -/
def remarks (style : SwitchStyle) (tokens : TokenSeq) (keyword : Nat) :
    Checked (List SwitchRemark) := do
  match ← Switch.ofKeyword tokens keyword style.marker with
  | .error e => return [⟨keyword, .malformed e⟩]
  | .ok switch => style.switchRemarks tokens switch

end SwitchStyle

end PhpStyle
