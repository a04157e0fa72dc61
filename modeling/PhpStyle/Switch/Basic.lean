import PhpStyle.Text.Blank
import PhpStyle.Text.Case
import PhpStyle.Token.Seq

/-!
# Switch statements

A switch taken apart: its braces, and for each branch the label, the colon, the tokens of the body
and what ends it. The labels of a switch are those whose innermost scope belongs to its keyword; a
switch inside it is skipped with everything up to its closing brace.

* `Terminator`, `Branch`, `Switch` — the parts.
* `SwitchError` — why a switch cannot be taken apart.
* `Switch.labelsFrom` — the search for the labels.
* `Switch.terminatorOf` — what ends a body.
* `Switch.ofKeyword` — the switch of a keyword.
-/

namespace PhpStyle

/-- What ends the body of a branch. -/
inductive Terminator where
  /-- A break that belongs to the switch. -/
  | breakAt (index : Nat)
  /-- A return. -/
  | returnAt (index : Nat)
  /-- A throw. -/
  | throwAt (index : Nat)
  /-- A comment that says that the next branch is entered on purpose. -/
  | fallthroughAt (index : Nat)
  /-- Nothing. -/
  | absent
  deriving DecidableEq, Repr

/-- The token that ends the body. -/
def Terminator.index? : Terminator → Option Nat
  | breakAt i | returnAt i | throwAt i | fallthroughAt i => some i
  | absent => none

/-- A branch of a switch. -/
structure Branch where
  /-- The label. -/
  label : Nat
  /-- Whether the label is the default one. -/
  isDefault : Bool
  /-- The colon behind the label. -/
  colon : Nat
  /-- The next label, or the closing brace. -/
  bodyEnd : Nat
  /-- Whether only whitespace separates the colon from a next label. -/
  stacked : Bool
  /-- What ends the body. -/
  terminator : Terminator
  deriving DecidableEq, Repr

/-- The first token of the body. -/
def Branch.bodyStart (b : Branch) : Nat := b.colon + 1

/-- A switch and its branches. -/
structure Switch where
  /-- The keyword. -/
  keyword : Nat
  /-- The opening brace. -/
  opener : Nat
  /-- The closing brace. -/
  closer : Nat
  /-- All branches, in order. -/
  branches : List Branch
  deriving DecidableEq, Repr

/-- Why a switch cannot be taken apart. -/
inductive SwitchError where
  /-- The keyword has no opening brace. -/
  | missingOpener
  /-- The keyword has no closing brace. -/
  | missingCloser
  /-- A label has no colon; the label is given in capitals. -/
  | missingColon (label : String)
  /-- A switch inside the switch has no closing brace. -/
  | unclosedNested
  deriving DecidableEq, Repr

/-- The wording of the error. -/
def SwitchError.message : SwitchError → String
  | missingOpener => "SWITCH statement has no opening brace"
  | missingCloser => "SWITCH statement has no closing brace"
  | missingColon label => s!"{label} statement has no colon"
  | unclosedNested => "Nested SWITCH statement has no closing brace"

namespace Switch

/-- The branches that are not default ones. -/
def cases (s : Switch) : List Branch := s.branches.filter (!·.isDefault)

/-- The last default branch. -/
def default? (s : Switch) : Option Branch := (s.branches.filter (·.isDefault)).getLast?

/-! ## Labels -/

/-- The labels in `[i, stop)` that belong to the scope of `keyword`. The search jumps over a switch
inside the scope to the token behind its closing brace. -/
def labelsFrom (tokens : TokenSeq) (keyword stop i : Nat) :
    Checked (Except SwitchError (List Nat)) :=
  if i < stop then
    match tokens.get? i with
    | none => .error (.noToken i)
    | some t =>
      if t.kind = .kwSwitch then
        match t.closer with
        | none => .ok (.error .unclosedNested)
        | some c => if i ≤ c then labelsFrom tokens keyword stop (c + 1) else .error .stuck
      else if t.kind.isLabel && t.enclosing? == some keyword then
        (labelsFrom tokens keyword stop (i + 1)).map (Except.map (i :: ·))
      else labelsFrom tokens keyword stop (i + 1)
  else .ok (.ok [])
termination_by stop - i

/-! ## Bodies -/

/-- Whether a comment says that the next branch is entered on purpose. -/
def marksFallthrough (marker : String) (t : Token) : Bool :=
  marker.toList.isPrefixOf (Text.trimStart t.text.toList)

/-- How a token that is no break can end a body. -/
def ending? (marker : String) (t : Token) (i : Nat) : Option Terminator :=
  match t.kind with
  | .kwReturn => some (.returnAt i)
  | .kwThrow => some (.throwAt i)
  | .comment => if marksFallthrough marker t then some (.fallthroughAt i) else none
  | _ => none

/-- What ends a body: the first break of the switch, or else the last token that can end it
otherwise. -/
def terminatorOf (keyword : Nat) (marker : String) (body : List (Token × Nat)) : Terminator :=
  match body.find? fun (t, _) => t.kind == .kwBreak && t.enclosing? == some keyword with
  | some (_, b) => .breakAt b
  | none => (body.reverse.findSome? fun (t, i) => ending? marker t i).getD .absent

/-! ## Branches -/

/-- The branch of a label, whose body ends in front of `bodyEnd`. -/
def branchOf (tokens : TokenSeq) (keyword closer : Nat) (marker : String) (label bodyEnd : Nat) :
    Checked (Except SwitchError Branch) := do
  let t ← tokens.read label
  match tokens.opener label with
  | none => return .error (.missingColon (Text.upper t.text))
  | some colon =>
    let body ← tokens.readRange (colon + 1) bodyEnd
    let stacked := bodyEnd != closer && body.all fun (t, _) => t.kind == .whitespace
    let terminator := if stacked then .absent else terminatorOf keyword marker body
    return .ok { label, isDefault := t.kind == .kwDefault, colon, bodyEnd, stacked, terminator }

/-- The branches of the labels. A body ends in front of the next label or of the closing brace. -/
def branchesOf (tokens : TokenSeq) (keyword closer : Nat) (marker : String) :
    List Nat → Checked (Except SwitchError (List Branch))
  | [] => .ok (.ok [])
  | label :: labels => do
    match ← branchOf tokens keyword closer marker label (labels.head?.getD closer) with
    | .error e => return .error e
    | .ok branch =>
      let branches ← branchesOf tokens keyword closer marker labels
      return branches.map (branch :: ·)

/-- The switch of the keyword with the given index. Comments that start with `marker` count as an
intended fallthrough. -/
def ofKeyword (tokens : TokenSeq) (keyword : Nat) (marker : String) :
    Checked (Except SwitchError Switch) := do
  match tokens.opener keyword, tokens.closer keyword with
  | none, _ => return .error .missingOpener
  | some _, none => return .error .missingCloser
  | some opener, some closer =>
    match ← labelsFrom tokens keyword closer (opener + 1) with
    | .error e => return .error e
    | .ok labels =>
      let branches ← branchesOf tokens keyword closer marker labels
      return branches.map fun branches => { keyword, opener, closer, branches }

end Switch

end PhpStyle
