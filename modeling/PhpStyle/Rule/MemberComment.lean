import PhpStyle.Doc.Span

/-!
# The comments of member variables

A variable that a class or interface body declares behind a modifier is a member and has a
documentation block. Parameters and the variables of a method body are no members.
-/

namespace PhpStyle.MemberComment

/-- The name and code of the rule. -/
def id : RuleId := ⟨"variable-comment", "SL002"⟩

/-- Whether the innermost scope around the token `i` is the body of a class or interface. -/
def inTypeBody (tokens : TokenSeq) (i : Nat) : Checked Bool := do
  match tokens.owner i with
  | none => return false
  | some owner =>
    let t ← tokens.read owner
    return t.kind == .kwClass || t.kind == .kwInterface

/-- The first token of the statement that the token `i` is in. -/
def statementStart (tokens : TokenSeq) (i : Nat) : Nat :=
  match tokens.prevOf [.semicolon, .openBrace, .closeBrace] i 0 with
  | some j => j + 1
  | none => 0

/-- Whether the comma at `i` separates the variables of one declaration: the statement starts with
a modifier and declares no function. -/
def continuesDeclaration (tokens : TokenSeq) (i : Nat) : Checked Bool := do
  let statement := statementStart tokens i
  if (tokens.nextOf [.kwFunction] statement (some i)).isSome then return false
  match tokens.nextNot [.whitespace, .comment, .docComment] statement (some i) with
  | none => return false
  | some j => return (← tokens.read j).kind == .keyword

/-- Whether the variable at `i` is declared as a member. -/
def isMember (tokens : TokenSeq) (i : Nat) : Checked Bool := do
  if !(← inTypeBody tokens i) || i == 0 then return false
  let skipped := [.whitespace, .comment, .docComment, .identifier]
  match tokens.prevNot skipped (← minus i 1) 0 with
  | none => return false
  | some j =>
    match (← tokens.read j).kind with
    | .keyword => return true
    | .comma => continuesDeclaration tokens j
    | _ => return false

/-- The answer when the comment of the variable at `i` is missing. -/
def missing (u : SourceUnit) (i : Nat) : Inspection :=
  id.oneError u i "Missing variable doc comment"

/-- The tokens at which the reach of a comment ends. -/
def boundaries : List Kind :=
  [.variableName, .kwClass, .kwInterface, .semicolon, .openBrace, .closeBrace]

/-- The first token of the block that ends at `last`. -/
def blockStart (tokens : TokenSeq) (last : Nat) : Nat :=
  match tokens.prevNot [.docComment] last 0 with
  | some j => j + 1
  | none => 0

/-- What is wrong at the variable `i`. The comment before it counts if nothing else stands
between. -/
def check (schema : DocSchema) (u : SourceUnit) (i : Nat) : Checked Inspection := do
  let tokens := u.tokens
  if !(← isMember tokens i) then return {}
  match tokens.prevOf [.comment, .docComment] (← minus i 1) 0 with
  | none => return missing u i
  | some last =>
    if tokens.nextOf boundaries (last + 1) none != some i then return missing u i
    let t ← tokens.read last
    if t.kind == .comment then
      return id.oneError u i "You must use \"/**\" style comments for a variable comment"
    schema.inspect id u (blockStart tokens last) last

/-- The rule, for the given shape of block. -/
def rule (schema : DocSchema) : Rule where
  toRuleId := id
  description := "Requires a doc comment on member variables"
  triggers := [.variableName]
  check := check schema

end PhpStyle.MemberComment
