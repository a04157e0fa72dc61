import PhpStyle.Doc.Span

/-!
# The comment of a file

The first opening tag is followed by a documentation block for the file. A block that a single
line end separates from the next class or function belongs to that declaration, and the file then
has none.
-/

namespace PhpStyle.FileComment

/-- The name and code of the rule. -/
def id : RuleId := ⟨"file-comment", "SL001"⟩

/-- The answer when the comment is missing, behind the opening tag `i`. -/
def missing (u : SourceUnit) (i : Nat) : Inspection :=
  id.oneError u (i + 1) "Missing file doc comment"

/-- Whether a comment is a line of settings for an editor, which may stand above the block. -/
def isModeline (t : Token) : Bool :=
  t.kind == .comment && (Text.cutAt "vim:".toList t.text.toList).isSome

/-- The first token behind the opening tag `i`, whitespace and one modeline apart. -/
def candidate? (tokens : TokenSeq) (i : Nat) : Checked (Option Nat) := do
  match tokens.nextNot [.whitespace] (i + 1) none with
  | none => return none
  | some j =>
    let t ← tokens.read j
    return if isModeline t then tokens.nextNot [.whitespace] (j + 1) none else some j

/-- The last token of the block that starts at `start`. -/
def blockEnd (tokens : TokenSeq) (start : Nat) : Checked Nat :=
  match tokens.nextNot [.docComment] start none with
  | some j => minus j 1
  | none => minus tokens.size 1

/-- Whether a token is nothing but a line end. -/
def isLineEnd (t : Token) : Bool :=
  t.kind == .whitespace && (t.text == "\n" || t.text == "\r\n")

/-- Whether the block that ends at `last` belongs to a declaration behind it. -/
def belongsToDeclaration (tokens : TokenSeq) (last : Nat) : Checked Bool := do
  match tokens.nextOf [.kwAbstract, .kwClass, .kwFunction, .docComment] (last + 1) none with
  | none => return false
  | some j =>
    let t ← tokens.read j
    if t.kind == .docComment then return false
    let between ← tokens.readRange (last + 1) j
    return between.countP (fun (t, _) => isLineEnd t) == 1

/-- Whether an opening tag stands before the token `i`. -/
def hasEarlierTag (tokens : TokenSeq) (i : Nat) : Checked Bool := do
  if i = 0 then return false
  return (tokens.prevOf [.openTag] (← minus i 1) 0).isSome

/-- What is wrong behind the opening tag `i`. -/
def check (schema : DocSchema) (u : SourceUnit) (i : Nat) : Checked Inspection := do
  if ← hasEarlierTag u.tokens i then return {}
  match ← candidate? u.tokens i with
  | none => return missing u i
  | some start =>
    let t ← u.tokens.read start
    match t.kind with
    | .closeTag => return {}
    | .comment =>
      return id.oneError u (i + 1) "You must use \"/**\" style comments for a file comment"
    | .docComment =>
      let last ← blockEnd u.tokens start
      if ← belongsToDeclaration u.tokens last then return missing u i
      schema.inspect id u start last
    | _ => return missing u i

/-- The rule, for the given shape of block. -/
def rule (schema : DocSchema) : Rule where
  toRuleId := id
  description := "Requires a file doc comment after the first open tag"
  triggers := [.openTag]
  check := check schema

end PhpStyle.FileComment
