import PhpStyle.Event
import PhpStyle.Token.Seq

/-!
# Scopes

One pass over the tokens ties together what belongs together:

* an opening brace, the brace that closes it, and the keyword that owns the scope between them,
  which is the last scope-owning keyword since the last semicolon or brace; a brace without such a
  keyword owns its scope itself;
* a branch label and the colon that ends it, at the same depth of parentheses;
* every token and the owners of the scopes around it.

`Linker` is the state of the pass, `Linker.step` one step, and `Linker.run` the whole pass. What
remains unmatched is reported by `Linker.warnings`.
-/

namespace PhpStyle

/-- A scope that has been opened and not yet closed. -/
structure Scope where
  /-- The token that owns the scope. -/
  owner : Nat
  /-- The opening brace. -/
  brace : Nat
  deriving DecidableEq, Repr

/-- The state of the pass that links scopes. -/
structure Linker where
  /-- The tokens with the links found so far. -/
  tokens : Array Token
  /-- The scopes that are open, innermost first. -/
  scopes : List Scope := []
  /-- The keyword that owns the next brace. -/
  waiting : Option Nat := none
  /-- The branch label that has no colon yet, with the depth of parentheses around it. -/
  label : Option (Nat × Nat) := none
  /-- The number of open parentheses. -/
  depth : Nat := 0
  /-- The closing braces without an opening one, last first. -/
  unmatched : List Nat := []

namespace Linker

/-- Changes the token at `i`. -/
def edit (l : Linker) (i : Nat) (f : Token → Token) : Linker :=
  { l with tokens := l.tokens.modify i f }

/-- Notes at the token `i` which scopes are open. -/
def enclose (l : Linker) (i : Nat) : Linker :=
  l.edit i fun t => { t with enclosing := l.scopes.map (·.owner) }

/-- Opens a scope at the brace `i`. -/
def openScope (l : Linker) (i : Nat) : Linker :=
  let owner := l.waiting.getD i
  let link (t : Token) : Token := { t with opener := some i }
  { (l.edit owner link).edit i link with
    scopes := ⟨owner, i⟩ :: l.scopes
    waiting := none }

/-- Closes the innermost scope at the brace `i`. -/
def closeScope (l : Linker) (i : Nat) : Linker :=
  match l.scopes with
  | [] => { l with unmatched := i :: l.unmatched }
  | scope :: outer =>
    let close (t : Token) : Token := { t with closer := some i }
    let l := { (l.edit scope.owner close).edit scope.brace close with scopes := outer }
    (l.edit i fun t => { t with opener := some scope.brace, closer := some i }).enclose i

/-- Ends the waiting label at the colon `i`, if the colon stands as deep as the label. -/
def endLabel (l : Linker) (i : Nat) : Linker :=
  match l.label with
  | some (label, depth) =>
    if depth = l.depth then
      { l.edit label (fun t => { t with opener := some i }) with label := none }
    else l
  | none => l

/-- Takes in the token `i`, which is of the given kind. -/
def step (l : Linker) (kind : Kind) (i : Nat) : Linker :=
  let l := l.enclose i
  if kind.ownsScope then { l with waiting := some i }
  else
    match kind with
    | .semicolon => { l with waiting := none }
    | .openParen => { l with depth := l.depth + 1 }
    | .closeParen => { l with depth := l.depth - 1 }
    | .kwCase | .kwDefault => { l with label := some (i, l.depth) }
    | .colon => l.endLabel i
    | .openBrace => l.openScope i
    | .closeBrace => l.closeScope i
    | _ => l

/-- Takes in all tokens, in order. -/
def run (tokens : Array Token) : Linker :=
  (tokens.toList.map (·.kind)).zipIdx.foldl (fun l (kind, i) => l.step kind i) { tokens }

/-- The unmatched braces: first those that close nothing, then those that are never closed, from
the outermost inwards and under the place of their owner. -/
def warnings (l : Linker) : List Event :=
  (l.unmatched.reverse.filterMap fun i => l.tokens[i]?.map fun t =>
      Event.unbalancedBrace t.line t.column) ++
    (l.scopes.reverse.filterMap fun scope => l.tokens[scope.owner]?.map fun t =>
      Event.unclosedScope t.line t.column)

end Linker

end PhpStyle
