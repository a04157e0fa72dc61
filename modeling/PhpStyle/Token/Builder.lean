import PhpStyle.Token.Scope

/-!
# Building a token sequence

A `Builder` takes kinds and texts in order and places each token where the text before it ends.
`Builder.finish` links the scopes. `TokenSeq.ofPairs` does both for a list.
-/

namespace PhpStyle

/-- A token sequence under construction. -/
structure Builder where
  /-- The tokens so far. -/
  tokens : Array Token := #[]
  /-- The place where the next token starts. -/
  place : Position := {}

namespace Builder

/-- The number of tokens so far. -/
def size (b : Builder) : Nat := b.tokens.size

/-- Whether there is no token yet. -/
def isEmpty (b : Builder) : Bool := b.tokens.isEmpty

/-- Adds a token at the end. -/
def push (b : Builder) (kind : Kind) (text : String) : Builder where
  tokens := b.tokens.push { b.place with kind, text }
  place := b.place.after text

/-- Adds tokens at the end. -/
def pushAll (b : Builder) (pairs : List (Kind × String)) : Builder :=
  pairs.foldl (fun b (kind, text) => b.push kind text) b

/-- The finished sequence. -/
def finish (b : Builder) : TokenSeq := ⟨(Linker.run b.tokens).tokens⟩

/-- What finishing reports. -/
def warnings (b : Builder) : List Event := (Linker.run b.tokens).warnings

end Builder

/-- The linked token sequence of a list of kinds and texts. -/
def TokenSeq.ofPairs (pairs : List (Kind × String)) : TokenSeq :=
  (Builder.pushAll {} pairs).finish

/-- The unmatched braces in a list of kinds and texts. -/
def TokenSeq.warningsOf (pairs : List (Kind × String)) : List Event :=
  (Builder.pushAll {} pairs).warnings

end PhpStyle
