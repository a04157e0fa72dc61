import PhpStyle.Token.Kind

/-!
# Tokens and their positions

* `Position` — line, column and offset of a place in a text. Lines and columns count from one,
  columns in characters, offsets in bytes of the UTF-8 form.
* `Position.after` — the place that is reached by reading a text from a given place.
* `Token` — a piece of text with its kind, its place, and the links into the token sequence that
  tie scopes together.
-/

namespace PhpStyle

/-- A place in a text. -/
structure Position where
  /-- The line, counted from one. -/
  line : Nat := 1
  /-- The column in characters, counted from one. -/
  column : Nat := 1
  /-- The number of bytes before the place. -/
  offset : Nat := 0
  deriving DecidableEq, Repr

namespace Position

/-- The place behind one character. -/
def next (p : Position) (c : Char) : Position :=
  if c = '\n' then ⟨p.line + 1, 1, p.offset + c.utf8Size⟩
  else ⟨p.line, p.column + 1, p.offset + c.utf8Size⟩

/-- The place behind a text that starts at `p`. -/
def after (p : Position) (s : String) : Position := s.toList.foldl next p

end Position

/-- A token of a source text. -/
structure Token extends Position where
  /-- The class of the token. -/
  kind : Kind
  /-- The characters of the token. -/
  text : String
  /-- For a keyword or a brace, the opening brace of its scope; for a branch label, its colon. -/
  opener : Option Nat := none
  /-- The closing brace of the scope. -/
  closer : Option Nat := none
  /-- The owners of the scopes around the token, innermost first. -/
  enclosing : List Nat := []
  deriving DecidableEq, Repr

namespace Token

/-- Whether the token is whitespace or a comment. -/
def isTrivia (t : Token) : Bool := t.kind.isTrivia

/-- The owner of the innermost scope around the token. -/
def enclosing? (t : Token) : Option Nat := t.enclosing.head?

end Token

end PhpStyle
