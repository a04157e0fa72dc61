import PhpStyle.Doc.Basic
import PhpStyle.Path
import PhpStyle.Text.Quoted
import PhpStyle.Token.Lexer
import PhpStyle.Violation

/-!
# Source units

A `SourceUnit` is what a rule looks at: the tokens of one file, its path, and the way in which its
comments are read.
-/

namespace PhpStyle

/-- One file, ready to be checked. -/
structure SourceUnit where
  /-- The path of the file. -/
  path : String
  /-- The tokens of the file. -/
  tokens : TokenSeq
  /-- How its comments are read. -/
  comments : CommentReader

namespace SourceUnit

/-- A unit with the given text, whose comments are read as empty. -/
def ofText (source : String) : SourceUnit where
  path := "Foo.php"
  tokens := .ofSource source
  comments _ := .ok {}

/-- The name of the file without its extension. -/
def stem? (u : SourceUnit) : Option String := Path.stem? u.path

/-- The place of the token with the given index. An index past the end means the last token; a
unit without tokens has its only place at the start. -/
def location (u : SourceUnit) (index : Nat) : Location :=
  let index := min index (u.tokens.size - 1)
  match u.tokens.get? index with
  | some t => Location.ofToken u.path index t
  | none => { file := u.path }

/-- The place of a token that is there names the token. -/
theorem location_token {u : SourceUnit} {i : Nat} (h : i < u.tokens.size) :
    (u.location i).token = i := by
  have hmin : min i (u.tokens.size - 1) = i := by omega
  have hget : u.tokens.get? i = some u.tokens.tokens[i] := Array.getElem?_eq_getElem h
  unfold location
  simp only [hmin, hget]
  rfl

/-- A short description of the unit for debugging. -/
def sketch (u : SourceUnit) : String :=
  s!"FileContext \x7b path: {Text.quoted u.path}, tokens: {u.tokens.size}, .. \x7d"

end SourceUnit

end PhpStyle
