import PhpStyle.Rule.Basic

/-!
# Rules on spaces

* `trailingRule` — no whitespace at the end of a line. Lines of whitespace alone are left alone,
  and so are line ends with a carriage return. In a documentation block the space behind the
  leading star is allowed.
* `castRule` — a space behind a type cast.
-/

namespace PhpStyle.Spacing

/-! ## The end of a line -/

/-- The name and code of the rule on trailing whitespace. -/
def trailingId : RuleId := ⟨"trailing-whitespace", "SL010"⟩

/-- The text of a token without the line end behind it. -/
def lineOf (t : Token) : List Char :=
  Text.dropEndWhile (fun c => c == '\r' || c == '\n') t.text.toList

/-- Whether a line of a documentation block ends in spaces that do not just follow its star. -/
def docTrails (line : List Char) : Bool :=
  let body := Text.dropEndWhile (· == ' ') line
  body.length < line.length && !body.isEmpty && body.getLast? != some '*'

/-- Whether a whitespace token ends a line behind something: it has characters in front of its
first newline, and starts on the line on which the token before it starts. -/
def gapTrails (tokens : TokenSeq) (i : Nat) (t : Token) : Checked Bool := do
  let text := t.text.toList
  if (Text.cutAt ['\r', '\n'] text).isSome then return false
  match Text.indexOf? ['\n'] text with
  | none | some 0 => return false
  | some _ =>
    if i = 0 then return false
    let before ← tokens.read (← minus i 1)
    return before.line == t.line

/-- Whether the token at `i` has whitespace at the end of a line. -/
def trails (tokens : TokenSeq) (i : Nat) : Checked Bool := do
  let t ← tokens.read i
  match t.kind with
  | .docComment => return docTrails (lineOf t)
  | .comment => return (lineOf t).getLast? == some ' '
  | .whitespace => gapTrails tokens i t
  | _ => return false

/-- What is wrong at the token `i`. -/
def checkTrailing (u : SourceUnit) (i : Nat) : Checked Inspection := do
  return if ← trails u.tokens i then
    trailingId.oneError u i "Trailing Whitespace at the end of line is not allowed" else {}

/-- The rule on trailing whitespace. -/
def trailingRule : Rule where
  toRuleId := trailingId
  description := "Forbids whitespace at the end of a line"
  triggers := [.whitespace, .comment, .docComment]
  check := checkTrailing

/-! ## Type casts -/

/-- The name and code of the rule on type casts. -/
def castId : RuleId := ⟨"space-after-cast", "SL011"⟩

/-- What is wrong at the cast `i`. -/
def checkCast (u : SourceUnit) (i : Nat) : Checked Inspection :=
  if u.tokens.kindAt (· == .whitespace) (i + 1) then .ok {}
  else .ok (castId.oneError u i "A cast statement must be followed by a space")

/-- The rule on type casts. -/
def castRule : Rule where
  toRuleId := castId
  description := "Requires a space after type casts"
  triggers := [.cast]
  check := checkCast

end PhpStyle.Spacing
