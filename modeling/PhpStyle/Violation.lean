import PhpStyle.Severity
import PhpStyle.Text.Blank
import PhpStyle.Token.Seq

/-!
# Violations

* `Location` — the place of a violation: a token of a file, with its position and the number of
  bytes that it covers without the line end.
* `Violation` — what a rule found, in the two written forms `Violation.summary` (one line) and
  `Violation.entry` (the paragraph of a report), and as a `Diagnostic` for a source viewer.
-/

namespace PhpStyle

/-- A place in a file. -/
structure Location extends Position where
  /-- The path of the file. -/
  file : String
  /-- The index of the token. -/
  token : Nat := 0
  /-- The number of bytes covered. -/
  length : Nat := 0
  deriving DecidableEq, Repr

namespace Location

/-- The place of the token with the given index. The line end behind it is not covered. -/
def ofToken (file : String) (index : Nat) (t : Token) : Location where
  toPosition := t.toPosition
  file
  token := index
  length := (String.ofList (Text.dropEndWhile (fun c => c == '\r' || c == '\n')
    t.text.toList)).utf8ByteSize

end Location

/-- Something a rule found. -/
structure Violation where
  /-- The code of the rule. -/
  code : String
  /-- The name of the rule. -/
  rule : String
  /-- How grave it is. -/
  severity : Severity
  /-- Where it is. -/
  location : Location
  /-- What it is. -/
  message : String
  deriving DecidableEq, Repr

/-- A message with one labelled span of bytes. -/
structure Diagnostic where
  /-- The message. -/
  message : String
  /-- The text at the span. -/
  label : String
  /-- The first byte of the span. -/
  offset : Nat
  /-- The number of bytes of the span. -/
  length : Nat
  deriving DecidableEq, Repr

namespace Violation

/-- The violation on one line. -/
def summary (v : Violation) : String :=
  s!"{v.location.file}:{v.location.line}:{v.location.column}: {v.severity.name} [{v.code}] " ++
    v.message

/-- The violation as a paragraph of a report. -/
def entry (v : Violation) : String :=
  s!"{v.code} {v.rule} at {v.location.file}:{v.location.line}:{v.location.column}\n" ++
    s!"  {v.severity.name}: {v.message}\n"

/-- The violation for a source viewer. -/
def diagnostic (v : Violation) : Diagnostic where
  message := s!"[{v.code}] {v.message}"
  label := v.rule
  offset := v.location.offset
  length := v.location.length

end Violation

end PhpStyle
