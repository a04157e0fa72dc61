import PhpStyle.Doc.Basic
import PhpStyle.Json.Format
import PhpStyle.Report

/-!
# JSON forms

How tokens, documentation blocks, violations and reports are written as JSON, and how they are
read back, by any library. Each type has a `write` and a `read?`; the fields are written in the
order in which they are listed, and read in any order. `toJson` and `ofJson?` are these functions
for the library of this project.
-/

namespace PhpStyle

variable (F : JsonFormat)

namespace Kind

/-- A kind is written by its name. -/
def write (k : Kind) : F.Value := F.variant k.name

/-- Reads a kind. -/
def read? (tree : F.Tree) : Option Kind := (F.variant? tree).bind ofName?

/-- The JSON form of a kind. -/
def toJson (k : Kind) : Json := k.write .standard

/-- Reads the JSON form of a kind. -/
def ofJson? (tree : JsonTree) : Option Kind := read? .standard tree

end Kind

namespace Severity

/-- A severity is written by its name. -/
def write (s : Severity) : F.Value := F.variant s.name

/-- Reads a severity. -/
def read? (tree : F.Tree) : Option Severity := (F.variant? tree).bind ofName?

/-- The JSON form of a severity. -/
def toJson (s : Severity) : Json := s.write .standard

/-- Reads the JSON form of a severity. -/
def ofJson? (tree : JsonTree) : Option Severity := read? .standard tree

end Severity

namespace Token

/-- The names of the fields. -/
def fieldNames : List String :=
  ["kind", "text", "line", "column", "offset", "scope_opener", "scope_closer", "conditions"]

/-- Writes a token. -/
def write (t : Token) : F.Value :=
  F.record (fieldNames.zip
    [t.kind.write F, F.string t.text, F.nat t.line, F.nat t.column, F.nat t.offset,
      F.option F.nat t.opener, F.option F.nat t.closer, F.ofList F.nat t.enclosing])

/-- Reads a token. -/
def read? (tree : F.Tree) : Option Token := do
  match ← F.record? fieldNames tree with
  | ([kind, text, line, column, offset, opener, closer, enclosing], positional) =>
    return {
      kind := ← F.required (Kind.read? F) kind
      text := ← F.required F.string? text
      line := ← F.required F.nat? line
      column := ← F.required F.nat? column
      offset := ← F.required F.nat? offset
      opener := ← F.optional F.nat? positional opener
      closer := ← F.optional F.nat? positional closer
      enclosing := ← F.required (F.listOf? F.nat?) enclosing }
  | _ => none

/-- The JSON form of a token. -/
def toJson (t : Token) : Json := t.write .standard

/-- Reads the JSON form of a token. -/
def ofJson? (tree : JsonTree) : Option Token := read? .standard tree

end Token

namespace TokenSeq

/-- The names of the fields. -/
def fieldNames : List String := ["tokens"]

/-- Writes a token sequence. -/
def write (s : TokenSeq) : F.Value :=
  F.record (fieldNames.zip [F.ofList (Token.write F) s.tokens.toList])

/-- Reads a token sequence. -/
def read? (tree : F.Tree) : Option TokenSeq := do
  match ← F.record? fieldNames tree with
  | ([tokens], _) => return ⟨(← F.required (F.listOf? (Token.read? F)) tokens).toArray⟩
  | _ => none

/-- The JSON form of a token sequence. -/
def toJson (s : TokenSeq) : Json := s.write .standard

/-- Reads the JSON form of a token sequence. -/
def ofJson? (tree : JsonTree) : Option TokenSeq := read? .standard tree

end TokenSeq

namespace DocTag

/-- The names of the fields. -/
def fieldNames : List String := ["name", "content", "whitespace_before_content", "line"]

/-- Writes a tag. -/
def write (t : DocTag) : F.Value :=
  F.record (fieldNames.zip [F.string t.name, F.string t.content, F.string t.gap, F.nat t.line])

/-- Reads a tag. -/
def read? (tree : F.Tree) : Option DocTag := do
  match ← F.record? fieldNames tree with
  | ([name, content, gap, line], _) =>
    return {
      name := ← F.required F.string? name
      content := ← F.required F.string? content
      gap := ← F.required F.string? gap
      line := ← F.required F.nat? line }
  | _ => none

end DocTag

namespace DocBlock

/-- The names of the fields. -/
def fieldNames : List String :=
  ["short_description", "long_description", "newlines_between", "newlines_before_tags", "tags"]

/-- Writes a block. -/
def write (d : DocBlock) : F.Value :=
  F.record (fieldNames.zip
    [F.string d.short, F.string d.long, F.nat d.newlinesBetween, F.nat d.newlinesBeforeTags,
      F.ofList (DocTag.write F) d.tags])

/-- Reads a block. -/
def read? (tree : F.Tree) : Option DocBlock := do
  match ← F.record? fieldNames tree with
  | ([short, long, between, before, tags], _) =>
    return {
      short := ← F.required F.string? short
      long := ← F.required F.string? long
      newlinesBetween := ← F.required F.nat? between
      newlinesBeforeTags := ← F.required F.nat? before
      tags := ← F.required (F.listOf? (DocTag.read? F)) tags }
  | _ => none

/-- The JSON form of a block. -/
def toJson (d : DocBlock) : Json := d.write .standard

/-- Reads the JSON form of a block. -/
def ofJson? (tree : JsonTree) : Option DocBlock := read? .standard tree

end DocBlock

namespace Location

/-- The names of the fields. -/
def fieldNames : List String := ["file", "token", "line", "column", "offset", "length"]

/-- Writes a place. -/
def write (l : Location) : F.Value :=
  F.record (fieldNames.zip
    [F.string l.file, F.nat l.token, F.nat l.line, F.nat l.column, F.nat l.offset, F.nat l.length])

/-- Reads a place. -/
def read? (tree : F.Tree) : Option Location := do
  match ← F.record? fieldNames tree with
  | ([file, token, line, column, offset, length], _) =>
    return {
      file := ← F.required F.string? file
      token := ← F.required F.nat? token
      line := ← F.required F.nat? line
      column := ← F.required F.nat? column
      offset := ← F.required F.nat? offset
      length := ← F.required F.nat? length }
  | _ => none

/-- The JSON form of a place. -/
def toJson (l : Location) : Json := l.write .standard

/-- Reads the JSON form of a place. -/
def ofJson? (tree : JsonTree) : Option Location := read? .standard tree

end Location

namespace Violation

/-- The names of the fields. -/
def fieldNames : List String := ["code", "rule", "severity", "location", "message"]

/-- Writes a violation. -/
def write (v : Violation) : F.Value :=
  F.record (fieldNames.zip
    [F.string v.code, F.string v.rule, v.severity.write F, v.location.write F, F.string v.message])

/-- Reads a violation. -/
def read? (tree : F.Tree) : Option Violation := do
  match ← F.record? fieldNames tree with
  | ([code, rule, severity, location, message], _) =>
    return {
      code := ← F.required F.string? code
      rule := ← F.required F.string? rule
      severity := ← F.required (Severity.read? F) severity
      location := ← F.required (Location.read? F) location
      message := ← F.required F.string? message }
  | _ => none

/-- The JSON form of a violation. -/
def toJson (v : Violation) : Json := v.write .standard

/-- Reads the JSON form of a violation. -/
def ofJson? (tree : JsonTree) : Option Violation := read? .standard tree

end Violation

namespace Report

/-- The names of the fields. -/
def fieldNames : List String := ["violations", "files_checked"]

/-- Writes a report. -/
def write (r : Report) : F.Value :=
  F.record (fieldNames.zip [F.ofList (Violation.write F) r.violations, F.nat r.files])

/-- Reads a report. -/
def read? (tree : F.Tree) : Option Report := do
  match ← F.record? fieldNames tree with
  | ([violations, files], _) =>
    return {
      violations := ← F.required (F.listOf? (Violation.read? F)) violations
      files := ← F.required F.nat? files }
  | _ => none

/-- The JSON form of a report. -/
def toJson (r : Report) : Json := r.write .standard

/-- The report as a JSON text with one item per line. -/
def jsonText (r : Report) : String := r.toJson.pretty

/-- Reads the JSON form of a report. -/
def ofJson? (tree : JsonTree) : Option Report := read? .standard tree

end Report

end PhpStyle
