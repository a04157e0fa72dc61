import PhpStyle.Doc.Basic

/-!
# Reading a documentation block

The usual layout: an opening line, one item per line behind a star, and a closing mark.
Description lines come before the first tag line; a blank line ends the short description; a line
behind a tag that is no tag itself continues the content of that tag.

* `BlockLayout` — the lines of a comment without their decoration, split into descriptions and
  tag lines.
* `DocBlock.read` — the block that a text spells, or the `ReadProblem` that stopped the reading.
* `DocBlock.reader` — the same as a `CommentReader`.
-/

namespace PhpStyle

/-- Why a text spells no documentation block. -/
inductive ReadProblem where
  /-- The text does not begin with the opening mark. -/
  | noOpening
  /-- The text does not end with the closing mark; its last line has this number. -/
  | unterminated (line : Nat)
  /-- The tag on this line has no name. -/
  | unnamedTag (line : Nat)
  deriving DecidableEq, Repr

namespace ReadProblem

/-- The wording of the problem. -/
def message : ReadProblem → String
  | noOpening => "Comment does not start with /**"
  | unterminated _ => "Unterminated doc comment"
  | unnamedTag _ => "Tag name missing after @"

/-- The line of the problem. -/
def line : ReadProblem → Nat
  | noOpening => 0
  | unterminated line => line
  | unnamedTag line => line

/-- The problem as a reader reports it. -/
def toError (p : ReadProblem) : CommentError := ⟨p.message, p.line⟩

end ReadProblem

/-! ## Lines without their decoration -/

/-- A line without the spaces, tabs and carriage returns at its end. -/
def dropLineEnd (line : List Char) : List Char :=
  Text.dropEndWhile (fun c => c == '\r' || c == ' ' || c == '\t') line

/-- What the opening line says. -/
def openingLine (line : List Char) : List Char := Text.trimStart (dropLineEnd line)

/-- What a later line says: its blanks, one star and one space are decoration. -/
def innerLine (line : List Char) : List Char :=
  match Text.trimStart (dropLineEnd line) with
  | '*' :: ' ' :: rest => rest
  | '*' :: rest => rest
  | rest => rest

/-- What the lines of a comment say, given the text between the marks. -/
def contentLines (body : List Char) : List (List Char) :=
  match Text.splitLines body with
  | [] => []
  | first :: later => openingLine first :: later.map innerLine

/-- Whether a line is a tag line. -/
def isTagLine : List Char → Bool
  | '@' :: _ => true
  | _ => false

/-! ## Descriptions -/

/-- The description lines, trimmed. An opening line that says nothing is none of them. -/
def descriptionLines : List (List Char) → List (List Char)
  | [] => []
  | first :: later =>
    (if first.isEmpty then [] else [Text.trim first]) ++ later.map Text.trim

/-- Lines put together again. -/
def joinLines (lines : List (List Char)) : String :=
  String.ofList (['\n'].intercalate lines)

/-- The block that the description lines spell, without tags. -/
def describe (lines : List (List Char)) : DocBlock :=
  let leading := lines.takeWhile (·.isEmpty)
  let text := lines.dropWhile (·.isEmpty)
  let short := text.takeWhile (!·.isEmpty)
  let afterShort := text.dropWhile (!·.isEmpty)
  let between := afterShort.takeWhile (·.isEmpty)
  let rest := afterShort.dropWhile (·.isEmpty)
  let long := (rest.reverse.dropWhile (·.isEmpty)).reverse
  if !long.isEmpty then
    { short := String.ofList (List.replicate leading.length '\n') ++ joinLines short
      long := joinLines long
      newlinesBetween := between.length + 1
      newlinesBeforeTags := rest.length - long.length + 1 }
  else if !short.isEmpty then
    { short := String.ofList (List.replicate leading.length '\n') ++ joinLines short
      newlinesBeforeTags := between.length + 1 }
  else { newlinesBeforeTags := lines.length + 1 }

/-! ## Tags -/

/-- A tag content with the lines that continue it, each behind a space. -/
def continued (content : List Char) (lines : List (List Char)) : List Char :=
  lines.foldl
    (fun content line =>
      if line.isEmpty then content
      else if content.isEmpty then line
      else content ++ ' ' :: line)
    content

/-- The tag that the text behind an at sign spells, without continuation lines. -/
def readTag (text : List Char) (line : Nat) (continuation : List (List Char)) : DocTag :=
  let name := text.takeWhile (!Text.isBlank ·)
  let afterName := text.dropWhile (!Text.isBlank ·)
  let content := Text.trimStart afterName
  { name := String.ofList name
    content := String.ofList (continued (Text.trimEnd content) continuation)
    gap := if content.isEmpty then "" else String.ofList (afterName.takeWhile Text.isBlank)
    line }

/-- The tags that numbered lines spell, together with the lines in front of the first tag. -/
def readTags : List (List Char × Nat) → Except ReadProblem (List (List Char) × List DocTag)
  | [] => .ok ([], [])
  | ('@' :: text, line) :: rest =>
    if (text.takeWhile (!Text.isBlank ·)).isEmpty then .error (.unnamedTag line)
    else do
      let (continuation, tags) ← readTags rest
      return ([], readTag text line continuation :: tags)
  | (text, _) :: rest => do
    let (continuation, tags) ← readTags rest
    return (Text.trim text :: continuation, tags)

/-! ## The whole comment -/

namespace DocBlock

/-- The block that the text of a comment spells. -/
def read (raw : String) : Except ReadProblem DocBlock :=
  match Text.after? "/**".toList raw.toList with
  | none => .error .noOpening
  | some body =>
    match Text.before? "*/".toList (Text.trimEnd body) with
    | none => .error (.unterminated ((Text.keepLines raw.toList).length - 1))
    | some body => do
      let lines := contentLines body
      let description := lines.takeWhile (!isTagLine ·)
      let (_, tags) ← readTags (lines.zipIdx.drop description.length)
      return { describe (descriptionLines description) with tags }

/-- The usual way to read a comment. -/
def reader : CommentReader := fun raw => (read raw).mapError ReadProblem.toError

end DocBlock

end PhpStyle
