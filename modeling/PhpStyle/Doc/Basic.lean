import PhpStyle.Text.Blank

/-!
# Documentation blocks

The content of a comment that documents a declaration: a short and a long description, the
newlines that separate them, and the tags. How such a block is written is not fixed here: a
`CommentReader` turns the text of a comment into a block, or says on which line it gave up.
-/

namespace PhpStyle

/-- One tag of a documentation block. -/
structure DocTag where
  /-- The name, without the at sign. -/
  name : String
  /-- What follows the name and the gap. -/
  content : String := ""
  /-- The whitespace between the name and the content. -/
  gap : String := ""
  /-- The line of the tag; the opening line of the comment is line zero. -/
  line : Nat := 0
  deriving DecidableEq, Repr

/-- The number of spaces in the gap of a tag. -/
def DocTag.spacing (t : DocTag) : Nat := t.gap.toList.count ' '

/-- A documentation block. -/
structure DocBlock where
  /-- The short description, which may start with newlines. -/
  short : String := ""
  /-- The long description. -/
  long : String := ""
  /-- The newlines between the two descriptions. -/
  newlinesBetween : Nat := 0
  /-- The newlines between the last line of a description and the first tag. -/
  newlinesBeforeTags : Nat := 0
  /-- The tags, in order. -/
  tags : List DocTag := []
  deriving DecidableEq, Repr

namespace DocBlock

/-- Whether there is neither text nor a tag. -/
def isEmpty (d : DocBlock) : Bool :=
  Text.allBlank d.short && Text.allBlank d.long && d.tags.isEmpty

/-- The tags of the given name with their positions. The first tag of a block has position one,
since position zero belongs to the descriptions. -/
def occurrences (d : DocBlock) (name : String) : List (DocTag × Nat) :=
  (d.tags.zipIdx 1).filter fun (tag, _) => tag.name == name

/-- The positions of the tags of the given name. -/
def positions (d : DocBlock) (name : String) : List Nat :=
  (d.occurrences name).map fun (_, position) => position

end DocBlock

/-- Why the text of a comment could not be read. -/
structure CommentError where
  /-- What is wrong. -/
  message : String
  /-- The line where it is wrong, counted from the opening line. -/
  line : Nat := 0
  deriving DecidableEq, Repr

/-- A way to read the text of a comment. -/
abbrev CommentReader := String → Except CommentError DocBlock

end PhpStyle
