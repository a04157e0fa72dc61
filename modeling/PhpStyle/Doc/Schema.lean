import PhpStyle.Text.Case

/-!
# What a documentation block should look like

A `DocSchema` lists the tags of one sort of block in the order in which they are expected, and
says how their contents are indented, what is asked of the short description, and what happens to
tags that are not listed. `DocSchema.file` and `DocSchema.memberVariable` are the two sorts in use.
-/

namespace PhpStyle

/-- Where a tag must stand. -/
inductive Placement where
  /-- Behind the listed tags before it. -/
  | ordered
  /-- In front of all tags. -/
  | first
  deriving DecidableEq, Repr

/-- How far the content of a tag stands from its name. -/
inductive Indentation where
  /-- All contents start in one column, `padding` spaces behind the longest name. -/
  | aligned (padding : Nat)
  /-- Every content stands so many spaces behind its name. -/
  | fixed (width : Nat)
  deriving DecidableEq, Repr

/-- What is asked of the short description. -/
inductive ShortRule where
  /-- Nothing. -/
  | free
  /-- That it is there and stays on one line. -/
  | singleLine
  deriving DecidableEq, Repr

/-- What happens to tags that are not listed. -/
inductive ForeignTags where
  /-- They are not looked at. -/
  | ignored
  /-- The first one that is not in the list is warned about, and ends the validation. -/
  | refusedExcept (permitted : List String)
  deriving DecidableEq, Repr

/-- What is asked of one tag. -/
structure TagSpec where
  /-- The name of the tag. -/
  name : String
  /-- How messages describe the place of the tag. -/
  orderText : String := ""
  /-- Whether a block must have the tag. -/
  required : Bool := false
  /-- Whether the tag is legal but warned about, and not checked further. -/
  discouraged : Bool := false
  /-- Whether the tag may occur several times, side by side. -/
  multiple : Bool := false
  /-- Where the tag must stand. -/
  placement : Placement := .ordered
  deriving DecidableEq, Repr

/-- What a documentation block should look like. -/
structure DocSchema where
  /-- The sort of block, as messages name it. -/
  label : String
  /-- The tags, in the expected order. -/
  tags : List TagSpec
  /-- How contents are indented. -/
  indentation : Indentation
  /-- What is asked of the short description. -/
  short : ShortRule := .free
  /-- What happens to other tags. -/
  foreign : ForeignTags := .ignored
  /-- What the content of a version tag must contain. -/
  revisionMarker : String := "$Id"
  deriving DecidableEq, Repr

namespace DocSchema

/-- The label as the start of a sentence. -/
def title (s : DocSchema) : String := Text.capitalize s.label

/-- What is asked of the tag with the given name. -/
def tag? (s : DocSchema) (name : String) : Option TagSpec := s.tags.find? (·.name == name)

/-- Whether a block may have a tag with the given name. -/
def accepts (s : DocSchema) (name : String) : Bool :=
  (s.tag? name).isSome ||
    match s.foreign with
    | .ignored => true
    | .refusedExcept permitted => permitted.contains name

/-- The block at the top of a file. -/
def file : DocSchema where
  label := "file"
  tags :=
    [{ name := "author", orderText := "precedes @package", discouraged := true, multiple := true },
      { name := "package", orderText := "follows @author", required := true },
      { name := "subpackage", orderText := "follows @package", discouraged := true },
      { name := "version", orderText := "follows @package or @subpackage (is used)",
        discouraged := true },
      { name := "link", orderText := "follows @link", multiple := true },
      { name := "see", orderText := "follows @see", multiple := true },
      { name := "deprecated",
        orderText := "follows @subpackage or @see (if used) or @link (if used)" }]
  indentation := .aligned 2

/-- The block of a member variable. -/
def memberVariable : DocSchema where
  label := "variable"
  tags :=
    [{ name := "var", orderText := "must be the first tag", required := true,
       placement := .first }]
  indentation := .fixed 2
  short := .singleLine
  foreign := .refusedExcept ["see", "link", "since", "deprecated"]

end DocSchema

end PhpStyle
