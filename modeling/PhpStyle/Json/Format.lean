import PhpStyle.Json.Reader
import PhpStyle.Json.Writer

/-!
# JSON libraries

How a record becomes a JSON text and back is left to a library. A `JsonFormat` is what such a
library offers: ways to put values together, to print them and to parse a text, and to look at what
stands at a place of a parsed text. It carries no law; what is expected of a library is said where
it is used.

* `JsonFormat` — the functions of a library.
* `JsonFormat.option`, `JsonFormat.ofList`, … — values that may be absent, and lists.
* `JsonFormat.standard` — the library of this project.
-/

namespace PhpStyle

/-- What a JSON library offers. -/
structure JsonFormat where
  /-- The values that are printed. -/
  Value : Type
  /-- What stands at a place of a parsed text. -/
  Tree : Type
  /-- A text. -/
  string : String → Value
  /-- A number. -/
  nat : Nat → Value
  /-- A value that is absent. -/
  null : Value
  /-- A list. -/
  list : List Value → Value
  /-- A record: the values of its fields under their names. -/
  record : List (String × Value) → Value
  /-- One of several names. -/
  variant : String → Value
  /-- The text of a value in one line, if it can be printed. -/
  compact? : Value → Option String
  /-- The text of a value with one item per line, if it can be printed. -/
  pretty? : Value → Option String
  /-- What a text holds. -/
  parse? : String → Option Tree
  /-- A text. -/
  string? : Tree → Option String
  /-- A number of at most 64 bits. -/
  nat? : Tree → Option Nat
  /-- Whether a value is absent. -/
  isNull : Tree → Bool
  /-- The items of a list. -/
  list? : Tree → Option (List Tree)
  /-- The fields of a record with the given names, in the order of the names, and whether they are
  given by position. -/
  record? : List String → Tree → Option (List (Option Tree) × Bool)
  /-- One of several names. -/
  variant? : Tree → Option String

namespace JsonFormat

variable (F : JsonFormat) {α : Type}

/-! ## Writing -/

/-- A value that may be absent. -/
def option (write : α → F.Value) : Option α → F.Value
  | none => F.null
  | some a => write a

/-- A list of values. -/
def ofList (write : α → F.Value) (items : List α) : F.Value := F.list (items.map write)

/-! ## Reading -/

/-- A value that may be absent. -/
def option? (read : F.Tree → Option α) (tree : F.Tree) : Option (Option α) :=
  if F.isNull tree then some none else (read tree).map some

/-- A list of values. -/
def listOf? (read : F.Tree → Option α) (tree : F.Tree) : Option (List α) := do
  (← F.list? tree).mapM read

/-- A field that must be there. -/
def required (read : F.Tree → Option α) (field : Option F.Tree) : Option α := field.bind read

/-- A field that may be left out of a record, unless the fields are given by position. -/
def optional (read : F.Tree → Option α) (positional : Bool) (field : Option F.Tree) :
    Option (Option α) :=
  match field with
  | some tree => F.option? read tree
  | none => if positional then none else some none

/-! ## The library of this project -/

/-- Values and texts as in `Json` and `JsonTree`. A name is written as a text. -/
abbrev standard : JsonFormat where
  Value := Json
  Tree := JsonTree
  string := .string
  nat := .nat
  null := .null
  list := .array
  record := .object
  variant := .string
  compact? j := some j.compact
  pretty? j := some j.pretty
  parse? := JsonTree.parse
  string? := JsonTree.string?
  nat? := JsonTree.nat?
  isNull := JsonTree.isNull
  list? := JsonTree.items?
  record? := JsonTree.record?
  variant? := JsonTree.variant?

end JsonFormat

end PhpStyle
