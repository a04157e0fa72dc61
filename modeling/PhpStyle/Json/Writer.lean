import PhpStyle.Decimal.Notation

/-!
# Writing JSON

* `Json` — the values that are written. The fields of an object are written in the given order.
* `Json.compact` — the text without any space.
* `Json.pretty` — the text with one item per line, indented by two spaces per level. Empty arrays
  and objects stay on one line.
-/

namespace PhpStyle

/-- A value that can be written. -/
inductive Json where
  | null
  | bool (b : Bool)
  | int (n : Int)
  | float (x : Float)
  | string (text : String)
  | array (items : List Json)
  | object (fields : List (String × Json))
  deriving Inhabited

namespace Json

/-- A natural number. -/
def nat (n : Nat) : Json := .int n

/-- A value that may be absent. -/
def ofOption {α : Type} (write : α → Json) : Option α → Json
  | none => .null
  | some a => write a

/-- A list. -/
def ofList {α : Type} (write : α → Json) (items : List α) : Json := .array (items.map write)

/-! ## Text -/

/-- A hexadecimal digit. -/
def hexDigit (n : Nat) : Char := (Nat.digitChar n).toLower

/-- A character inside quotes: quotes, backslashes and controls are escaped. -/
def escapeChar (c : Char) : List Char :=
  if c = '"' then ['\\', '"']
  else if c = '\\' then ['\\', '\\']
  else if c = '\x08' then ['\\', 'b']
  else if c = '\x0c' then ['\\', 'f']
  else if c = '\n' then ['\\', 'n']
  else if c = '\r' then ['\\', 'r']
  else if c = '\t' then ['\\', 't']
  else if c < ' ' then
    ['\\', 'u', '0', '0', hexDigit (c.toNat / 16), hexDigit (c.toNat % 16)]
  else [c]

/-- A text between quotes. -/
def quote (s : String) : String :=
  String.ofList ('"' :: s.toList.flatMap escapeChar ++ ['"'])

/-! ## Values -/

mutual

/-- The text of a value without spaces. -/
def compact : Json → String
  | null => "null"
  | bool b => if b then "true" else "false"
  | int n => toString n
  | float x => Decimal.write .toEven x
  | string s => quote s
  | array items => "[" ++ compactItems items ++ "]"
  | object fields => "\x7b" ++ compactFields fields ++ "\x7d"

/-- The texts of the items of an array, with commas between them. -/
def compactItems : List Json → String
  | [] => ""
  | [item] => item.compact
  | item :: items => item.compact ++ "," ++ compactItems items

/-- The texts of the fields of an object, with commas between them. -/
def compactFields : List (String × Json) → String
  | [] => ""
  | [(name, value)] => quote name ++ ":" ++ value.compact
  | (name, value) :: fields => quote name ++ ":" ++ value.compact ++ "," ++ compactFields fields

end

/-- The start of a line at the given level. -/
def lineStart (level : Nat) : String := "\n" ++ String.ofList (List.replicate (2 * level) ' ')

mutual

/-- The text of a value at the given level, one item per line. -/
def prettyAt (level : Nat) : Json → String
  | null => "null"
  | bool b => if b then "true" else "false"
  | int n => toString n
  | float x => Decimal.write .toEven x
  | string s => quote s
  | array [] => "[]"
  | array (item :: items) =>
    "[" ++ lineStart (level + 1) ++ item.prettyAt (level + 1) ++ prettyItems (level + 1) items ++
      lineStart level ++ "]"
  | object [] => "\x7b\x7d"
  | object ((name, value) :: fields) =>
    "\x7b" ++ lineStart (level + 1) ++ quote name ++ ": " ++ value.prettyAt (level + 1) ++
      prettyFields (level + 1) fields ++ lineStart level ++ "\x7d"

/-- The texts of the later items of an array. -/
def prettyItems (level : Nat) : List Json → String
  | [] => ""
  | item :: items => "," ++ lineStart level ++ item.prettyAt level ++ prettyItems level items

/-- The texts of the later fields of an object. -/
def prettyFields (level : Nat) : List (String × Json) → String
  | [] => ""
  | (name, value) :: fields =>
    "," ++ lineStart level ++ quote name ++ ": " ++ value.prettyAt level ++
      prettyFields level fields

end

/-- The text of a value, one item per line. -/
def pretty (j : Json) : String := j.prettyAt 0

end Json

end PhpStyle
