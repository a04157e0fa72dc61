import PhpStyle.Decimal.Notation
import PhpStyle.Fault
import PhpStyle.Text.Hex

/-!
# Reading JSON

A text is first taken apart into a `JsonTree`, which keeps numbers and strings as they are written.
Their meaning is taken only where it is asked for, so that a part that nobody looks at need only be
well-formed.

* `JsonTree.parse` — the tree of a text that is one value between spaces.
* `JsonTree.string?`, `JsonTree.nat?`, `JsonTree.items?`, … — the meaning of a tree.
-/

namespace PhpStyle

/-- A number as it is written. -/
structure NumberText where
  /-- Whether there is a minus sign. -/
  negative : Bool
  /-- The digits in front of the point. -/
  whole : List Char
  /-- The digits behind the point. -/
  fraction : Option (List Char)
  /-- Whether the exponent has a minus sign, and its digits. -/
  exponent : Option (Bool × List Char)
  deriving DecidableEq, Repr

/-- A value as it is written. -/
inductive JsonTree where
  | null
  | bool (b : Bool)
  | number (text : NumberText)
  /-- A string, with its escapes. -/
  | string (raw : List Char)
  | array (items : List JsonTree)
  | object (fields : List (List Char × JsonTree))

namespace JsonTree

/-! ## Spaces, digits and strings -/

/-- The characters that may stand between the parts of a text. -/
def isSpace (c : Char) : Bool := c == ' ' || c == '\n' || c == '\t' || c == '\r'

/-- What is left behind spaces. -/
def skip (cs : List Char) : List Char := cs.dropWhile isSpace

/-- The letters that may follow a backslash, the one of code points apart. -/
def escapeLetters : List Char := ['"', '\\', '/', 'b', 'f', 'n', 'r', 't']

/-- The rest of a string up to the quote that ends it, with its escapes, and what follows. -/
def stringRest : List Char → Option (List Char × List Char)
  | '"' :: cs => some ([], cs)
  | '\\' :: 'u' :: a :: b :: c :: d :: cs =>
    if Text.isHex a && Text.isHex b && Text.isHex c && Text.isHex d then
      (stringRest cs).map fun (raw, cs) => ('\\' :: 'u' :: a :: b :: c :: d :: raw, cs)
    else none
  | '\\' :: c :: cs =>
    if escapeLetters.contains c then
      (stringRest cs).map fun (raw, cs) => ('\\' :: c :: raw, cs)
    else none
  | c :: cs =>
    if c < ' ' || c == '\\' then none
    else (stringRest cs).map fun (raw, cs) => (c :: raw, cs)
  | [] => none

/-! ## Numbers -/

/-- One or more digits. -/
def digits? (cs : List Char) : Option (List Char × List Char) :=
  match cs.takeWhile Char.isDigit with
  | [] => none
  | ds => some (ds, cs.dropWhile Char.isDigit)

/-- The digits behind a point, if there is a point. -/
def fractionPart : List Char → Option (Option (List Char) × List Char)
  | '.' :: cs => (digits? cs).map fun (ds, cs) => (some ds, cs)
  | cs => some (none, cs)

/-- The exponent, if there is one. -/
def exponentPart : List Char → Option (Option (Bool × List Char) × List Char)
  | 'e' :: cs | 'E' :: cs =>
    match cs with
    | '-' :: cs => (digits? cs).map fun (ds, cs) => (some (true, ds), cs)
    | '+' :: cs => (digits? cs).map fun (ds, cs) => (some (false, ds), cs)
    | cs => (digits? cs).map fun (ds, cs) => (some (false, ds), cs)
  | cs => some (none, cs)

/-- A number. Digits in front of the point do not start with a zero, unless it stands alone. -/
def numberPart (cs : List Char) : Option (NumberText × List Char) := do
  let (negative, cs) :=
    match cs with
    | '-' :: cs => (true, cs)
    | cs => (false, cs)
  let (whole, cs) ← digits? cs
  if whole.head? == some '0' && 1 < whole.length then none
  let (fraction, cs) ← fractionPart cs
  let (exponent, cs) ← exponentPart cs
  return ({ negative, whole, fraction, exponent }, cs)

/-! ## Values -/

mutual

/-- A value in front of a text, of at most `fuel` parts. -/
def valueWithin : Nat → List Char → Option (JsonTree × List Char)
  | 0, _ => none
  | fuel + 1, cs =>
    match cs with
    | 'n' :: 'u' :: 'l' :: 'l' :: cs => some (.null, cs)
    | 't' :: 'r' :: 'u' :: 'e' :: cs => some (.bool true, cs)
    | 'f' :: 'a' :: 'l' :: 's' :: 'e' :: cs => some (.bool false, cs)
    | '"' :: cs => (stringRest cs).map fun (raw, cs) => (.string raw, cs)
    | '[' :: cs =>
      match skip cs with
      | ']' :: cs => some (.array [], cs)
      | cs => (itemsWithin fuel cs).map fun (items, cs) => (.array items, cs)
    | '\x7b' :: cs =>
      match skip cs with
      | '\x7d' :: cs => some (.object [], cs)
      | cs => (fieldsWithin fuel cs).map fun (fields, cs) => (.object fields, cs)
    | cs => (numberPart cs).map fun (n, cs) => (.number n, cs)

/-- One or more items, and the bracket that ends them. -/
def itemsWithin : Nat → List Char → Option (List JsonTree × List Char)
  | 0, _ => none
  | fuel + 1, cs => do
    let (item, cs) ← valueWithin fuel cs
    match skip cs with
    | ']' :: cs => return ([item], cs)
    | ',' :: cs =>
      let (items, cs) ← itemsWithin fuel (skip cs)
      return (item :: items, cs)
    | _ => none

/-- One or more fields, and the brace that ends them. -/
def fieldsWithin : Nat → List Char → Option (List (List Char × JsonTree) × List Char)
  | 0, _ => none
  | fuel + 1, cs => do
    let '"' :: cs := cs | none
    let (name, cs) ← stringRest cs
    let ':' :: cs := skip cs | none
    let (value, cs) ← valueWithin fuel (skip cs)
    match skip cs with
    | '\x7d' :: cs => return ([(name, value)], cs)
    | ',' :: cs =>
      let (fields, cs) ← fieldsWithin fuel (skip cs)
      return ((name, value) :: fields, cs)
    | _ => none

end

/-- The tree of a text that is one value between spaces. -/
def parse (text : String) : Option JsonTree := do
  let cs := skip text.toList
  let (tree, rest) ← valueWithin (2 * cs.length + 1) cs
  if (skip rest).isEmpty then some tree else none

/-! ## Meanings -/

/-- The characters that a string spells. Two halves of a surrogate pair spell one character, and a
half alone spells none. -/
def unescape : List Char → Option (List Char)
  | '\\' :: 'u' :: a :: b :: c :: d :: cs =>
    let n := Text.hexValue [a, b, c, d]
    if n.isValidChar then (unescape cs).map (Char.ofNat n :: ·)
    else if n < 0xDC00 then
      match cs with
      | '\\' :: 'u' :: a :: b :: c :: d :: cs =>
        let m := Text.hexValue [a, b, c, d]
        if 0xDC00 ≤ m ∧ m ≤ 0xDFFF then
          (unescape cs).map (Char.ofNat (0x10000 + (n - 0xD800) * 0x400 + (m - 0xDC00)) :: ·)
        else none
      | _ => none
    else none
  | '\\' :: 'b' :: cs => (unescape cs).map ('\x08' :: ·)
  | '\\' :: 'f' :: cs => (unescape cs).map ('\x0c' :: ·)
  | '\\' :: 'n' :: cs => (unescape cs).map ('\n' :: ·)
  | '\\' :: 'r' :: cs => (unescape cs).map ('\r' :: ·)
  | '\\' :: 't' :: cs => (unescape cs).map ('\t' :: ·)
  | '\\' :: c :: cs => (unescape cs).map (c :: ·)
  | c :: cs => (unescape cs).map (c :: ·)
  | [] => some []

/-- The text of a string as it is written. -/
def textOf? (raw : List Char) : Option String := (unescape raw).map String.ofList

/-- A string. -/
def string? : JsonTree → Option String
  | .string raw => textOf? raw
  | _ => none

/-- A truth value. -/
def bool? : JsonTree → Option Bool
  | .bool b => some b
  | _ => none

/-- A natural number of at most 64 bits, written without sign, point and exponent. -/
def nat? : JsonTree → Option Nat
  | .number { negative := false, whole, fraction := none, exponent := none } =>
    let n := Decimal.digitsValue whole
    if n ≤ maxWord then some n else none
  | _ => none

/-- Whether nothing is written. -/
def isNull : JsonTree → Bool
  | .null => true
  | _ => false

/-- A value that may be absent. -/
def option? {α : Type} (read : JsonTree → Option α) (tree : JsonTree) : Option (Option α) :=
  if tree.isNull then some none else (read tree).map some

/-- The items of a list. -/
def items? : JsonTree → Option (List JsonTree)
  | .array items => some items
  | _ => none

/-- One of several names: written as a string, or as an object with that field and nothing in
it. -/
def variant? : JsonTree → Option String
  | .string raw => textOf? raw
  | .object [(name, .null)] => textOf? name
  | _ => none

/-- The fields of a record with the given names. They are given by name, each at most once, beside
others that are not looked at; or by position, which the second result says. -/
def record? (names : List String) : JsonTree → Option (List (Option JsonTree) × Bool)
  | .object fields => do
    let fields ← fields.mapM fun (raw, tree) => do return (← textOf? raw, tree)
    let values ← names.mapM fun name =>
      match fields.filter (·.1 == name) with
      | [] => some none
      | [(_, tree)] => some (some tree)
      | _ => none
    return (values, false)
  | .array items =>
    if items.length ≤ names.length then
      some (items.map some ++ List.replicate (names.length - items.length) none, true)
    else none
  | _ => none

end JsonTree

end PhpStyle
