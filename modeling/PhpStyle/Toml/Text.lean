import PhpStyle.Text.Hex
import PhpStyle.Toml.Scan

/-!
# Quoted text

The four forms of a string: between quotes or apostrophes, on one line or on several. Only the
forms between quotes know escapes. A line end inside a string counts as a single newline, whether
it is written with a carriage return or not.
-/

namespace PhpStyle.Toml

/-- Spaces and tabs. -/
def isGap (c : Char) : Bool := c == ' ' || c == '\t'

/-- The characters that may stand for themselves in a comment or a string: all but the controls,
of which only the tabulation is allowed. -/
def isPlain (c : Char) : Bool := c == '\t' || (' ' ≤ c && c != '\x7f')

/-- A line end. -/
def newline : Scan Unit
  | '\n' :: cs => some ((), cs)
  | '\r' :: '\n' :: cs => some ((), cs)
  | _ => none

/-- What is left behind spaces, tabs and line ends. -/
def dropSpace : List Char → List Char
  | '\r' :: '\n' :: cs => dropSpace cs
  | c :: cs => if isGap c || c == '\n' then dropSpace cs else c :: cs
  | [] => []

/-! ## Escapes -/

/-- The character with a code point, unless it is a half of a surrogate pair or too large. -/
def charOf? (n : Nat) : Option Char := if n.isValidChar then some (Char.ofNat n) else none

/-- A character given by `n` hexadecimal digits. -/
def codePoint (n : Nat) : Scan Char := fun cs => do
  let (ds, cs) ← Scan.count Text.isHex n cs
  return (← charOf? (Text.hexValue ds), cs)

/-- The character that an escape stands for, behind the backslash. -/
def escape : Scan Char
  | 'b' :: cs => some ('\x08', cs)
  | 't' :: cs => some ('\t', cs)
  | 'n' :: cs => some ('\n', cs)
  | 'f' :: cs => some ('\x0c', cs)
  | 'r' :: cs => some ('\r', cs)
  | '"' :: cs => some ('"', cs)
  | '\\' :: cs => some ('\\', cs)
  | 'u' :: cs => codePoint 4 cs
  | 'U' :: cs => codePoint 8 cs
  | _ => none

/-! ## One line -/

/-- The rest of a string between quotes, and the quote that ends it. -/
def basicRest : Nat → Scan (List Char)
  | 0, _ => none
  | _ + 1, [] => none
  | fuel + 1, c :: cs => do
    if c = '"' then return ([], cs)
    let (c, cs) ← if c = '\\' then escape cs else if isPlain c then some (c, cs) else none
    let (rest, cs) ← basicRest fuel cs
    return (c :: rest, cs)

/-- The rest of a string between apostrophes, and the apostrophe that ends it. -/
def literalRest (cs : List Char) : Option (List Char × List Char) :=
  match cs.dropWhile fun c => isPlain c && c != '\'' with
  | '\'' :: rest => some (cs.takeWhile fun c => isPlain c && c != '\'', rest)
  | _ => none

/-! ## Several lines -/

/-- The marks at the end of a string of several lines: three close it, and up to two more in front
of them belong to it. Fewer than three belong to it and do not close it. -/
def closing (mark : Char) (cs : List Char) : List Char × Option (List Char) :=
  let marks := (cs.takeWhile (· == mark)).length
  if marks < 3 then (List.replicate marks mark, none)
  else
    let kept := min (marks - 3) 2
    (List.replicate kept mark, some (cs.drop (kept + 3)))

/-- What follows a backslash at the end of a line: all whitespace up to the next text. -/
def joinedLine? (cs : List Char) : Option (List Char) :=
  match newline (cs.dropWhile isGap) with
  | some ((), cs) => some (dropSpace cs)
  | none => none

/-- The rest of a string of several lines. -/
def linesRest (mark : Char) (escapes : Bool) : Nat → Scan (List Char)
  | 0, _ => none
  | _ + 1, [] => none
  | fuel + 1, c :: cs =>
    if c = mark then
      match closing mark (c :: cs) with
      | (text, some rest) => some (text, rest)
      | (text, none) => do
        let (rest, cs) ← linesRest mark escapes fuel ((c :: cs).drop text.length)
        return (text ++ rest, cs)
    else if c = '\\' && escapes then
      match joinedLine? cs with
      | some cs => linesRest mark escapes fuel cs
      | none => do
        let (c, cs) ← escape cs
        let (rest, cs) ← linesRest mark escapes fuel cs
        return (c :: rest, cs)
    else
      match newline (c :: cs) with
      | some ((), cs) => do
        let (rest, cs) ← linesRest mark escapes fuel cs
        return ('\n' :: rest, cs)
      | none => do
        if !isPlain c then none
        let (rest, cs) ← linesRest mark escapes fuel cs
        return (c :: rest, cs)

/-- What follows the opening marks: a line end just behind them does not count. -/
def afterOpening (cs : List Char) : List Char :=
  match newline cs with
  | some ((), cs) => cs
  | none => cs

/-! ## All forms -/

/-- A string on one line. -/
def lineString : Scan String
  | '"' :: cs => do
    let (text, cs) ← basicRest (cs.length + 1) cs
    return (String.ofList text, cs)
  | '\'' :: cs => do
    let (text, cs) ← literalRest cs
    return (String.ofList text, cs)
  | _ => none

/-- A string of any form. -/
def anyString : Scan String
  | '"' :: '"' :: '"' :: cs => do
    let cs := afterOpening cs
    let (text, cs) ← linesRest '"' true (cs.length + 1) cs
    return (String.ofList text, cs)
  | '\'' :: '\'' :: '\'' :: cs => do
    let cs := afterOpening cs
    let (text, cs) ← linesRest '\'' false (cs.length + 1) cs
    return (String.ofList text, cs)
  | cs => lineString cs

end PhpStyle.Toml
