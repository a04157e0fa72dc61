import PhpStyle.Text.CaseTable

/-!
# Capital and small letters

The full case mappings of a text, which may change its length.

* `upper` maps each character on its own.
* `lower` does so too, except for the capital sigma, whose small form depends on whether a word
  ends there (`endsWord`).
* `capitalize` changes the first character only.
* `asciiLower` is the mapping that leaves everything beyond ASCII alone.
-/

namespace PhpStyle.Text

/-- The image of a character under a mapping given by its runs and its long images. -/
def mapCase (runs : List CaseRun) (long : List (Nat × List Nat)) (c : Char) : List Char :=
  match long.find? fun (n, _) => n == c.toNat with
  | some (_, image) => image.map Char.ofNat
  | none =>
    match runs.find? (·.holds c.toNat) with
    | some run => [Char.ofNat (c.toNat + run.shift).toNat]
    | none => [c]

/-- The capital form of a character. -/
def upperChar (c : Char) : List Char := mapCase upperRuns upperLong c

/-- The small form of a character that stands alone. -/
def lowerChar (c : Char) : List Char := mapCase lowerRuns lowerLong c

/-- Every character in its capital form. -/
def upper (s : String) : String := String.ofList (s.toList.flatMap upperChar)

/-- Whether the first character that case does not ignore is a cased one. -/
def meetsCased (cs : List Char) : Bool :=
  match cs.dropWhile fun c => inRuns ignorableRuns c.toNat with
  | [] => false
  | c :: _ => inRuns casedRuns c.toNat

/-- Whether a letter with `before` in front of it, nearest first, and `after` behind it ends a
word. -/
def endsWord (before after : List Char) : Bool := meetsCased before && !meetsCased after

/-- The small form of `cs`, where `before` is what precedes it, nearest first. -/
def lowerAfter (before : List Char) : List Char → List Char
  | [] => []
  | c :: cs =>
    (if c = 'Σ' then [if endsWord before cs then 'ς' else 'σ'] else lowerChar c) ++
      lowerAfter (c :: before) cs

/-- Every character in its small form. -/
def lower (s : String) : String := String.ofList (lowerAfter [] s.toList)

/-- The text with its first character in capital form. -/
def capitalize (s : String) : String :=
  match s.toList with
  | [] => ""
  | c :: cs => String.ofList (upperChar c ++ cs)

/-- The text with its ASCII capitals in small form. -/
def asciiLower (s : String) : String := String.ofList (s.toList.map Char.toLower)

end PhpStyle.Text
