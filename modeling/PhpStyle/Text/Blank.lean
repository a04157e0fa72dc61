/-!
# Blank characters and lines of text

The character class that "whitespace" means throughout the project, and the cuts of a text that
depend on it.

* `isBlank` — the characters with the Unicode property `White_Space`.
* `trimStart`, `trimEnd`, `trim` — a text without the blanks at its ends; `dropEndWhile` is the
  general form of the cut at the end.
* `pieces`, `splitLines` — the pieces between the occurrences of a separator, or of the newline.
* `keepLines` — the pieces that end just after a newline, so that their concatenation is the text
  (`flatten_keepLines`) and none of them is empty (`ne_nil_of_mem_keepLines`).

Texts are lists of characters here; callers convert at the boundary.
-/

namespace PhpStyle.Text

/-! ## The class -/

/-- The characters with the Unicode property `White_Space`: the five controls from tabulation to
carriage return, the space, and the separators beyond ASCII. -/
def isBlank (c : Char) : Bool :=
  let n := c.toNat
  (9 ≤ n && n ≤ 13) || n == 0x20 || n == 0x85 || n == 0xA0 || n == 0x1680 ||
    (0x2000 ≤ n && n ≤ 0x200A) || n == 0x2028 || n == 0x2029 || n == 0x202F || n == 0x205F ||
    n == 0x3000

/-! ## Cuts at the ends -/

/-- The text without the longest run at its end whose characters all satisfy `p`. -/
def dropEndWhile (p : Char → Bool) (cs : List Char) : List Char :=
  (cs.reverse.dropWhile p).reverse

/-- The text without the blanks at its start. -/
def trimStart (cs : List Char) : List Char := cs.dropWhile isBlank

/-- The text without the blanks at its end. -/
def trimEnd (cs : List Char) : List Char := dropEndWhile isBlank cs

/-- The text without the blanks at either end. -/
def trim (cs : List Char) : List Char := trimEnd (trimStart cs)

/-- Whether a string holds nothing but blanks. -/
def allBlank (s : String) : Bool := s.toList.all isBlank

/-! ## Finding a piece -/

/-- What follows the first occurrence of `needle`, together with what stands before it; `none`
when it does not occur. -/
def cutAt (needle : List Char) : List Char → Option (List Char × List Char)
  | [] => if needle.isEmpty then some ([], []) else none
  | c :: cs =>
    if needle.isPrefixOf (c :: cs) then some ([], (c :: cs).drop needle.length)
    else (cutAt needle cs).map fun (before, after) => (c :: before, after)

/-- A text is what stands before the occurrence, the occurrence, and what follows it. -/
theorem eq_append_of_cutAt {needle cs before after : List Char}
    (h : cutAt needle cs = some (before, after)) : cs = before ++ needle ++ after := by
  induction cs generalizing before with
  | nil =>
      rw [cutAt] at h
      split at h
      · next hempty =>
          cases h
          rw [List.isEmpty_iff.mp hempty]
          rfl
      · cases h
  | cons c cs ih =>
      rw [cutAt] at h
      split at h
      · next hprefix =>
          cases h
          obtain ⟨rest, hrest⟩ := List.isPrefixOf_iff_prefix.mp hprefix
          rw [← hrest, List.drop_left, List.nil_append]
      · obtain ⟨⟨before', after'⟩, hcut, heq⟩ := Option.map_eq_some_iff.mp h
        cases heq
        rw [ih hcut]
        rfl

/-- Nothing is added behind an occurrence. -/
theorem length_le_of_cutAt {needle cs before after : List Char}
    (h : cutAt needle cs = some (before, after)) : after.length ≤ cs.length := by
  rw [eq_append_of_cutAt h, List.length_append]
  exact Nat.le_add_left _ _

/-- How many characters stand before the first occurrence of `needle`. -/
def indexOf? (needle cs : List Char) : Option Nat :=
  (cutAt needle cs).map fun (before, _) => before.length

/-- The rest of `cs` after `lead`, if `cs` starts with it. -/
def after? (lead cs : List Char) : Option (List Char) :=
  if lead.isPrefixOf cs then some (cs.drop lead.length) else none

/-- The rest of `cs` before `tail`, if `cs` ends with it. -/
def before? (tail cs : List Char) : Option (List Char) :=
  if tail.isSuffixOf cs then some (cs.take (cs.length - tail.length)) else none

/-! ## Lines -/

/-- The pieces between the occurrences of a separator. There is always one more piece than there
are separators. -/
def pieces (separator : Char) : List Char → List (List Char)
  | [] => [[]]
  | c :: cs =>
    if c = separator then [] :: pieces separator cs
    else
      match pieces separator cs with
      | [] => [[c]]
      | piece :: others => (c :: piece) :: others

/-- The pieces between the newlines. -/
def splitLines (cs : List Char) : List (List Char) := pieces '\n' cs

/-- The pieces that end just after a newline, and what is left after the last newline if that is
not empty. -/
def keepLines : List Char → List (List Char)
  | [] => []
  | c :: cs =>
    if c = '\n' then [c] :: keepLines cs
    else
      match keepLines cs with
      | [] => [[c]]
      | line :: lines => (c :: line) :: lines

/-- Cutting after the newlines loses nothing. -/
@[simp] theorem flatten_keepLines (cs : List Char) : (keepLines cs).flatten = cs := by
  induction cs with
  | nil => rfl
  | cons c cs ih =>
    rw [keepLines]
    split
    · simp [ih]
    · split
      · next h => simp [h] at ih; simp [← ih]
      · next h => simp [h] at ih; simp [← ih]

/-- No line of a cut after the newlines is empty. -/
theorem ne_nil_of_mem_keepLines {cs line : List Char} (h : line ∈ keepLines cs) : line ≠ [] := by
  induction cs generalizing line with
  | nil => simp [keepLines] at h
  | cons c cs ih =>
    rw [keepLines] at h
    split at h
    · rcases List.mem_cons.1 h with rfl | h
      · simp
      · exact ih h
    · split at h
      · simp_all
      · next hl =>
        rcases List.mem_cons.1 h with rfl | h
        · simp
        · exact ih (hl ▸ List.mem_cons_of_mem _ h)

/-- The number of newlines in a string. -/
def newlines (s : String) : Nat := s.toList.count '\n'

end PhpStyle.Text
