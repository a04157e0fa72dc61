import PhpStyle.Text.Blank

/-!
# Glob patterns

Patterns in the style of a shell: a question mark stands for one character, a star for any number
of characters, brackets for one character of a set or outside it, and two stars that form a whole
path component for any number of components.

* `Glob.parse` — reads a pattern, or says at which character it is wrong.
* `Glob.covers` — whether a pattern stands for a text. It computes for every tail of the pattern
  which tails of the text it stands for, from the back, so that its cost is the product of the two
  lengths.
-/

namespace PhpStyle

/-- A set of characters, given by its intervals. -/
abbrev CharSet := List (Char × Char)

/-- Whether a character lies in one of the intervals. -/
def CharSet.holds (set : CharSet) (c : Char) : Bool :=
  set.any fun (first, last) => first ≤ c && c ≤ last

/-- One element of a pattern. -/
inductive GlobItem where
  /-- The character itself. -/
  | char (c : Char)
  /-- Any character. -/
  | anyChar
  /-- A character of the set. -/
  | oneOf (set : CharSet)
  /-- A character outside the set. -/
  | noneOf (set : CharSet)
  /-- Any number of characters. -/
  | anyText
  /-- Any number of path components. -/
  | anyPath
  deriving DecidableEq, Repr

/-- A pattern. -/
structure Glob where
  /-- The elements, in order. -/
  items : List GlobItem
  deriving DecidableEq, Repr

/-- Why a pattern cannot be read, with the number of characters before the fault. -/
inductive GlobError where
  /-- Three stars in a row. -/
  | tooManyStars (position : Nat)
  /-- Two stars that are only a part of a path component. -/
  | partialComponent (position : Nat)
  /-- Brackets that hold nothing or are not closed. -/
  | badSet (position : Nat)
  deriving DecidableEq, Repr

/-- The wording of the error. -/
def GlobError.message : GlobError → String
  | tooManyStars position =>
    s!"Pattern syntax error near position {position}: " ++
      "wildcards are either regular `*` or recursive `**`"
  | partialComponent position =>
    s!"Pattern syntax error near position {position}: " ++
      "recursive wildcards must form a single path component"
  | badSet position => s!"Pattern syntax error near position {position}: invalid range pattern"

namespace Glob

/-! ## Reading -/

/-- The set that the text between brackets spells. -/
def setOf : List Char → CharSet
  | first :: '-' :: last :: rest => (first, last) :: setOf rest
  | c :: rest => (c, c) :: setOf rest
  | [] => []

/-- The set at the start of what follows an opening bracket, and what stands behind it. The first
character belongs to the set, even if it is a closing bracket. -/
def takeSet? : List Char → Option (GlobItem × List Char)
  | '!' :: c :: rest =>
    (Text.cutAt [']'] rest).map fun (inner, rest) => (.noneOf (setOf (c :: inner)), rest)
  | '!' :: [] => none
  | c :: rest =>
    (Text.cutAt [']'] rest).map fun (inner, rest) => (.oneOf (setOf (c :: inner)), rest)
  | [] => none

/-- A set takes at least one character. -/
theorem length_lt_of_takeSet? {cs rest : List Char} {item : GlobItem}
    (h : takeSet? cs = some (item, rest)) : rest.length < cs.length := by
  unfold takeSet? at h
  split at h
  · obtain ⟨⟨inner, after⟩, hc, he⟩ := Option.map_eq_some_iff.1 h
    have := Text.length_le_of_cutAt hc
    simp_all only [Prod.mk.injEq, List.length_cons]
    omega
  · simp at h
  · obtain ⟨⟨inner, after⟩, hc, he⟩ := Option.map_eq_some_iff.1 h
    have := Text.length_le_of_cutAt hc
    simp_all only [Prod.mk.injEq, List.length_cons]
    omega
  · simp at h

/-- Adds an element for any number of components. Where one stands at the end already, behind
something else, it is enough. -/
def addPath : List GlobItem → List GlobItem
  | .anyPath :: item :: done => .anyPath :: item :: done
  | done => .anyPath :: done

/-- Reads the rest of a pattern of `size` characters, of which `done` is read, last element first,
and `before` is the character just read. -/
def parseFrom (size : Nat) (before : Option Char) (done : List GlobItem) :
    List Char → Except GlobError (List GlobItem)
  | [] => .ok done.reverse
  | c :: cs =>
    let position := size - (cs.length + 1)
    if c = '?' then parseFrom size (some c) (.anyChar :: done) cs
    else if c = '*' then
      match cs with
      | '*' :: '*' :: _ => .error (.tooManyStars (position + 2))
      | '*' :: rest =>
        if before.all (· == '/') then
          match rest with
          | [] => .ok (addPath done).reverse
          | '/' :: rest => parseFrom size (some '/') (addPath done) rest
          | _ => .error (.partialComponent (position + 2))
        else .error (.partialComponent (position - 1))
      | rest => parseFrom size (some c) (.anyText :: done) rest
    else if c = '[' then
      match _h : takeSet? cs with
      | some (item, rest) => parseFrom size (some ']') (item :: done) rest
      | none => .error (.badSet position)
    else parseFrom size (some c) (.char c :: done) cs
termination_by cs => cs.length
decreasing_by
  all_goals first
    | exact Nat.lt_succ_of_lt (length_lt_of_takeSet? _h)
    | simp only [List.length_cons]; omega

/-- Reads a pattern. -/
def parse (text : String) : Except GlobError Glob :=
  (parseFrom text.toList.length none [] text.toList).map Glob.mk

/-! ## Matching

A row says, for each tail of a text from the longest to the empty one, whether a given tail of the
pattern stands for it. -/

/-- The row in front of an element that stands for one character with property `p`. -/
def rowChar (p : Char → Bool) (text : List Char) (row : List Bool) : List Bool :=
  List.zipWith (fun c hit => p c && hit) text (row.drop 1) ++ [false]

/-- The row in front of an element that stands for any text. -/
def rowText : List Bool → List Bool
  | [] => []
  | hit :: row =>
    let later := rowText row
    (hit || later.headD false) :: later

/-- For each tail of a text, whether the pattern stands for what follows one of its slashes or for
the empty tail. -/
def rowBehind : List Char → List Bool → List Bool
  | c :: text, _ :: row =>
    let later := rowBehind text row
    (later.headD false || c == '/' && row.headD false) :: later
  | _, row => row

/-- The row in front of an element that stands for any number of components: it takes nothing, or
everything up to some slash, or everything. -/
def rowPath (text : List Char) (row : List Bool) : List Bool :=
  List.zipWith (· || ·) row (rowBehind text row)

/-- The row in front of an element. -/
def rowOf (text : List Char) (item : GlobItem) (row : List Bool) : List Bool :=
  match item with
  | .char c => rowChar (· == c) text row
  | .anyChar => rowChar (fun _ => true) text row
  | .oneOf set => rowChar set.holds text row
  | .noneOf set => rowChar (!set.holds ·) text row
  | .anyText => rowText row
  | .anyPath => rowPath text row

/-- Whether the pattern stands for the whole text. -/
def covers (g : Glob) (text : String) : Bool :=
  let text := text.toList
  let last := text.map (fun _ => false) ++ [true]
  (g.items.foldr (rowOf text) last).headD false

end Glob

end PhpStyle
