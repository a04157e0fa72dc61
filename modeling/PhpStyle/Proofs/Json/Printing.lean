import PhpStyle.Json.Writer
import PhpStyle.Proofs.Json.Grammar

/-!
# Both forms of a written value are texts of one tree

A value is written with or without spaces. Either way its text is one of the texts of a tree,
`Json.tree`, and so the reader gives this tree (`Json.parse_compact`, `Json.parse_pretty`). This is
said of values without floating-point numbers (`Json.Plain`).

Both forms go by induction on the value (`Json.spells_compact`, `Json.spells_prettyAt`, the second
one on every level at once). Words, numbers and texts are the same in both: an escaped text may
stand between quotes, character by character (`Json.raw_escaped`), and the digits of a number do not
start with a zero, unless it is the number zero (`Json.whole_toDigits`). The items of an array and
the fields of an object have lemmas of their own, by induction on the list, since the last one has
no comma behind it. What stands between the parts is nothing in one form and the start of a line in
the other, and `Json.gap_lineStart` is all that has to be known of the latter.
-/

namespace PhpStyle.Json

open JsonTree (Raw Whole Spells Gap wholeNumber signOf)

/-! ### The tree of a value -/

/-- A text with its escapes. -/
def escaped (text : String) : List Char := text.toList.flatMap escapeChar

mutual

/-- The tree that a value is written as. A floating-point number is the number of its text. -/
def tree : Json → JsonTree
  | null => .null
  | bool b => .bool b
  | int n => .number (wholeNumber (n < 0) (Nat.toDigits 10 n.natAbs))
  | float x =>
    match JsonTree.numberPart (Decimal.write .toEven x).toList with
    | some (n, _) => .number n
    | none => .null
  | string text => .string (escaped text)
  | array items => .array (treeItems items)
  | object fields => .object (treeFields fields)

/-- The trees of the items of an array. -/
def treeItems : List Json → List JsonTree
  | [] => []
  | item :: items => item.tree :: treeItems items

/-- The trees of the fields of an object, with their names. -/
def treeFields : List (String × Json) → List (List Char × JsonTree)
  | [] => []
  | (name, value) :: fields => (escaped name, value.tree) :: treeFields fields

end

/-- A value without floating-point numbers. -/
inductive Plain : Json → Prop where
  | null : Plain null
  | bool (b : Bool) : Plain (bool b)
  | int (n : Int) : Plain (int n)
  | string (text : String) : Plain (string text)
  -- and so with all parts
  | array {items : List Json} (h : ∀ item ∈ items, Plain item) : Plain (array items)
  | object {fields : List (String × Json)} (h : ∀ field ∈ fields, Plain field.2) :
      Plain (object fields)

/-- The digits of code points. -/
theorem isHex_hexDigit : ∀ n < 16, Text.isHex (hexDigit n) = true := by decide

/-- A control is one of the first characters. -/
theorem toNat_lt_of_control {c : Char} (h : c < ' ') : c.toNat < 32 := h

/-- A character may stand between quotes once it is escaped. -/
theorem raw_escapeChar (c : Char) : Raw (escapeChar c) := by
  unfold escapeChar
  -- seven characters have a letter of their own, the other controls are written in digits
  split_ifs with hquote hslash hb hf hn hr ht hcontrol
  · exact .letter '"' (by decide) .nil
  · exact .letter '\\' (by decide) .nil
  · exact .letter 'b' (by decide) .nil
  · exact .letter 'f' (by decide) .nil
  · exact .letter 'n' (by decide) .nil
  · exact .letter 'r' (by decide) .nil
  · exact .letter 't' (by decide) .nil
  · have hlt := toNat_lt_of_control hcontrol
    exact .codePoint '0' '0' _ _ (by decide) (by decide) (isHex_hexDigit _ (by omega))
      (isHex_hexDigit _ (by omega)) .nil
  · exact .plain c hcontrol hquote hslash .nil

/-- A text may stand between quotes once it is escaped. -/
theorem raw_escaped (text : String) : Raw (escaped text) := by
  unfold escaped
  induction text.toList with
  | nil => exact .nil
  | cons c cs ih =>
      rw [List.flatMap_cons]
      exact (raw_escapeChar c).append ih

/-- A text between quotes. -/
theorem toList_quote (text : String) : (quote text).toList = '"' :: (escaped text ++ ['"']) := by
  unfold quote escaped
  simp

/-! ### Numbers -/

/-- A number whose first digit is zero is zero, by induction on its quotients by ten. -/
theorem eq_zero_of_head_toDigits {n : Nat} (h : (Nat.toDigits 10 n).head? = some '0') : n = 0 := by
  induction n using Nat.strongRecOn with
  | ind n ih =>
      rw [Nat.toDigits_eq_if (by decide)] at h
      split_ifs at h with hlt
      · simpa [Nat.digitChar_eq_zero] using h
      · have hhead : (Nat.toDigits 10 (n / 10)).head? = some '0' := by
          have hne : Nat.toDigits 10 (n / 10) ≠ [] := Nat.toDigits_ne_nil
          obtain ⟨d, ds, heq⟩ := List.exists_cons_of_ne_nil hne
          rw [heq] at h ⊢
          exact h
        have := ih (n / 10) (by omega) hhead
        omega

/-- The digits of a number do not start with a zero. -/
theorem whole_toDigits (n : Nat) : Whole (Nat.toDigits 10 n) where
  ne_nil := Nat.toDigits_ne_nil
  isDigit _ hc := Nat.isDigit_of_mem_toDigits (by decide) (by decide) hc
  lead hzero := by
    rw [eq_zero_of_head_toDigits hzero]
    rfl

/-- A number is written with its sign and its digits. -/
theorem toList_int (n : Int) :
    (toString n).toList = signOf (n < 0) ++ Nat.toDigits 10 n.natAbs := by
  rw [Int.toString_eq_repr, Int.repr_eq_if]
  split_ifs with hpos
  · rw [Nat.repr_eq_ofList_toDigits, String.toList_ofList, decide_eq_false (by omega : ¬ n < 0),
      show n.toNat = n.natAbs by omega]
    rfl
  · rw [String.toList_append, Nat.repr_eq_ofList_toDigits,
      String.toList_ofList (l := Nat.toDigits 10 (-n).toNat), decide_eq_true (by omega : n < 0),
      show (-n).toNat = n.natAbs by omega]
    rfl

/-! ### Without spaces -/

/-- There need not be spaces. -/
theorem gap_nil : Gap [] := by simp [Gap]

/-- The items of an array. -/
theorem spells_compactItems {items : List Json} (hne : items ≠ [])
    (h : ∀ item ∈ items, Spells (.value item.tree) item.compact.toList) :
    Spells (.items (treeItems items)) ((compactItems items).toList ++ [']']) := by
  induction items with
  | nil => exact absurd rfl hne
  | cons item items ih =>
      rw [List.forall_mem_cons] at h
      cases items with
      | nil => exact .lastItem h.1 gap_nil
      | cons next items =>
          have hmore := Spells.item h.1 gap_nil gap_nil (ih (by simp) h.2)
          rw [compactItems, treeItems]
          · simpa using hmore
          · simp

/-- The fields of an object. -/
theorem spells_compactFields {fields : List (String × Json)} (hne : fields ≠ [])
    (h : ∀ field ∈ fields, Spells (.value field.2.tree) field.2.compact.toList) :
    Spells (.fields (treeFields fields)) ((compactFields fields).toList ++ ['\x7d']) := by
  induction fields with
  | nil => exact absurd rfl hne
  | cons field fields ih =>
      rw [List.forall_mem_cons] at h
      cases fields with
      | nil =>
          have hlast := Spells.lastField (raw_escaped field.1) gap_nil gap_nil h.1 gap_nil
          rw [compactFields, treeFields, treeFields]
          simpa [toList_quote] using hlast
      | cons next fields =>
          have hmore := Spells.field (raw_escaped field.1) gap_nil gap_nil h.1 gap_nil gap_nil
            (ih (by simp) h.2)
          rw [compactFields, treeFields]
          · simpa [toList_quote] using hmore
          · simp

/-- **The text without spaces is one of the tree of a value.** -/
theorem spells_compact {j : Json} (h : j.Plain) : Spells (.value j.tree) j.compact.toList := by
  induction h with
  | null => exact .null
  | bool b =>
      cases b with
      | true => exact .isTrue
      | false => exact .isFalse
  | int n =>
      rw [compact, toList_int]
      exact .number _ (whole_toDigits n.natAbs)
  | string text =>
      rw [compact, toList_quote]
      exact .string (raw_escaped text)
  | @array items _ ih =>
      rw [compact, tree]
      -- brackets with nothing between them are a case of their own
      by_cases hne : items = []
      · subst hne
        exact .noItems gap_nil
      · simpa using Spells.array gap_nil (spells_compactItems hne ih)
  | @object fields _ ih =>
      rw [compact, tree]
      by_cases hne : fields = []
      · subst hne
        exact .noFields gap_nil
      · simpa using Spells.object gap_nil (spells_compactFields hne ih)

/-! ### One item per line -/

/-- The start of a line is made of spaces. -/
theorem gap_lineStart (level : Nat) : Gap (lineStart level).toList := by
  intro c hc
  simp only [lineStart, String.toList_append, String.toList_ofList, List.mem_append,
    List.mem_replicate] at hc
  rcases hc with hc | ⟨-, rfl⟩
  · rw [List.mem_singleton.mp hc]
    rfl
  · rfl

/-- The items of an array, up to its bracket on the level in front of them. -/
theorem spells_prettyItems {level : Nat} {item : Json} {items : List Json} (outer : Nat)
    (h : ∀ item' ∈ item :: items, Spells (.value item'.tree) (item'.prettyAt level).toList) :
    Spells (.items (treeItems (item :: items)))
      ((item.prettyAt level).toList ++ ((prettyItems level items).toList ++
        ((lineStart outer).toList ++ [']']))) := by
  induction items generalizing item with
  | nil => exact .lastItem (h item (by simp)) (gap_lineStart outer)
  | cons next items ih =>
      rw [List.forall_mem_cons] at h
      have hmore := Spells.item h.1 gap_nil (gap_lineStart level) (ih h.2)
      rw [treeItems, prettyItems]
      simpa using hmore

/-- The fields of an object, up to its brace on the level in front of them. -/
theorem spells_prettyFields {level : Nat} {field : String × Json} {fields : List (String × Json)}
    (outer : Nat) (h : ∀ field' ∈ field :: fields,
      Spells (.value field'.2.tree) (field'.2.prettyAt level).toList) :
    Spells (.fields (treeFields (field :: fields)))
      ((quote field.1).toList ++ ([':', ' '] ++ ((field.2.prettyAt level).toList ++
        ((prettyFields level fields).toList ++ ((lineStart outer).toList ++ ['\x7d']))))) := by
  have hspace : Gap [' '] := by
    intro c hc
    rw [List.mem_singleton.mp hc]
    rfl
  induction fields generalizing field with
  | nil =>
      have hlast := Spells.lastField (raw_escaped field.1) gap_nil hspace (h field (by simp))
        (gap_lineStart outer)
      rw [treeFields, treeFields, prettyFields]
      simpa [toList_quote] using hlast
  | cons next fields ih =>
      rw [List.forall_mem_cons] at h
      have hmore :=
        Spells.field (raw_escaped field.1) gap_nil hspace h.1 gap_nil (gap_lineStart level) (ih h.2)
      rw [treeFields, prettyFields]
      simpa [toList_quote] using hmore

/-- **The text with one item per line is one of the tree of a value**, on every level. -/
theorem spells_prettyAt {j : Json} (h : j.Plain) (level : Nat) :
    Spells (.value j.tree) (j.prettyAt level).toList := by
  induction h generalizing level with
  | null =>
      rw [prettyAt]
      exact .null
  | bool b =>
      rw [prettyAt]
      cases b with
      | true => exact .isTrue
      | false => exact .isFalse
  | int n =>
      rw [prettyAt, toList_int]
      exact .number _ (whole_toDigits n.natAbs)
  | string text =>
      rw [prettyAt, toList_quote]
      exact .string (raw_escaped text)
  | @array items _ ih =>
      cases items with
      | nil =>
          rw [prettyAt]
          exact .noItems gap_nil
      | cons item items =>
          -- the items are one level further in than their brackets
          have hitems := spells_prettyItems level fun item' hitem => ih item' hitem (level + 1)
          rw [prettyAt, tree]
          simpa using Spells.array (gap_lineStart (level + 1)) hitems
  | @object fields _ ih =>
      cases fields with
      | nil =>
          rw [prettyAt]
          exact .noFields gap_nil
      | cons field fields =>
          have hfields := spells_prettyFields level fun field' hfield =>
            ih field' hfield (level + 1)
          rw [prettyAt, tree]
          simpa using Spells.object (gap_lineStart (level + 1)) hfields

/-! ### Reading what was written -/

/-- The text without spaces is read as the tree of the value. -/
theorem parse_compact {j : Json} (h : j.Plain) : JsonTree.parse j.compact = some j.tree :=
  JsonTree.parse_of_spells (spells_compact h)

/-- The text with one item per line is read as the tree of the value. -/
theorem parse_pretty {j : Json} (h : j.Plain) : JsonTree.parse j.pretty = some j.tree :=
  JsonTree.parse_of_spells (spells_prettyAt h 0)

end PhpStyle.Json
