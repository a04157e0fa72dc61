import Mathlib.Data.List.TakeWhile
import PhpStyle.Json.Reader

/-!
# The texts of a tree

`Spells part cs` says that the characters `cs` are a text of a value, of the items of an array up to
its bracket, or of the fields of an object up to its brace, with any spaces between the parts.
Numbers are whole there. It describes texts without a reader; `JsonTree.parse_of_spells` says that
the reader takes them apart again.

The reader goes through a text once, with fuel, and gives what is left of it. So the statement that
goes through an induction is about a part at the front of a longer text (`Part.ReadOff`): it is read
off, and the rest is what follows it. `Spells.reads` is this, by induction on how the part is
spelled, with one case for each constructor. What one turn of the reader does, if the parts inside
are read off, is said before: an array or an object that is not empty (`valueWithin_array`,
`valueWithin_object`), and items or fields that end or go on (`itemsWithin_last`,
`itemsWithin_item`, `fieldsWithin_last`, `fieldsWithin_field`).

Two things make the cases work. What follows a value must not look like more of a number, and what
follows it inside an array or an object is a space, a comma or a bracket (`stops_gap_cons`). And
where the reader decides by the first character, the text of a part has one that tells it apart from
the closing bracket (`Spells.exists_head`). There is fuel for each character, and each turn of the
reader takes one character at least.

Strings and numbers are read by loops of their own: a string up to the quote that no backslash
escapes (`stringRest_of_raw`, by induction on what stands between the quotes), a number up to the
first character that belongs to no number (`numberPart_of_whole`).

This is one direction only. The reader also takes numbers with fractions and exponents, and nothing
is said here of the texts that it refuses.
-/

namespace PhpStyle.JsonTree

/-! ### Strings -/

/-- What may stand between the quotes of a string. -/
inductive Raw : List Char → Prop where
  /-- Nothing. -/
  | nil : Raw []
  /-- A character that needs no escape. -/
  | plain (c : Char) {raw : List Char} (hcontrol : ¬ c < ' ') (hquote : c ≠ '"') (hslash : c ≠ '\\')
      (h : Raw raw) : Raw (c :: raw)
  /-- A letter behind a backslash. -/
  | letter (c : Char) {raw : List Char} (hletter : c ∈ escapeLetters) (h : Raw raw) :
      Raw ('\\' :: c :: raw)
  /-- A code point of four digits. -/
  | codePoint (a b c d : Char) {raw : List Char} (ha : Text.isHex a = true)
      (hb : Text.isHex b = true) (hc : Text.isHex c = true) (hd : Text.isHex d = true)
      (h : Raw raw) : Raw ('\\' :: 'u' :: a :: b :: c :: d :: raw)

/-- Two strings after each other. -/
theorem Raw.append {raw more : List Char} (h : Raw raw) (h' : Raw more) : Raw (raw ++ more) := by
  induction h with
  | nil => exact h'
  | plain c hcontrol hquote hslash _ ih => exact .plain c hcontrol hquote hslash ih
  | letter c hletter _ ih => exact .letter c hletter ih
  | codePoint a b c d ha hb hc hd _ ih => exact .codePoint a b c d ha hb hc hd ih

/-- A string is read up to the quote behind it. -/
theorem stringRest_of_raw {raw : List Char} (h : Raw raw) (rest : List Char) :
    stringRest (raw ++ '"' :: rest) = some (raw, rest) := by
  induction h with
  | nil => rfl
  | @plain c raw hcontrol hquote hslash _ ih =>
      -- the reader asks for a quote, for two sorts of escapes, and for a control; this is none
      rw [List.cons_append]
      unfold stringRest
      split
      · next heq =>
          rw [List.cons.injEq] at heq
          exact absurd heq.1 hquote
      · next heq =>
          rw [List.cons.injEq] at heq
          exact absurd heq.1 hslash
      · next heq =>
          rw [List.cons.injEq] at heq
          exact absurd heq.1 hslash
      · next heq =>
          rw [List.cons.injEq] at heq
          obtain ⟨rfl, rfl⟩ := heq
          simp [hcontrol, hslash, ih]
      · next heq => cases heq
  | @letter c raw hletter _ ih =>
      have hc : c ≠ 'u' := by
        rintro rfl
        revert hletter
        decide
      -- no letter of an escape is the one in front of a code point
      rw [List.cons_append, List.cons_append]
      unfold stringRest
      split
      · next heq =>
          rw [List.cons.injEq] at heq
          exact absurd heq.1 (by decide)
      · next heq =>
          simp only [List.cons.injEq] at heq
          exact absurd heq.2.1 hc
      · next heq =>
          simp only [List.cons.injEq, true_and] at heq
          obtain ⟨rfl, rfl⟩ := heq
          simp [hletter, ih]
      · next hnot heq =>
          simp only [List.cons.injEq] at heq
          obtain ⟨rfl, rfl⟩ := heq
          exact (hnot c _ rfl rfl).elim
      · next heq => cases heq
  | @codePoint a b c d raw ha hb hc hd _ ih =>
      simp only [List.cons_append]
      unfold stringRest
      simp [ha, hb, hc, hd, ih]

/-! ### Whole numbers -/

/-- The text is at its end, or goes on with something that belongs to no number. -/
def Stops (rest : List Char) : Prop :=
  ∀ c ∈ rest.head?, c.isDigit = false ∧ c ≠ '.' ∧ c ≠ 'e' ∧ c ≠ 'E'

/-- Digits that do not start with a zero, unless it stands alone. -/
structure Whole (ds : List Char) : Prop where
  /-- There is a digit. -/
  ne_nil : ds ≠ []
  /-- There is nothing else. -/
  isDigit : ∀ c ∈ ds, c.isDigit = true
  /-- A leading zero is the only digit. -/
  lead : ds.head? = some '0' → ds = ['0']

/-- The number that digits stand for, if they are behind a sign or not. -/
def wholeNumber (negative : Bool) (ds : List Char) : NumberText := ⟨negative, ds, none, none⟩

/-- The sign of a number. -/
def signOf (negative : Bool) : List Char := if negative then ['-'] else []

/-- A number starts with a minus sign or a digit. -/
theorem Whole.exists_start {ds : List Char} (h : Whole ds) (negative : Bool) :
    ∃ c more, signOf negative ++ ds = c :: more ∧ (c = '-' ∨ c.isDigit = true) := by
  cases negative with
  | true => exact ⟨'-', ds, rfl, Or.inl rfl⟩
  | false =>
      obtain ⟨d, more, rfl⟩ := List.exists_cons_of_ne_nil h.ne_nil
      exact ⟨d, more, rfl, Or.inr (h.isDigit d List.mem_cons_self)⟩

/-- Digits are read up to what is none. -/
theorem digits?_of_whole {ds rest : List Char} (h : Whole ds) (hrest : Stops rest) :
    digits? (ds ++ rest) = some (ds, rest) := by
  have hstop : rest.takeWhile Char.isDigit = [] ∧ rest.dropWhile Char.isDigit = rest := by
    cases rest with
    | nil => exact ⟨rfl, rfl⟩
    | cons c rest =>
        have hc := (hrest c rfl).1
        exact ⟨by rw [List.takeWhile_cons, hc]; rfl, by rw [List.dropWhile_cons, hc]; rfl⟩
  have htake : (ds ++ rest).takeWhile Char.isDigit = ds := by
    rw [List.takeWhile_append_of_pos h.isDigit, hstop.1, List.append_nil]
  have hdrop : (ds ++ rest).dropWhile Char.isDigit = rest := by
    rw [List.dropWhile_append_of_pos h.isDigit, hstop.2]
  unfold digits?
  rw [htake, hdrop]
  cases ds with
  | nil => exact absurd rfl h.ne_nil
  | cons d ds => rfl

/-- A whole number is read up to what belongs to no number. -/
theorem numberPart_of_whole {ds rest : List Char} (negative : Bool) (h : Whole ds)
    (hrest : Stops rest) :
    numberPart (signOf negative ++ ds ++ rest) = some (wholeNumber negative ds, rest) := by
  have hlead : ds.head? = some '0' → ds.length ≤ 1 := by
    intro hzero
    rw [h.lead hzero]
    rfl
  have hfraction : fractionPart rest = some (none, rest) := by
    unfold fractionPart
    split
    · exact absurd rfl (hrest '.' rfl).2.1
    · rfl
  have hexponent : exponentPart rest = some (none, rest) := by
    unfold exponentPart
    split
    · exact absurd rfl (hrest 'e' rfl).2.2.1
    · exact absurd rfl (hrest 'E' rfl).2.2.2
    · rfl
  -- neither a fraction nor an exponent follows, so the digits are all
  have hdigits := digits?_of_whole h hrest
  unfold numberPart
  cases negative with
  | true => simpa [signOf, wholeNumber, hdigits, hfraction, hexponent] using hlead
  | false =>
      obtain ⟨d, ds, rfl⟩ := List.exists_cons_of_ne_nil h.ne_nil
      have hd : d ≠ '-' := by
        rintro rfl
        exact absurd (h.isDigit '-' List.mem_cons_self) (by decide)
      rw [List.cons_append] at hdigits
      simpa [signOf, wholeNumber, hdigits, hfraction, hexponent, hd] using hlead

/-! ### Values -/

/-- A part of a tree that has a text: a value, the items of an array, or the fields of an object. -/
inductive Part where
  /-- A value. -/
  | value (tree : JsonTree)
  /-- The items of an array, of which there is one at least. -/
  | items (trees : List JsonTree)
  /-- The fields of an object, of which there is one at least. -/
  | fields (entries : List (List Char × JsonTree))

/-- Spaces between two parts. -/
def Gap (gap : List Char) : Prop := ∀ c ∈ gap, isSpace c = true

/-- A text of a part, with any spaces between the parts of it. The bracket or brace behind items or
fields belongs to them. -/
inductive Spells : Part → List Char → Prop where
  -- the words
  | null : Spells (.value .null) ['n', 'u', 'l', 'l']
  | isTrue : Spells (.value (.bool true)) ['t', 'r', 'u', 'e']
  | isFalse : Spells (.value (.bool false)) ['f', 'a', 'l', 's', 'e']
  -- what is read by a loop of its own
  | number (negative : Bool) {ds : List Char} (h : Whole ds) :
      Spells (.value (.number (wholeNumber negative ds))) (signOf negative ++ ds)
  | string {raw : List Char} (h : Raw raw) : Spells (.value (.string raw)) ('"' :: (raw ++ ['"']))
  -- arrays and objects, which may be empty
  | noItems {gap : List Char} (hgap : Gap gap) : Spells (.value (.array [])) ('[' :: (gap ++ [']']))
  | array {gap cs : List Char} {trees : List JsonTree} (hgap : Gap gap)
      (h : Spells (.items trees) cs) : Spells (.value (.array trees)) ('[' :: (gap ++ cs))
  | noFields {gap : List Char} (hgap : Gap gap) :
      Spells (.value (.object [])) ('\x7b' :: (gap ++ ['\x7d']))
  | object {gap cs : List Char} {entries : List (List Char × JsonTree)} (hgap : Gap gap)
      (h : Spells (.fields entries) cs) : Spells (.value (.object entries)) ('\x7b' :: (gap ++ cs))
  -- the last item takes the closing bracket with it, and each other item its comma
  | lastItem {cs gap : List Char} {tree : JsonTree} (h : Spells (.value tree) cs) (hgap : Gap gap) :
      Spells (.items [tree]) (cs ++ (gap ++ [']']))
  | item {cs gap gap' more : List Char} {tree : JsonTree} {trees : List JsonTree}
      (h : Spells (.value tree) cs) (hgap : Gap gap) (hgap' : Gap gap')
      (h' : Spells (.items trees) more) :
      Spells (.items (tree :: trees)) (cs ++ (gap ++ ',' :: (gap' ++ more)))
  -- and so with fields, which have a name in front
  | lastField {raw cs gap₁ gap₂ gap₃ : List Char} {tree : JsonTree} (hraw : Raw raw)
      (hgap₁ : Gap gap₁) (hgap₂ : Gap gap₂) (h : Spells (.value tree) cs) (hgap₃ : Gap gap₃) :
      Spells (.fields [(raw, tree)])
        ('"' :: (raw ++ '"' :: (gap₁ ++ ':' :: (gap₂ ++ (cs ++ (gap₃ ++ ['\x7d']))))))
  | field {raw cs gap₁ gap₂ gap₃ gap₄ more : List Char} {tree : JsonTree}
      {entries : List (List Char × JsonTree)} (hraw : Raw raw) (hgap₁ : Gap gap₁) (hgap₂ : Gap gap₂)
      (h : Spells (.value tree) cs) (hgap₃ : Gap gap₃) (hgap₄ : Gap gap₄)
      (h' : Spells (.fields entries) more) :
      Spells (.fields ((raw, tree) :: entries))
        ('"' :: (raw ++ '"' :: (gap₁ ++ ':' :: (gap₂ ++ (cs ++ (gap₃ ++ ',' :: (gap₄ ++ more)))))))

/-- Spaces are skipped up to what is none. -/
theorem skip_gap {gap cs : List Char} (hgap : Gap gap) (hcs : ∀ c ∈ cs.head?, isSpace c = false) :
    skip (gap ++ cs) = cs := by
  unfold skip
  rw [List.dropWhile_append_of_pos hgap]
  cases cs with
  | nil => rfl
  | cons c cs =>
      rw [List.dropWhile_cons, hcs c rfl]
      rfl

/-- Spaces in front of one character that is none. -/
theorem skip_gap_cons {gap cs : List Char} {c : Char} (hgap : Gap gap) (hc : isSpace c = false) :
    skip (gap ++ c :: cs) = c :: cs := by
  apply skip_gap hgap
  rintro c' ⟨⟩
  exact hc

/-- What a part can start with. -/
def Part.Starts : Part → Char → Prop
  | .fields _, c => c = '"'
  | _, c => isSpace c = false ∧ c ≠ ']'

/-- A text of a part starts with one of these. -/
theorem Spells.exists_head {part : Part} {cs : List Char} (h : Spells part cs) :
    ∃ c more, cs = c :: more ∧ part.Starts c := by
  induction h with
  | null | isTrue | isFalse => exact ⟨_, _, rfl, by simp [Part.Starts, isSpace]⟩
  | number negative h =>
      obtain ⟨c, more, heq, hc⟩ := h.exists_start negative
      refine ⟨c, more, heq, ?_, ?_⟩
      · by_contra hspace
        rw [Bool.not_eq_false] at hspace
        simp only [isSpace, Bool.or_eq_true, beq_iff_eq] at hspace
        rcases hspace with ((rfl | rfl) | rfl) | rfl <;> exact absurd hc (by decide)
      · rintro rfl
        exact absurd hc (by decide)
  | string | noItems | array | noFields | object =>
      exact ⟨_, _, rfl, by simp [Part.Starts, isSpace]⟩
  | lastItem _ _ ih | item _ _ _ _ ih =>
      obtain ⟨c, more, rfl, hc⟩ := ih
      exact ⟨c, _, rfl, hc⟩
  | lastField | field => exact ⟨_, _, rfl, rfl⟩

/-- A part is read off the front of a text. Behind a value there must not be more of a number. -/
def Part.ReadOff (fuel : Nat) (cs rest : List Char) : Part → Prop
  | .value tree => Stops rest → valueWithin fuel (cs ++ rest) = some (tree, rest)
  | .items trees => itemsWithin fuel (cs ++ rest) = some (trees, rest)
  | .fields entries => fieldsWithin fuel (cs ++ rest) = some (entries, rest)

/-- What separates parts ends a number. -/
theorem stops_gap_cons {gap cs : List Char} {c : Char} (hgap : Gap gap)
    (hc : c.isDigit = false ∧ c ≠ '.' ∧ c ≠ 'e' ∧ c ≠ 'E') : Stops (gap ++ c :: cs) := by
  cases gap with
  | nil =>
      rintro c' ⟨⟩
      exact hc
  | cons g gap =>
      rintro c' ⟨⟩
      have hspace := hgap g List.mem_cons_self
      simp only [isSpace, Bool.or_eq_true, beq_iff_eq] at hspace
      rcases hspace with ((rfl | rfl) | rfl) | rfl <;> decide

/-- A value that starts like a number is one. -/
theorem valueWithin_number {fuel : Nat} {c : Char} {cs : List Char}
    (hc : c = '-' ∨ c.isDigit = true) :
    valueWithin (fuel + 1) (c :: cs) =
      (numberPart (c :: cs)).map fun (n, cs) => (.number n, cs) := by
  have hne : ∀ c' ∈ ['n', 't', 'f', '"', '[', '\x7b'], c ≠ c' := by
    rintro c' hc' rfl
    rcases hc with rfl | hdigit
    · revert hc'
      decide
    · simp only [List.mem_cons, List.not_mem_nil, or_false] at hc'
      rcases hc' with rfl | rfl | rfl | rfl | rfl | rfl <;> exact absurd hdigit (by decide)
  unfold valueWithin
  split
  all_goals first
    | rfl
    | next heq =>
        rw [List.cons.injEq] at heq
        exact absurd heq.1 (hne _ (by simp))

section Turns

variable {fuel : Nat} {c : Char} {text more rest raw gap gap₁ gap₂ gap₃ : List Char}
  {tree : JsonTree} {trees : List JsonTree} {entries : List (List Char × JsonTree)}

/-- An array whose first item is there is read as its items. -/
theorem valueWithin_array (hgap : Gap gap) (hspace : isSpace c = false) (hne : c ≠ ']')
    (h : itemsWithin fuel (c :: more) = some (trees, rest)) :
    valueWithin (fuel + 1) ('[' :: (gap ++ c :: more)) = some (.array trees, rest) := by
  rw [valueWithin]
  simp [skip_gap_cons hgap hspace, hne, h]

/-- An object whose first field is there is read as its fields. -/
theorem valueWithin_object (hgap : Gap gap)
    (h : fieldsWithin fuel ('"' :: more) = some (entries, rest)) :
    valueWithin (fuel + 1) ('\x7b' :: (gap ++ '"' :: more)) = some (.object entries, rest) := by
  rw [valueWithin]
  simp [skip_gap_cons hgap (show isSpace '"' = false by decide), h]

/-- A bracket behind an item ends the items. -/
theorem itemsWithin_last (hgap : Gap gap)
    (h : valueWithin fuel text = some (tree, gap ++ ']' :: rest)) :
    itemsWithin (fuel + 1) text = some ([tree], rest) := by
  rw [itemsWithin]
  simp [h, skip_gap_cons hgap (show isSpace ']' = false by decide)]

/-- Behind a comma the items go on. -/
theorem itemsWithin_item (hgap₁ : Gap gap₁) (hgap₂ : Gap gap₂) (hspace : isSpace c = false)
    (h : valueWithin fuel text = some (tree, gap₁ ++ ',' :: (gap₂ ++ c :: more)))
    (hmore : itemsWithin fuel (c :: more) = some (trees, rest)) :
    itemsWithin (fuel + 1) text = some (tree :: trees, rest) := by
  rw [itemsWithin]
  simp [h, skip_gap_cons hgap₁ (show isSpace ',' = false by decide), skip_gap_cons hgap₂ hspace,
    hmore]

/-- A brace behind a field ends the fields. -/
theorem fieldsWithin_last (hraw : Raw raw) (hgap₁ : Gap gap₁) (hgap₂ : Gap gap₂)
    (hgap₃ : Gap gap₃) (hspace : isSpace c = false)
    (h : valueWithin fuel (c :: text) = some (tree, gap₃ ++ '\x7d' :: rest)) :
    fieldsWithin (fuel + 1) ('"' :: (raw ++ '"' :: (gap₁ ++ ':' :: (gap₂ ++ c :: text)))) =
      some ([(raw, tree)], rest) := by
  rw [fieldsWithin]
  simp [stringRest_of_raw hraw, skip_gap_cons hgap₁ (show isSpace ':' = false by decide),
    skip_gap_cons hgap₂ hspace, h, skip_gap_cons hgap₃ (show isSpace '\x7d' = false by decide)]

/-- Behind a comma the fields go on. -/
theorem fieldsWithin_field (hraw : Raw raw) (hgap₁ : Gap gap₁) (hgap₂ : Gap gap₂)
    (hgap₃ : Gap gap₃) (hgap : Gap gap) (hspace : isSpace c = false)
    (h : valueWithin fuel (c :: text) = some (tree, gap₃ ++ ',' :: (gap ++ '"' :: more)))
    (hmore : fieldsWithin fuel ('"' :: more) = some (entries, rest)) :
    fieldsWithin (fuel + 1) ('"' :: (raw ++ '"' :: (gap₁ ++ ':' :: (gap₂ ++ c :: text)))) =
      some ((raw, tree) :: entries, rest) := by
  rw [fieldsWithin]
  simp [stringRest_of_raw hraw, skip_gap_cons hgap₁ (show isSpace ':' = false by decide),
    skip_gap_cons hgap₂ hspace, h, skip_gap_cons hgap₃ (show isSpace ',' = false by decide),
    skip_gap_cons hgap (show isSpace '"' = false by decide), hmore]

end Turns

/-- There is fuel for a text that is not empty. -/
theorem exists_fuel {c : Char} {cs : List Char} {fuel : Nat} (h : (c :: cs).length ≤ fuel) :
    ∃ less, fuel = less + 1 ∧ cs.length ≤ less :=
  ⟨fuel - 1, by rw [List.length_cons] at h; omega, by rw [List.length_cons] at h; omega⟩

/-- **A part is read off the front of a text**, whatever follows, if there is fuel for
each character of it. -/
theorem Spells.reads {part : Part} {cs : List Char} (h : Spells part cs) {fuel : Nat}
    (hfuel : cs.length ≤ fuel) (rest : List Char) : part.ReadOff fuel cs rest := by
  induction h generalizing fuel rest with
  | null | isTrue | isFalse =>
      intro _
      obtain ⟨fuel, rfl, -⟩ := exists_fuel hfuel
      rfl
  | @number negative ds h =>
      intro hrest
      have hnumber := numberPart_of_whole negative h hrest
      obtain ⟨c, more, heq, hc⟩ := h.exists_start negative
      rw [heq] at hfuel hnumber ⊢
      obtain ⟨fuel, rfl, -⟩ := exists_fuel hfuel
      rw [List.cons_append] at hnumber ⊢
      rw [valueWithin_number hc, hnumber]
      rfl
  | string h =>
      intro _
      obtain ⟨fuel, rfl, -⟩ := exists_fuel hfuel
      rw [List.cons_append, List.append_assoc, valueWithin]
      simp [stringRest_of_raw h]
  | noItems hgap =>
      intro _
      obtain ⟨fuel, rfl, -⟩ := exists_fuel hfuel
      rw [List.cons_append, List.append_assoc, valueWithin]
      simp [skip_gap_cons hgap (show isSpace ']' = false by decide)]
  | @array gap cs trees hgap h ih =>
      intro _
      obtain ⟨fuel, rfl, hless⟩ := exists_fuel hfuel
      have hread : itemsWithin fuel (cs ++ rest) = some (trees, rest) := by
        apply ih
        rw [List.length_append] at hless
        omega
      -- the first item shows that the array is not empty
      obtain ⟨c, more, rfl, hspace, hne⟩ := h.exists_head
      rw [List.cons_append, List.append_assoc]
      exact valueWithin_array hgap hspace hne hread
  | noFields hgap =>
      intro _
      obtain ⟨fuel, rfl, -⟩ := exists_fuel hfuel
      rw [List.cons_append, List.append_assoc, valueWithin]
      simp [skip_gap_cons hgap (show isSpace '\x7d' = false by decide)]
  | @object gap cs entries hgap h ih =>
      intro _
      obtain ⟨fuel, rfl, hless⟩ := exists_fuel hfuel
      have hread : fieldsWithin fuel (cs ++ rest) = some (entries, rest) := by
        apply ih
        rw [List.length_append] at hless
        omega
      obtain ⟨c, more, rfl, rfl⟩ := h.exists_head
      rw [List.cons_append, List.append_assoc]
      exact valueWithin_object hgap hread
  | @lastItem cs gap tree h hgap ih =>
      have hlength : cs.length + 1 ≤ fuel := by
        simp only [List.length_append, List.length_singleton] at hfuel
        omega
      obtain ⟨fuel, rfl⟩ := Nat.exists_eq_add_one.mpr (Nat.zero_lt_of_lt hlength)
      -- behind the item stands its bracket, and so no more of a number
      have hread :=
        ih (Nat.le_of_succ_le_succ hlength) (gap ++ ']' :: rest) (stops_gap_cons hgap (by decide))
      rw [Part.ReadOff, List.append_assoc, List.append_assoc]
      exact itemsWithin_last hgap hread
  | @item cs gap gap' more tree trees h hgap hgap' h' ih ih' =>
      have hlength : cs.length + more.length + 1 ≤ fuel := by
        simp only [List.length_append, List.length_cons] at hfuel
        omega
      obtain ⟨fuel, rfl⟩ := Nat.exists_eq_add_one.mpr (Nat.zero_lt_of_lt hlength)
      -- the item is read off with all that follows it as the rest, then the others are
      have hread := ih (by omega : cs.length ≤ fuel) (gap ++ ',' :: (gap' ++ (more ++ rest)))
        (stops_gap_cons hgap (by decide))
      have hitems : itemsWithin fuel (more ++ rest) = some (trees, rest) := ih' (by omega) rest
      obtain ⟨c, more, rfl, hspace, -⟩ := h'.exists_head
      rw [Part.ReadOff, List.append_assoc, List.append_assoc, List.cons_append, List.append_assoc]
      exact itemsWithin_item hgap hgap' hspace hread hitems
  | @lastField raw cs gap₁ gap₂ gap₃ tree hraw hgap₁ hgap₂ h hgap₃ ih =>
      obtain ⟨fuel, rfl, hless⟩ := exists_fuel hfuel
      have hlength : cs.length ≤ fuel := by
        simp only [List.length_append, List.length_cons] at hless
        omega
      have hread := ih hlength (gap₃ ++ '\x7d' :: rest) (stops_gap_cons hgap₃ (by decide))
      obtain ⟨c, more, rfl, hspace, -⟩ := h.exists_head
      simp only [Part.ReadOff, List.cons_append, List.append_assoc, List.nil_append]
      exact fieldsWithin_last hraw hgap₁ hgap₂ hgap₃ hspace hread
  | @field raw cs gap₁ gap₂ gap₃ gap₄ more tree entries hraw hgap₁ hgap₂ h hgap₃ hgap₄ h' ih ih' =>
      obtain ⟨fuel, rfl, hless⟩ := exists_fuel hfuel
      have hlength : cs.length + more.length ≤ fuel := by
        simp only [List.length_append, List.length_cons] at hless
        omega
      -- as with items, behind the name and the colon
      have hread := ih (by omega : cs.length ≤ fuel) (gap₃ ++ ',' :: (gap₄ ++ (more ++ rest)))
        (stops_gap_cons hgap₃ (by decide))
      have hfields : fieldsWithin fuel (more ++ rest) = some (entries, rest) := ih' (by omega) rest
      obtain ⟨c, cs, rfl, hspace, -⟩ := h.exists_head
      obtain ⟨_, more, rfl, rfl⟩ := h'.exists_head
      simp only [Part.ReadOff, List.cons_append, List.append_assoc]
      exact fieldsWithin_field hraw hgap₁ hgap₂ hgap₃ hgap₄ hspace hread hfields

/-- **A text of a tree is read as this tree.** -/
theorem parse_of_spells {text : String} {tree : JsonTree} (h : Spells (.value tree) text.toList) :
    parse text = some tree := by
  have hskip : skip text.toList = text.toList := by
    obtain ⟨c, more, heq, hspace, -⟩ := h.exists_head
    have hgap : Gap [] := by simp [Gap]
    rw [heq]
    exact skip_gap_cons hgap hspace
  have hfuel : text.toList.length ≤ 2 * text.toList.length + 1 := by omega
  have hstops : Stops [] := by simp [Stops]
  have hread := h.reads hfuel [] hstops
  rw [List.append_nil] at hread
  simp only [parse, hskip, hread, Option.bind_eq_bind, Option.bind_some]
  rfl

end PhpStyle.JsonTree
