import PhpStyle.Fault
import PhpStyle.Text.Blank

/-!
# Texts by their bytes

Lengths and places are counted in bytes of the UTF-8 form here, and so a place may lie inside a
character or behind the end of the text. A text can be cut only at the other places.

* `size` — the number of bytes of a text.
* `cut?` — the two parts of a text at a byte; `cut` is the same as a computation that may stop.
* `find?`, `findText?` — the byte at which a character of a class, or a text, first stands.

A cut that succeeds is a cut between two characters (`eq_append_of_cut?`), and a text can be cut at
the size of each of its fronts (`cut?_size`).
-/

namespace PhpStyle.Text

/-! ## Sizes -/

/-- The number of bytes of a text in UTF-8. -/
def size : List Char → Nat
  | [] => 0
  | c :: cs => c.utf8Size + size cs

@[simp] theorem size_nil : size [] = 0 := rfl

@[simp] theorem size_cons (c : Char) (cs : List Char) : size (c :: cs) = c.utf8Size + size cs := rfl

/-- The size of two texts after each other. -/
@[simp] theorem size_append (front back : List Char) :
    size (front ++ back) = size front + size back := by
  induction front with
  | nil => simp
  | cons c front ih => rw [List.cons_append, size_cons, size_cons, ih, Nat.add_assoc]

/-- The size is the number of bytes of the string. -/
theorem utf8ByteSize_ofList (cs : List Char) : (String.ofList cs).utf8ByteSize = size cs := by
  induction cs with
  | nil => simp
  | cons c cs ih =>
      rw [← List.singleton_append, String.ofList_append, String.utf8ByteSize_append,
        ← String.singleton_eq_ofList, String.utf8ByteSize_singleton, ih]
      rfl

/-! ## Cuts -/

/-- The parts of a text in front of byte `n` and behind it; `none` if the text is shorter or if byte
`n` lies inside a character. -/
def cut? : Nat → List Char → Option (List Char × List Char)
  | 0, cs => some ([], cs)
  | _ + 1, [] => none
  | n + 1, c :: cs =>
    if c.utf8Size ≤ n + 1 then
      (cut? (n + 1 - c.utf8Size) cs).map fun (front, back) => (c :: front, back)
    else none

/-- The parts of a cut are the text, and the front has the given size. -/
theorem eq_append_of_cut? {n : Nat} {cs front back : List Char}
    (h : cut? n cs = some (front, back)) : cs = front ++ back ∧ size front = n := by
  fun_induction cut? n cs generalizing front with
  | case1 cs =>
      cases h
      exact ⟨rfl, rfl⟩
  | case2 => cases h
  | case3 n c cs hle ih =>
      obtain ⟨⟨front', back'⟩, hcut, heq⟩ := Option.map_eq_some_iff.mp h
      cases heq
      obtain ⟨hcs, hsize⟩ := ih hcut
      rw [size_cons, hsize]
      exact ⟨by rw [hcs, List.cons_append], by omega⟩
  | case4 => cases h

/-- A text can be cut behind each of its fronts. -/
theorem cut?_size (front back : List Char) :
    cut? (size front) (front ++ back) = some (front, back) := by
  induction front with
  | nil => rw [size_nil, cut?, List.nil_append]
  | cons c front ih =>
      have hpos := c.utf8Size_pos
      obtain ⟨n, hn⟩ : ∃ n, size (c :: front) = n + 1 := ⟨size (c :: front) - 1, by
        rw [size_cons]
        omega⟩
      have hrest : n + 1 - c.utf8Size = size front := by
        rw [← hn, size_cons, Nat.add_sub_cancel_left]
      have hle : c.utf8Size ≤ n + 1 := by
        rw [← hn, size_cons]
        exact Nat.le_add_right _ _
      rw [hn, List.cons_append, cut?, if_pos hle, hrest, ih, Option.map_some]

/-- A cut at a byte is possible exactly if the text has a front of so many bytes. -/
theorem cut?_eq_some_iff {n : Nat} {cs front back : List Char} :
    cut? n cs = some (front, back) ↔ cs = front ++ back ∧ size front = n := by
  refine ⟨eq_append_of_cut?, ?_⟩
  rintro ⟨rfl, rfl⟩
  exact cut?_size front back

/-- There is no cut inside a character. -/
example : cut? 1 ['\u00e9', 'x'] = none ∧ cut? 2 ['\u00e9', 'x'] = some (['\u00e9'], ['x']) := by
  decide

/-- The parts of a text in front of byte `n` and behind it. -/
def cut (n : Nat) (cs : List Char) : Checked (List Char × List Char) :=
  match cut? n cs with
  | some parts => .ok parts
  | none => .error (.noBoundary n)

/-- A text can be cut behind each of its fronts. -/
theorem cut_size (front back : List Char) :
    cut (size front) (front ++ back) = .ok (front, back) := by
  rw [cut, cut?_size]

/-- What is left of a text after its first `n` bytes. -/
def dropBytes? (n : Nat) (cs : List Char) : Option (List Char) := (cut? n cs).map (·.2)

/-- What is left starts behind a whole character. -/
theorem exists_lead_of_dropBytes? {n : Nat} {cs rest : List Char}
    (h : dropBytes? n cs = some rest) :
    ∃ lead, cs = lead ++ rest ∧ (String.ofList lead).utf8ByteSize = n := by
  obtain ⟨⟨lead, back⟩, hcut, rfl⟩ := Option.map_eq_some_iff.mp h
  obtain ⟨hcs, hsize⟩ := eq_append_of_cut? hcut
  exact ⟨lead, hcs, by rw [utf8ByteSize_ofList, hsize]⟩

/-! ## Searches -/

/-- The byte at which a character with the property `p` first stands. -/
def find? (p : Char → Bool) : List Char → Option Nat
  | [] => none
  | c :: cs => if p c then some 0 else (find? p cs).map (c.utf8Size + ·)

/-- The byte at which the text `needle` first stands. -/
def findText? (needle cs : List Char) : Option Nat :=
  (cutAt needle cs).map fun (before, _) => size before

/-- The characters in front of the first one with the property, or all of them, have the size at
which the search ends. -/
theorem getD_find? (p : Char → Bool) (cs : List Char) :
    (find? p cs).getD (size cs) = size (cs.takeWhile fun c => !p c) := by
  induction cs with
  | nil => rfl
  | cons c cs ih =>
      rw [find?, List.takeWhile_cons]
      by_cases hc : p c
      · simp [hc]
      · rw [if_neg hc, if_pos (by simpa using hc), size_cons, size_cons, ← ih]
        cases find? p cs <;> rfl

end PhpStyle.Text
