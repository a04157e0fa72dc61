import PhpStyle.Token.Seq

/-!
# What the result of a checked computation says

A computation that has a result has met no fault in any of its parts. The lemmas here take such a
computation apart: `Checked.bind_eq_ok_iff` for two parts after each other, `Checked.mem_of_mapM`
for one part for each element of a list, `TokenSeq.read_eq_ok_iff` and `TokenSeq.mem_readRange` for
reading tokens. A property of results proved with them needs no assumption on indices; that there is
a result is a matter of its own.

Computations for the elements of a list are also compared with each other: list by list
(`Checked.mapM_flatMap`), element by element (`Checked.mapM_congr`), and with those for a part of
the elements (`Checked.exists_mapM_filter`). `Checked.Yields` says what holds of the result of a
computation whatever it is, with one rule for each way of putting computations together.
-/

namespace PhpStyle

namespace Checked

variable {α β γ : Type}

/-- Two computations after each other have a result if both have one. -/
theorem bind_eq_ok_iff {x : Checked α} {f : α → Checked β} {b : β} :
    x >>= f = .ok b ↔ ∃ a, x = .ok a ∧ f a = .ok b := by
  cases x with
  | error e =>
      constructor
      · rintro ⟨⟩
      · rintro ⟨a, ⟨⟩, -⟩
  | ok a =>
      constructor
      · intro h
        exact ⟨a, rfl, h⟩
      · rintro ⟨a', ha, h⟩
        cases ha
        exact h

/-- Whether there is a result that satisfies `P` can be computed if `P` can. -/
instance decidableExistsOk (x : Checked α) (P : α → Prop) [DecidablePred P] :
    Decidable (∃ a, x = .ok a ∧ P a) :=
  match x with
  | .ok a => decidable_of_iff (P a) (by simp)
  | .error _ => isFalse (by simp)

/-- A computation whose result is changed has a result if it has one. -/
theorem map_eq_ok_iff {x : Checked α} {f : α → β} {b : β} :
    f <$> x = .ok b ↔ ∃ a, x = .ok a ∧ f a = b := by
  rcases x with e | a
  · constructor
    · rintro ⟨⟩
    · rintro ⟨a, ⟨⟩, -⟩
  · constructor
    · rintro ⟨⟩
      exact ⟨a, rfl, rfl⟩
    · rintro ⟨a', ⟨⟩, rfl⟩
      rfl

/-- One computation for each element of a list, the first one taken apart. -/
theorem mapM_cons_eq_ok_iff {f : α → Checked β} {a : α} {xs : List α} {ys : List β} :
    (a :: xs).mapM f = .ok ys ↔ ∃ b bs, f a = .ok b ∧ xs.mapM f = .ok bs ∧ ys = b :: bs := by
  rw [List.mapM_cons, bind_eq_ok_iff]
  constructor
  · rintro ⟨b, hb, h⟩
    obtain ⟨bs, hbs, h⟩ := bind_eq_ok_iff.mp h
    cases h
    exact ⟨b, bs, hb, hbs, rfl⟩
  · rintro ⟨b, bs, hb, hbs, rfl⟩
    exact ⟨b, hb, bind_eq_ok_iff.mpr ⟨bs, hbs, rfl⟩⟩

/-- The results of computations for the elements of a list. -/
theorem mem_of_mapM {f : α → Checked β} {xs : List α} {ys : List β} (h : xs.mapM f = .ok ys)
    {b : β} : b ∈ ys ↔ ∃ a ∈ xs, f a = .ok b := by
  induction xs generalizing ys with
  | nil =>
      cases h
      simp
  | cons a xs ih =>
      obtain ⟨b', bs, hb', hbs, rfl⟩ := mapM_cons_eq_ok_iff.mp h
      rw [List.mem_cons, ih hbs]
      constructor
      · rintro (rfl | ⟨a', ha', hfa'⟩)
        · exact ⟨a, List.mem_cons_self, hb'⟩
        · exact ⟨a', List.mem_cons_of_mem a ha', hfa'⟩
      · rintro ⟨a', ha', hfa'⟩
        rcases List.mem_cons.mp ha' with rfl | ha'
        · rw [hb'] at hfa'
          exact Or.inl (Except.ok.inj hfa').symm
        · exact Or.inr ⟨a', ha', hfa'⟩

/-- Computations that agree on the elements of a list. -/
theorem mapM_congr {f g : α → Checked β} {xs : List α} (h : ∀ a ∈ xs, f a = g a) :
    xs.mapM f = xs.mapM g := by
  induction xs with
  | nil => rfl
  | cons a xs ih =>
      rw [List.forall_mem_cons] at h
      rw [List.mapM_cons, List.mapM_cons, h.1, ih h.2]

/-- Computations that all have a result. -/
theorem mapM_eq_ok {f : α → Checked β} {g : α → β} {xs : List α} (h : ∀ a ∈ xs, f a = .ok (g a)) :
    xs.mapM f = .ok (xs.map g) := by
  rw [mapM_congr h]
  exact List.mapM_pure

/-- There is a result if every element has one. -/
theorem exists_mapM_eq_ok {f : α → Checked β} {xs : List α} (h : ∀ a ∈ xs, ∃ b, f a = .ok b) :
    ∃ ys, xs.mapM f = .ok ys := by
  induction xs with
  | nil => exact ⟨[], rfl⟩
  | cons a xs ih =>
      rw [List.forall_mem_cons] at h
      obtain ⟨b, hb⟩ := h.1
      obtain ⟨bs, hbs⟩ := ih h.2
      exact ⟨b :: bs, mapM_cons_eq_ok_iff.mpr ⟨b, bs, hb, hbs, rfl⟩⟩

/-- Computations whose results are changed one by one. -/
theorem mapM_map_result (f : α → Checked β) (g : β → γ) (xs : List α) :
    (xs.mapM fun a => g <$> f a) = List.map g <$> xs.mapM f := by
  induction xs with
  | nil => rfl
  | cons a xs ih =>
      rw [List.mapM_cons, List.mapM_cons, ih]
      rcases f a with e | b
      · rfl
      rcases xs.mapM f with e | bs
      · rfl
      · rfl

/-- Computations for the elements of several lists, list by list. -/
theorem mapM_flatMap (f : β → Checked γ) (g : α → List β) (xs : List α) :
    (xs.flatMap g).mapM f = List.flatten <$> xs.mapM fun a => (g a).mapM f := by
  induction xs with
  | nil => rfl
  | cons a xs ih =>
      rw [List.flatMap_cons, List.mapM_append, List.mapM_cons, ih]
      rcases (g a).mapM f with e | bs
      · rfl
      rcases xs.mapM fun a => (g a).mapM f with e | bss
      · rfl
      · rfl

/-- Computations for the elements of a list, and others for the elements that satisfy `p` only. If
`t` makes the results of the others out of the results of the first, and leaves nothing of the
results of the elements that are passed over, it also does so for the whole list. -/
theorem exists_mapM_filter {f g : α → Checked β} {p : α → Bool} {h : β → List γ} {t : γ → Option γ}
    {xs : List α} {ys : List β}
    (hkeep : ∀ a ∈ xs, p a = true → ∀ b, f a = .ok b →
      ∃ b', g a = .ok b' ∧ h b' = (h b).filterMap t)
    (hdrop : ∀ a ∈ xs, p a = false → ∀ b, f a = .ok b → (h b).filterMap t = [])
    (hys : xs.mapM f = .ok ys) :
    ∃ ys', (xs.filter p).mapM g = .ok ys' ∧ ys'.flatMap h = (ys.flatMap h).filterMap t := by
  induction xs generalizing ys with
  | nil =>
      cases hys
      exact ⟨[], rfl, rfl⟩
  | cons a xs ih =>
      obtain ⟨b, bs, hb, hbs, rfl⟩ := mapM_cons_eq_ok_iff.mp hys
      rw [List.forall_mem_cons] at hkeep hdrop
      obtain ⟨bs', hbs', heq⟩ := ih hkeep.2 hdrop.2 hbs
      rw [List.flatMap_cons, List.filterMap_append, ← heq]
      by_cases hp : p a = true
      · obtain ⟨b', hb', hsame⟩ := hkeep.1 hp b hb
        rw [List.filter_cons_of_pos hp]
        exact ⟨b' :: bs', mapM_cons_eq_ok_iff.mpr ⟨b', bs', hb', hbs', rfl⟩, by simp [hsame]⟩
      · rw [List.filter_cons_of_neg hp]
        exact ⟨bs', hbs', by simp [hdrop.1 (Bool.eq_false_iff.mpr hp) b hb]⟩

/-! ### Whatever the result is -/

/-- Whatever result the computation has, it satisfies `Q`. -/
def Yields (x : Checked α) (Q : α → Prop) : Prop := ∀ a, x = .ok a → Q a

namespace Yields

variable {x : Checked α} {P Q : α → Prop} {R : β → Prop}

/-- A result that is returned. -/
theorem pure {a : α} (h : Q a) : Yields (Pure.pure a) Q := by
  rintro a' ⟨⟩
  exact h

/-- What is known of the result of the first part is known in the second. -/
theorem bind {f : α → Checked β} (hx : Yields x P) (hf : ∀ a, P a → Yields (f a) R) :
    Yields (x >>= f) R := by
  intro b hb
  obtain ⟨a, ha, hfa⟩ := bind_eq_ok_iff.mp hb
  exact hf a (hx a ha) b hfa

/-- Nothing need be known of the result of the first part. -/
theorem after {f : α → Checked β} (hf : ∀ a, Yields (f a) R) : Yields (x >>= f) R :=
  bind (P := fun _ => True) (fun _ _ => trivial) fun a _ => hf a

/-- One computation for each element of a list. -/
theorem mapM {f : α → Checked β} {xs : List α} (h : ∀ a ∈ xs, Yields (f a) R) :
    Yields (xs.mapM f) fun bs => ∀ b ∈ bs, R b := by
  intro bs hbs b hb
  obtain ⟨a, ha, hfa⟩ := (mem_of_mapM hbs).mp hb
  exact h a ha b hfa

end Yields

end Checked

namespace TokenSeq

variable {s : TokenSeq} {i start stop : Nat} {t : Token}

/-- What is read at an index is the token there. -/
theorem read_eq_ok_iff : s.read i = .ok t ↔ s.get? i = some t := by
  rw [read]
  cases s.get? i with
  | none =>
      constructor
      · rintro ⟨⟩
      · rintro ⟨⟩
  | some u => rw [Except.ok.injEq, Option.some.injEq]

/-- What is read in a range are the tokens there, with their indices. -/
theorem mem_readRange {body : List (Token × Nat)} (h : s.readRange start stop = .ok body) :
    (t, i) ∈ body ↔ start ≤ i ∧ i < stop ∧ s.get? i = some t := by
  rw [readRange] at h
  rw [Checked.mem_of_mapM h]
  constructor
  · rintro ⟨j, hj, hread⟩
    obtain ⟨u, hu, heq⟩ := Checked.bind_eq_ok_iff.mp hread
    cases heq
    have hrange := List.mem_range'_1.mp hj
    exact ⟨hrange.1, by omega, read_eq_ok_iff.mp hu⟩
  · rintro ⟨hstart, hstop, ht⟩
    refine ⟨i, List.mem_range'_1.mpr ⟨hstart, by omega⟩, ?_⟩
    exact Checked.bind_eq_ok_iff.mpr ⟨t, read_eq_ok_iff.mpr ht, rfl⟩

end TokenSeq

end PhpStyle
