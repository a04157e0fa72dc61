import PhpStyle.Proofs.Scope.Matching

/-!
# Computations without faults

`Ends fits x Q` says how a checked computation can end: with a result that satisfies `Q`, or else
with a sum that does not fit in a word, and that only if `fits` fails. No other fault is left. The
assumption `fits` is what is known about the sums of the computation, so that one statement says
both that indices and differences are always right, and that there is a result when sums fit.

There is one lemma for each way to put computations together (`Ends.bind`, `Ends.mapM`,
`Ends.foldlM`) and one for each primitive that can fail (`ends_read`, `ends_readRange`,
`ends_minus`, `ends_plus`, `ends_firstOf`). The searches cannot fail; the lemmas on `ahead` and
`behind` say that they look at tokens that exist, and so find such ones.

If a result repeats `fits`, the computation has one exactly if the sums fit (`ends_plus_exact`,
`Ends.mapM_exact`, `Ends.eq_overflow_iff`).
-/

namespace PhpStyle

variable {α β : Type} {fits : Prop}

/-! ### How a computation ends -/

/-- The computation has a result that satisfies `Q`, or meets a sum that does not fit although
`fits` does not hold. -/
def Ends (fits : Prop) (x : Checked α) (Q : α → Prop) : Prop :=
  match x with
  | .ok a => Q a
  | .error f => f = .overflow ∧ ¬ fits

namespace Ends

variable {x : Checked α} {P Q : α → Prop} {R : β → Prop}

/-- A result. -/
theorem ok {a : α} (h : Q a) : Ends fits (.ok a) Q := h

/-- A result that is returned. -/
theorem pure {a : α} (h : Q a) : Ends fits (Pure.pure a) Q := h

/-- What is known of the result of the first part is known in the second. -/
theorem bind {f : α → Checked β} (hx : Ends fits x P) (hf : ∀ a, P a → Ends fits (f a) R) :
    Ends fits (x >>= f) R := by
  cases x with
  | ok a => exact hf a hx
  | error e => exact hx

/-- A weaker statement about the result. -/
theorem mono (hx : Ends fits x P) (h : ∀ a, P a → Q a) : Ends fits x Q := by
  cases x with
  | ok a => exact h a hx
  | error e => exact hx

/-- A result is the one of the computation. -/
theorem eq_ok (hx : Ends fits x Q) : Ends fits x fun a => Q a ∧ x = .ok a := by
  cases x with
  | ok a => exact ⟨hx, rfl⟩
  | error e => exact hx

/-- A stronger assumption on the sums. -/
theorem weaken {fits' : Prop} (hx : Ends fits x Q) (h : fits' → fits) : Ends fits' x Q := by
  cases x with
  | ok a => exact hx
  | error e => exact ⟨hx.1, fun hfits => hx.2 (h hfits)⟩

/-- A result that is changed. -/
theorem map {f : α → β} (hx : Ends fits x P) (h : ∀ a, P a → R (f a)) :
    Ends fits (f <$> x) R := by
  cases x with
  | ok a => exact h a hx
  | error e => exact hx

/-- One computation for each element of a list. -/
theorem mapM {f : α → Checked β} {xs : List α} (h : ∀ a ∈ xs, Ends fits (f a) R) :
    Ends fits (xs.mapM f) fun bs => ∀ b ∈ bs, R b := by
  induction xs with
  | nil => exact Ends.pure (by simp)
  | cons a xs ih =>
      rw [List.mapM_cons]
      refine (h a List.mem_cons_self).bind fun b hb => ?_
      refine (ih fun a' ha' => h a' (List.mem_cons_of_mem a ha')).bind fun bs hbs => ?_
      exact Ends.pure (List.forall_mem_cons.mpr ⟨hb, hbs⟩)

/-- One computation for each element of a list, where what is said of a result depends on its
element. -/
theorem mapM_forall₂ {f : α → Checked β} {R : α → β → Prop} {xs : List α}
    (h : ∀ a ∈ xs, Ends fits (f a) (R a)) : Ends fits (xs.mapM f) (List.Forall₂ R xs) := by
  induction xs with
  | nil => exact Ends.pure .nil
  | cons a xs ih =>
      rw [List.forall_mem_cons] at h
      rw [List.mapM_cons]
      refine h.1.bind fun b hb => ?_
      exact (ih h.2).bind fun bs hbs => Ends.pure (.cons hb hbs)

/-- One computation for each element of a list, each with its own sums: the whole has a result
exactly if every one has. -/
theorem mapM_exact {fits : α → Prop} {f : α → Checked β} {g : α → β} {xs : List α}
    (h : ∀ a ∈ xs, Ends (fits a) (f a) fun b => fits a ∧ b = g a) :
    Ends (∀ a ∈ xs, fits a) (xs.mapM f) fun bs => (∀ a ∈ xs, fits a) ∧ bs = xs.map g := by
  induction xs with
  | nil => exact Ends.pure (by simp)
  | cons a xs ih =>
      rw [List.forall_mem_cons] at h
      rw [List.mapM_cons]
      refine (h.1.weaken fun hfits => hfits a List.mem_cons_self).bind fun b ⟨ha, hb⟩ => ?_
      refine ((ih h.2).weaken fun hfits => (List.forall_mem_cons.mp hfits).2).bind
        fun bs ⟨hxs, hbs⟩ => ?_
      exact Ends.pure ⟨List.forall_mem_cons.mpr ⟨ha, hxs⟩, by rw [hb, hbs, List.map_cons]⟩

/-- A state that is changed by each element of a list: what every step keeps, the whole does. -/
theorem foldlM {σ : Type} {f : σ → α → Checked σ} {xs : List α} {s : σ} {Inv : σ → Prop}
    (hstart : Inv s) (hstep : ∀ s, Inv s → ∀ a ∈ xs, Ends fits (f s a) Inv) :
    Ends fits (xs.foldlM f s) Inv := by
  induction xs generalizing s with
  | nil => exact Ends.pure hstart
  | cons a xs ih =>
      rw [List.foldlM_cons]
      refine (hstep s hstart a List.mem_cons_self).bind fun s' hs' => ?_
      exact ih hs' fun s hs a' ha' => hstep s hs a' (List.mem_cons_of_mem a ha')

/-- A state that is changed by each element of a list, where what is known of it depends on the
elements that were taken in: one element more, and so all of those that are left. -/
theorem foldlM_done {σ : Type} {f : σ → α → Checked σ} {Inv : List α → σ → Prop}
    (hstep : ∀ done s a, Inv done s → Ends fits (f s a) (Inv (done ++ [a]))) {done : List α} {s : σ}
    (hstart : Inv done s) (rest : List α) : Ends fits (rest.foldlM f s) (Inv (done ++ rest)) := by
  induction rest generalizing done s with
  | nil =>
      rw [List.append_nil]
      exact Ends.pure hstart
  | cons a rest ih =>
      rw [List.foldlM_cons, List.append_cons]
      exact (hstep done s a hstart).bind fun s' hs' => ih hs'

/-- There is a result if the sums fit, and otherwise no fault but an overflow. -/
theorem result_or_overflow (hx : Ends fits x Q) :
    (∃ a, x = .ok a) ∨ x = .error .overflow ∧ ¬ fits := by
  cases x with
  | ok a => exact Or.inl ⟨a, rfl⟩
  | error e =>
      obtain ⟨rfl, hfits⟩ := hx
      exact Or.inr ⟨rfl, hfits⟩

/-- A result satisfies what is said of it. -/
theorem of_eq_ok {a : α} (hx : Ends fits x Q) (h : x = .ok a) : Q a := by
  subst h
  exact hx

/-- There is a result if the sums fit, and it satisfies what is said of it. -/
theorem exists_of_fits (hx : Ends fits x Q) (hfits : fits) : ∃ a, x = .ok a ∧ Q a := by
  cases x with
  | ok a => exact ⟨a, rfl, hx⟩
  | error e => exact absurd hfits hx.2

/-- If a result repeats `fits`, there is none exactly if the sums do not fit. -/
theorem eq_overflow_iff (hx : Ends fits x fun a => fits ∧ Q a) : x = .error .overflow ↔ ¬ fits := by
  rcases hx.result_or_overflow with ⟨a, rfl⟩ | ⟨heq, hover⟩
  · simpa using hx.1
  · exact iff_of_true heq hover

end Ends

/-! ### Arithmetic -/

variable {m n : Nat}

/-- A difference is taken where it is not negative. -/
theorem ends_minus (h : n ≤ m) : Ends fits (minus m n) (· = m - n) := by
  rw [minus, if_pos h]
  exact Ends.ok rfl

/-- A sum is the sum of the natural numbers if it fits. -/
theorem ends_plus (h : fits → m + n ≤ maxWord) : Ends fits (plus m n) (· = m + n) := by
  rw [plus]
  split
  · exact Ends.ok rfl
  · next hover => exact ⟨rfl, fun hfits => hover (h hfits)⟩

/-- A sum has a result exactly if it fits. -/
theorem ends_plus_exact : Ends (m + n ≤ maxWord) (plus m n) fun r => m + n ≤ maxWord ∧
    r = m + n := by
  rw [plus]
  split
  · next hfits => exact Ends.ok ⟨hfits, rfl⟩
  · next hover => exact ⟨rfl, hover⟩

/-- A list has the elements that are taken. -/
theorem ends_firstOf {xs : List α} (h : n ≤ xs.length) :
    Ends fits (firstOf n xs) (· = xs.take n) := by
  rw [firstOf, if_pos h]
  exact Ends.ok rfl

/-! ### Tokens -/

namespace TokenSeq

variable {s : TokenSeq} {i j start stop floor : Nat} {stop? : Option Nat} {p : Kind → Bool}

/-- A token that exists is read. -/
theorem ends_read (h : i < s.size) : Ends fits (s.read i) fun t => s.get? i = some t := by
  obtain ⟨t, ht⟩ := exists_get? h
  rw [read, ht]
  exact Ends.ok rfl

/-- A range of tokens that exist is read. -/
theorem ends_readRange (h : stop ≤ s.size) :
    Ends fits (s.readRange start stop) fun body =>
      ∀ entry ∈ body, start ≤ entry.2 ∧ entry.2 < stop ∧ s.get? entry.2 = some entry.1 := by
  refine Ends.mapM fun i hi => ?_
  have hrange := List.mem_range'_1.mp hi
  exact (ends_read (by omega)).bind fun t ht => Ends.pure ⟨hrange.1, by omega, ht⟩

/-- A search forwards looks at tokens from `start` on. -/
theorem mem_ahead (h : j ∈ s.ahead start stop?) :
    start ≤ j ∧ j < s.size ∧ ∀ stop ∈ stop?, j < stop := by
  have hrange := List.mem_range'_1.mp h
  refine ⟨hrange.1, by omega, ?_⟩
  rintro stop rfl
  simp only [Option.getD_some] at hrange
  omega

/-- A search backwards looks at tokens up to `start`. -/
theorem mem_behind (h : j ∈ s.behind start floor) : floor ≤ j ∧ j ≤ start ∧ j < s.size := by
  rw [behind] at h
  split at h
  · cases h
  · next hempty =>
      have hrange := List.mem_range'_1.mp (List.mem_reverse.mp h)
      have hsize : 0 < s.size := by
        rw [isEmpty, Array.isEmpty_iff_size_eq_zero] at hempty
        exact Nat.pos_of_ne_zero hempty
      omega

/-- What a search forwards finds. -/
theorem next_eq_some (h : s.next p start stop? = some j) :
    start ≤ j ∧ j < s.size ∧ (∀ stop ∈ stop?, j < stop) ∧ s.kindAt p j = true := by
  obtain ⟨hstart, hsize, hstop⟩ := mem_ahead (List.mem_of_find?_eq_some h)
  exact ⟨hstart, hsize, hstop, List.find?_some h⟩

/-- What a search backwards finds. -/
theorem prev_eq_some (h : s.prev p start floor = some j) :
    floor ≤ j ∧ j ≤ start ∧ j < s.size ∧ s.kindAt p j = true := by
  obtain ⟨hfloor, hstart, hsize⟩ := mem_behind (List.mem_of_find?_eq_some h)
  exact ⟨hfloor, hstart, hsize, List.find?_some h⟩

end TokenSeq

end PhpStyle
