import Mathlib.Data.List.Sort
import Mathlib.Data.Set.Card
import PhpStyle.Token.Kind

/-!
# Braces that belong together

Which closing brace belongs to which opening one, said of a list of kinds alone and without a
stack. `Closes kinds c o` is the pairing, `OpenAt kinds n o` says that the brace `o` has not been
closed before `n`; each is explained by the other (`closes_iff`, `openAt_succ_iff`).

* The pairing is one to one (`Closes.closing_unique`, `Closes.opening_unique`), and two pairs are
  nested or disjoint (`Closes.nested_or_disjoint`).
* `IsStack kinds n st` says that `st` lists the braces open at `n`, the last one first. Its step
  lemmas say how such a list changes from `n` to `n + 1`; a pass that keeps a stack needs no more.
* `Unmatched` are the braces without a partner. A list that holds each of them once counts them
  (`ncard_unmatched`).
-/

namespace PhpStyle.Braces

variable {kinds : List Kind} {n c d o p : Nat} {st : List Nat}

/-! ### The pairing -/

/-- The brace `c` closes the brace `o`: no brace before `c` does, and every opening brace between
the two is closed before `c`. -/
def Closes (kinds : List Kind) (c o : Nat) : Prop :=
  kinds[c]? = some .closeBrace ∧ kinds[o]? = some .openBrace ∧ o < c ∧
    (∀ d, d < c → ¬ Closes kinds d o) ∧
    ∀ p, o < p → p < c → kinds[p]? = some .openBrace → ∃ d, ∃ _ : d < c, Closes kinds d p
termination_by c

/-- The brace `o` stands before `n`, and no brace before `n` closes it. -/
def OpenAt (kinds : List Kind) (n o : Nat) : Prop :=
  kinds[o]? = some .openBrace ∧ o < n ∧ ∀ d, d < n → ¬ Closes kinds d o

/-- A closing brace closes the last brace that is open at it. -/
theorem closes_iff :
    Closes kinds c o ↔
      kinds[c]? = some .closeBrace ∧ OpenAt kinds c o ∧ ∀ p, OpenAt kinds c p → p ≤ o := by
  rw [Closes]
  constructor
  · rintro ⟨hc, ho, hoc, hfirst, hbetween⟩
    refine ⟨hc, ⟨ho, hoc, hfirst⟩, ?_⟩
    rintro p ⟨hp, hpc, hopen⟩
    by_contra hop
    obtain ⟨d, hd, hdp⟩ := hbetween p (by omega) hpc hp
    exact hopen d hd hdp
  · rintro ⟨hc, ⟨ho, hoc, hfirst⟩, hlast⟩
    refine ⟨hc, ho, hoc, hfirst, ?_⟩
    intro p hop hpc hp
    by_contra hnone
    have := hlast p ⟨hp, hpc, fun d hd hdp => hnone ⟨d, hd, hdp⟩⟩
    omega

namespace Closes

/-- What closes is a closing brace. -/
theorem kind_closing (h : Closes kinds c o) : kinds[c]? = some .closeBrace :=
  (closes_iff.mp h).1

/-- What is closed is open until then. -/
theorem openAt (h : Closes kinds c o) : OpenAt kinds c o :=
  (closes_iff.mp h).2.1

/-- What is closed is an opening brace. -/
theorem kind_opening (h : Closes kinds c o) : kinds[o]? = some .openBrace :=
  h.openAt.1

/-- A brace is closed behind itself. -/
theorem lt (h : Closes kinds c o) : o < c :=
  h.openAt.2.1

/-- The closing brace is in the list. -/
theorem lt_length (h : Closes kinds c o) : c < kinds.length :=
  (List.getElem?_eq_some_iff.mp h.kind_closing).1

/-- A brace is closed once. -/
theorem closing_unique (hc : Closes kinds c o) (hd : Closes kinds d o) : c = d := by
  rcases Nat.lt_trichotomy c d with h | h | h
  · exact absurd hc (hd.openAt.2.2 c h)
  · exact h
  · exact absurd hd (hc.openAt.2.2 d h)

/-- A brace closes one brace. -/
theorem opening_unique (ho : Closes kinds c o) (hp : Closes kinds c p) : o = p := by
  have h₁ := (closes_iff.mp ho).2.2 p hp.openAt
  have h₂ := (closes_iff.mp hp).2.2 o ho.openAt
  omega

/-- A brace that is opened inside a pair is closed inside it. -/
theorem closed_inside (h : Closes kinds c o) (hop : o < p) (hpc : p < c) (hd : Closes kinds d p) :
    d < c := by
  by_contra hdc
  have hopen : OpenAt kinds c p :=
    ⟨hd.kind_opening, hpc, fun e he hep => by have := hep.closing_unique hd; omega⟩
  have := (closes_iff.mp h).2.2 p hopen
  omega

/-- Two different pairs are disjoint, or one lies inside the other. -/
theorem nested_or_disjoint (h : Closes kinds c o) (h' : Closes kinds d p) :
    o = p ∧ c = d ∨ c < p ∨ d < o ∨ o < p ∧ d < c ∨ p < o ∧ c < d := by
  have hoc := h.lt
  have hpd := h'.lt
  rcases Nat.lt_trichotomy o p with hop | hop | hop
  · rcases Nat.lt_trichotomy c p with hcp | hcp | hcp
    · exact Or.inr (Or.inl hcp)
    · -- the brace at `p` would be a closing and an opening one
      have hk := h'.kind_opening
      rw [← hcp, h.kind_closing] at hk
      simp at hk
    · exact Or.inr (Or.inr (Or.inr (Or.inl ⟨hop, h.closed_inside hop hcp h'⟩)))
  · subst hop
    exact Or.inl ⟨rfl, h.closing_unique h'⟩
  · rcases Nat.lt_trichotomy d o with hdo | hdo | hdo
    · exact Or.inr (Or.inr (Or.inl hdo))
    · have hk := h.kind_opening
      rw [← hdo, h'.kind_closing] at hk
      simp at hk
    · exact Or.inr (Or.inr (Or.inr (Or.inr ⟨hop, h'.closed_inside hop hdo h⟩)))

end Closes

/-! ### From one place to the next -/

/-- Only a closing brace closes. -/
theorem not_closes_of_kind (h : kinds[n]? ≠ some .closeBrace) (o : Nat) : ¬ Closes kinds n o :=
  fun hc => h hc.kind_closing

/-- What is closed up to `n` is closed before `n`, if not at `n`. -/
theorem closes_succ_iff (h : ¬ Closes kinds n o) :
    c < n + 1 ∧ Closes kinds c o ↔ c < n ∧ Closes kinds c o := by
  constructor
  · rintro ⟨hc, hco⟩
    have hcn : c ≠ n := fun heq => h (heq ▸ hco)
    exact ⟨by omega, hco⟩
  · rintro ⟨hc, hco⟩
    exact ⟨by omega, hco⟩

/-- The braces open behind `n` are those open at `n` that `n` does not close, and `n` itself if it
is an opening brace. -/
theorem openAt_succ_iff :
    OpenAt kinds (n + 1) o ↔
      o = n ∧ kinds[n]? = some .openBrace ∨ OpenAt kinds n o ∧ ¬ Closes kinds n o := by
  constructor
  · rintro ⟨ho, hlt, hopen⟩
    by_cases hon : o = n
    · subst hon
      exact Or.inl ⟨rfl, ho⟩
    · exact Or.inr ⟨⟨ho, by omega, fun d hd => hopen d (by omega)⟩, hopen n (by omega)⟩
  · rintro (⟨rfl, hk⟩ | ⟨⟨ho, hlt, hopen⟩, hn⟩)
    · exact ⟨hk, by omega, fun d hd hdo => by have := hdo.lt; omega⟩
    · refine ⟨ho, by omega, fun d hd hdo => ?_⟩
      rcases Nat.lt_succ_iff_lt_or_eq.mp hd with hd | rfl
      · exact hopen d hd hdo
      · exact hn hdo

/-- `st` lists the braces that are open at `n`, the last one first. -/
structure IsStack (kinds : List Kind) (n : Nat) (st : List Nat) : Prop where
  /-- The order of the list. -/
  sorted : st.Pairwise (· > ·)
  /-- Its members. -/
  mem_iff : ∀ o, o ∈ st ↔ OpenAt kinds n o

namespace IsStack

/-- At the start no brace is open. -/
theorem nil : IsStack kinds 0 [] :=
  ⟨List.Pairwise.nil, fun o => by simp [OpenAt]⟩

/-- A place without a brace changes nothing, and neither does a closing brace that closes
nothing. -/
theorem keep (h : IsStack kinds n st) (hopen : kinds[n]? ≠ some .openBrace)
    (hclose : ∀ o, ¬ Closes kinds n o) : IsStack kinds (n + 1) st := by
  refine ⟨h.sorted, fun o => ?_⟩
  rw [h.mem_iff, openAt_succ_iff]
  simp [hopen, hclose]

/-- An opening brace is put on top. -/
theorem push (h : IsStack kinds n st) (hk : kinds[n]? = some .openBrace) :
    IsStack kinds (n + 1) (n :: st) := by
  have hclose : ∀ o, ¬ Closes kinds n o := not_closes_of_kind (by rw [hk]; simp)
  refine ⟨List.pairwise_cons.mpr ⟨fun o ho => ((h.mem_iff o).mp ho).2.1, h.sorted⟩, fun o => ?_⟩
  rw [List.mem_cons, h.mem_iff, openAt_succ_iff]
  simp [hk, hclose]

/-- A closing brace closes the top. -/
theorem closes_top (h : IsStack kinds n (o :: st)) (hk : kinds[n]? = some .closeBrace) :
    Closes kinds n o := by
  refine closes_iff.mpr ⟨hk, (h.mem_iff o).mp List.mem_cons_self, fun p hp => ?_⟩
  rcases List.mem_cons.mp ((h.mem_iff p).mpr hp) with rfl | hmem
  · exact le_rfl
  · exact le_of_lt ((List.pairwise_cons.mp h.sorted).1 p hmem)

/-- A closing brace takes the top away. -/
theorem pop (h : IsStack kinds n (o :: st)) (hk : kinds[n]? = some .closeBrace) :
    IsStack kinds (n + 1) st := by
  obtain ⟨htop, hst⟩ := List.pairwise_cons.mp h.sorted
  have hclose := h.closes_top hk
  refine ⟨hst, fun p => ?_⟩
  rw [openAt_succ_iff, ← h.mem_iff, List.mem_cons]
  constructor
  · intro hp
    have hpo : p < o := htop p hp
    exact Or.inr ⟨Or.inr hp, fun hnp => by have := hclose.opening_unique hnp; omega⟩
  · rintro (⟨-, hopen⟩ | ⟨rfl | hp, hn⟩)
    · rw [hk] at hopen
      simp at hopen
    · exact absurd hclose hn
    · exact hp

/-- With nothing open, nothing can be closed. -/
theorem not_closes_of_nil (h : IsStack kinds n []) (o : Nat) : ¬ Closes kinds n o :=
  fun hc => List.not_mem_nil ((h.mem_iff o).mpr hc.openAt)

end IsStack

/-- Two lists that are sorted downwards and have the same members are equal. -/
theorem eq_of_sorted_of_mem_iff {xs ys : List Nat} (hxs : xs.Pairwise (· > ·))
    (hys : ys.Pairwise (· > ·)) (h : ∀ a, a ∈ xs ↔ a ∈ ys) : xs = ys := by
  have hperm : xs.Perm ys :=
    (List.perm_ext_iff_of_nodup (hxs.imp fun hab => ne_of_gt hab)
      (hys.imp fun hab => ne_of_gt hab)).mpr h
  exact hperm.eq_of_pairwise (fun a b _ _ hab hba => by omega) hxs hys

/-! ### Braces without a partner -/

/-- A closing brace that closes nothing, or an opening brace that nothing closes. -/
def Unmatched (kinds : List Kind) (i : Nat) : Prop :=
  kinds[i]? = some .closeBrace ∧ (∀ o, ¬ Closes kinds i o) ∨
    kinds[i]? = some .openBrace ∧ ∀ c, ¬ Closes kinds c i

/-- At the end, the open braces are those that nothing closes. -/
theorem openAt_length_iff :
    OpenAt kinds kinds.length o ↔ kinds[o]? = some .openBrace ∧ ∀ c, ¬ Closes kinds c o := by
  constructor
  · rintro ⟨ho, -, hopen⟩
    exact ⟨ho, fun c hc => hopen c hc.lt_length hc⟩
  · rintro ⟨ho, hopen⟩
    exact ⟨ho, (List.getElem?_eq_some_iff.mp ho).1, fun c _ => hopen c⟩

/-- A list that holds every unmatched brace once counts them. -/
theorem ncard_unmatched {xs : List Nat} (hnodup : xs.Nodup)
    (hmem : ∀ i, i ∈ xs ↔ Unmatched kinds i) : {i | Unmatched kinds i}.ncard = xs.length := by
  have hset : {i | Unmatched kinds i} = (xs.toFinset : Set Nat) := by
    ext i
    simp [hmem]
  rw [hset, Set.ncard_coe_finset, List.toFinset_card_of_nodup hnodup]

end PhpStyle.Braces
