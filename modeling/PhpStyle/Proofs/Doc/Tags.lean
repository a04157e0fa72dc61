import PhpStyle.Proofs.Safety.DocBlock

/-!
# Where the tags of a documentation block stand

A validation looks at the occurrences of one tag name at a time, as a list of tags with their
positions. Here the same is said of the positions themselves: which tag stands where
(`DocBlock.TagAt`), where the first one of a name stands (`DocBlock.FirstAt`), that there is one
only (`DocBlock.OnlyOnce`), and that those of one name stand side by side (`DocBlock.Grouped`).

Two facts about the list are enough for most of this: what it holds
(`DocBlock.mem_occurrences_iff`), and that its positions increase (`DocBlock.positions_sorted`). So
its head is the first occurrence (`DocBlock.firstAt_iff`), and two entries are two positions
(`DocBlock.length_occurrences_le_one_iff`).

That tags stand apart is found by counting. The occurrences are numbered from the first position on,
and one that does not have its number is reported. Of increasing numbers, the one with the index `k`
is `k` behind the first one exactly if none in between is missing (`getElem_eq_add_iff_of_sorted`):
by induction along the list, since the second number is the next one after the first, or it is
larger and the next one is missing. `DocBlock.position_eq_iff` is this for the positions of a name,
and `TagPass.scattered_eq_nil_iff` for all its occurrences.
-/

namespace PhpStyle

namespace DocBlock

/-- The tag at position `p` is `tag`, and it has the given name. The first tag has position one. -/
def TagAt (doc : DocBlock) (name : String) (p : Nat) (tag : DocTag) : Prop :=
  (1 ≤ p ∧ doc.tags[p - 1]? = some tag) ∧ tag.name = name

/-- A tag of the given name stands at position `p`. -/
def StandsAt (doc : DocBlock) (name : String) (p : Nat) : Prop := ∃ tag, doc.TagAt name p tag

/-- The first tag of the given name stands at position `p`. -/
def FirstAt (doc : DocBlock) (name : String) (p : Nat) : Prop :=
  doc.StandsAt name p ∧ ∀ q, doc.StandsAt name q → p ≤ q

/-- There is at most one tag of the given name. -/
def OnlyOnce (doc : DocBlock) (name : String) : Prop :=
  ∀ p q, doc.StandsAt name p → doc.StandsAt name q → p = q

/-- No other tag stands between two of the given name. -/
def Grouped (doc : DocBlock) (name : String) : Prop :=
  ∀ p q r, doc.StandsAt name p → doc.StandsAt name r → p ≤ q → q ≤ r → doc.StandsAt name q

/-- Whether there is a tag of the given name. -/
def has (doc : DocBlock) (name : String) : Bool := doc.tags.any (·.name == name)

variable {doc : DocBlock} {name : String} {p first : Nat} {tag : DocTag}
  {others : List (DocTag × Nat)}

/-! ### Occurrences -/

/-- The occurrences of a name are the tags that have it, with their positions. -/
theorem mem_occurrences_iff : (tag, p) ∈ doc.occurrences name ↔ doc.TagAt name p tag := by
  rw [occurrences, List.mem_filter, List.mk_mem_zipIdx_iff_le_and_getElem?_sub, beq_iff_eq, TagAt]

/-- The positions of a name are those where a tag of the name stands. -/
theorem mem_positions_iff : p ∈ doc.positions name ↔ doc.StandsAt name p := by
  rw [positions, List.mem_map]
  constructor
  · rintro ⟨⟨tag, p⟩, hmem, rfl⟩
    exact ⟨tag, mem_occurrences_iff.mp hmem⟩
  · rintro ⟨tag, htag⟩
    exact ⟨(tag, p), mem_occurrences_iff.mpr htag, rfl⟩

/-- Occurrences are listed upwards. -/
theorem positions_sorted (doc : DocBlock) (name : String) :
    (doc.positions name).Pairwise (· < ·) := by
  have hall : (doc.tags.zipIdx 1).Pairwise fun a b => a.2 < b.2 := by
    rw [← List.pairwise_map (R := (· < ·)), List.zipIdx_map_snd]
    exact List.pairwise_lt_range'
  rw [positions, List.pairwise_map]
  exact hall.filter _

/-- A name does not occur if no tag has it. -/
theorem occurrences_eq_nil_iff : doc.occurrences name = [] ↔ doc.has name = false := by
  rw [has, List.any_eq_false, List.eq_nil_iff_forall_not_mem]
  constructor
  · intro h tag htag hname
    obtain ⟨i, hi⟩ := List.mem_iff_getElem?.mp htag
    exact h (tag, i + 1) (mem_occurrences_iff.mpr ⟨⟨by omega, hi⟩, beq_iff_eq.mp hname⟩)
  · rintro h ⟨tag, p⟩ hmem
    obtain ⟨⟨-, hget⟩, hname⟩ := mem_occurrences_iff.mp hmem
    exact h tag (List.mem_of_getElem? hget) (beq_iff_eq.mpr hname)

/-- A name that has a first occurrence is that of a tag. -/
theorem has_of_occurrences (h : doc.occurrences name = (tag, first) :: others) :
    doc.has name = true := by
  by_contra hnot
  rw [Bool.not_eq_true, ← occurrences_eq_nil_iff, h] at hnot
  cases hnot

/-- A name that no tag has stands nowhere. -/
theorem not_standsAt (h : doc.has name = false) : ¬ doc.StandsAt name p := by
  rintro ⟨tag, htag⟩
  have hmem := mem_occurrences_iff.mpr htag
  rw [occurrences_eq_nil_iff.mpr h] at hmem
  cases hmem

/-- The first occurrence is the head of the list. -/
theorem firstAt_iff (h : doc.occurrences name = (tag, first) :: others) :
    doc.FirstAt name p ↔ p = first := by
  have hpositions : doc.positions name = first :: others.map (·.2) := by
    rw [positions, h]
    rfl
  have hfirst : doc.FirstAt name first := by
    refine ⟨mem_positions_iff.mp (by rw [hpositions]; exact List.mem_cons_self), fun q hq => ?_⟩
    have hsorted := doc.positions_sorted name
    rw [← mem_positions_iff, hpositions] at hq
    rw [hpositions, List.pairwise_cons] at hsorted
    rcases List.mem_cons.mp hq with rfl | hq
    · exact le_rfl
    · exact le_of_lt (hsorted.1 q hq)
  constructor
  · intro hp
    exact le_antisymm (hp.2 first hfirst.1) (hfirst.2 p hp.1)
  · rintro rfl
    exact hfirst

/-- There is no second occurrence exactly if there is one at most. -/
theorem length_occurrences_le_one_iff : (doc.occurrences name).length ≤ 1 ↔ doc.OnlyOnce name := by
  have hlength : (doc.occurrences name).length = (doc.positions name).length := by
    rw [positions, List.length_map]
  have hsorted := doc.positions_sorted name
  simp only [hlength, OnlyOnce, ← mem_positions_iff]
  generalize doc.positions name = positions at hsorted ⊢
  rcases positions with _ | ⟨p, _ | ⟨q, rest⟩⟩
  · simp
  · simp
  · -- the first two differ
    have hlt : p < q := (List.pairwise_cons.mp hsorted).1 q List.mem_cons_self
    constructor
    · intro hle
      simp at hle
    · intro honce
      have := honce p q (by simp) (by simp)
      omega

end DocBlock

/-! ### Side by side -/

section Sorted

variable {first k p : Nat} {rest : List Nat}

/-- Increasing numbers grow by one at least. -/
theorem add_le_of_sorted (hsorted : (first :: rest).Pairwise (· < ·))
    (hp : (first :: rest)[k]? = some p) : first + k ≤ p := by
  induction rest generalizing first k with
  | nil =>
      rw [List.getElem?_singleton] at hp
      split at hp
      · next hk =>
          cases hp
          omega
      · cases hp
  | cons next rest ih =>
      obtain ⟨hfirst, htail⟩ := List.pairwise_cons.mp hsorted
      cases k with
      | zero =>
          cases hp
          omega
      | succ k =>
          have hlt := hfirst next List.mem_cons_self
          have hle := ih htail hp
          omega

/-- **Counting finds the gaps.** Of increasing numbers, the one with the index `k` is `k` behind the
first one exactly if no number in between is missing. -/
theorem getElem_eq_add_iff_of_sorted (hsorted : (first :: rest).Pairwise (· < ·))
    (hp : (first :: rest)[k]? = some p) : p = first + k ↔
      ∀ q, first ≤ q → q ≤ p → q ∈ first :: rest := by
  -- along the list, with the index one smaller behind the first number
  induction rest generalizing first k with
  | nil =>
      rw [List.getElem?_singleton] at hp
      split at hp
      · next hk =>
          cases hp
          simp [hk]
          omega
      · cases hp
  | cons next rest ih =>
      obtain ⟨hfirst, htail⟩ := List.pairwise_cons.mp hsorted
      have hlt := hfirst next List.mem_cons_self
      cases k with
      | zero =>
          cases hp
          simp
          omega
      | succ k =>
          have hle := add_le_of_sorted htail hp
          constructor
          · intro heq q hq hqp
            rcases Nat.eq_or_lt_of_le hq with rfl | hq
            · exact List.mem_cons_self
            · -- the second number follows the first one, and the others are those behind it
              have hnext : p = next + k := by omega
              exact List.mem_cons_of_mem _ ((ih htail hp).mp hnext q (by omega) hqp)
          · intro hall
            have hnext : next = first + 1 := by
              have hmem := hall (first + 1) (by omega) (by omega)
              rcases List.mem_cons.mp hmem with heq | hmem
              · omega
              rcases List.mem_cons.mp hmem with heq | hmem
              · exact heq.symm
              · have := (List.pairwise_cons.mp htail).1 _ hmem
                omega
            have hbehind : p = next + k := by
              apply (ih htail hp).mpr
              intro q hq hqp
              apply (List.mem_cons.mp (hall q (by omega) hqp)).resolve_left
              omega
            omega

end Sorted

namespace DocBlock

variable {doc : DocBlock} {name : String} {p first expected : Nat} {tag tag' : DocTag}
  {others : List (DocTag × Nat)}

/-- What is listed at a position stands there. -/
theorem standsAt_of_mem_zipIdx (h : ((tag', p), expected) ∈ (doc.occurrences name).zipIdx first) :
    doc.StandsAt name p := by
  rw [List.mk_mem_zipIdx_iff_le_and_getElem?_sub] at h
  exact ⟨tag', mem_occurrences_iff.mp (List.mem_of_getElem? h.2)⟩

/-- **An occurrence has the position that counting from the first one gives** exactly if there are
only tags of its name between them. -/
theorem position_eq_iff (h : doc.occurrences name = (tag, first) :: others)
    (hmem : ((tag', p), expected) ∈ (doc.occurrences name).zipIdx first) :
    p = expected ↔ ∀ q, first ≤ q → q ≤ p → doc.StandsAt name q := by
  have hpositions : doc.positions name = first :: others.map (·.2) := by
    rw [positions, h]
    rfl
  have hsorted := doc.positions_sorted name
  rw [List.mk_mem_zipIdx_iff_le_and_getElem?_sub] at hmem
  obtain ⟨hle, hget⟩ := hmem
  have hp : (doc.positions name)[expected - first]? = some p := by
    rw [positions, List.getElem?_map, hget]
    rfl
  simp only [← mem_positions_iff]
  rw [hpositions] at hsorted hp ⊢
  rw [← getElem_eq_add_iff_of_sorted hsorted hp]
  omega

end DocBlock

/-- **Occurrences are not found to stand apart** exactly if no other tag stands between them. -/
theorem TagPass.scattered_eq_nil_iff {spec : TagSpec} {doc : DocBlock} {tag : DocTag} {first : Nat}
    {others : List (DocTag × Nat)} (h : doc.occurrences spec.name = (tag, first) :: others) :
    scattered spec first (doc.occurrences spec.name) = [] ↔ doc.Grouped spec.name := by
  have hfirst := (DocBlock.firstAt_iff (p := first) h).mpr rfl
  unfold scattered
  rw [List.filterMap_eq_nil_iff]
  constructor
  · intro hall p q r hp hr hpq hqr
    obtain ⟨tag', htag'⟩ := hr
    obtain ⟨k, hk⟩ := List.mem_iff_getElem?.mp (DocBlock.mem_occurrences_iff.mpr htag')
    have hmem : ((tag', r), first + k) ∈ (doc.occurrences spec.name).zipIdx first := by
      rw [List.mk_mem_zipIdx_iff_le_and_getElem?_sub, Nat.add_sub_cancel_left]
      exact ⟨Nat.le_add_right _ _, hk⟩
    have hr : r = first + k := by simpa using hall _ hmem
    exact (DocBlock.position_eq_iff h hmem).mp hr q ((hfirst.2 p hp).trans hpq) hqr
  · rintro hgrouped ⟨⟨tag', p⟩, expected⟩ hmem
    have hp := DocBlock.standsAt_of_mem_zipIdx hmem
    have hposition : p = expected :=
      (DocBlock.position_eq_iff h hmem).mpr fun q hq hqp => hgrouped first q p hfirst.1 hp hq hqp
    simp [hposition]

end PhpStyle
