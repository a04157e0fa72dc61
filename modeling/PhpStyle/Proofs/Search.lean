import PhpStyle.Proofs.Safety.Basic

/-!
# What the searches in a token sequence find

`TokenSeq.FirstOf s p start stop j` says that `j` is the first token in `[start, stop)` of a kind
that satisfies `p`, and `TokenSeq.LastOf s p floor stop j` that it is the last one in `[floor,
stop)`. The searches find these, and nothing exactly if there are none (`next_eq_some_iff`,
`next_eq_none_iff`, `prev_eq_some_iff`, `kindAt_of_prev_eq_none`, `exists_lastOf`).
`TokenSeq.FirstOr` is the first token, or a given index if there is none (`getD_next_eq_iff`,
`forall_firstOr_iff`, `exists_firstOr_iff`).

`Kind.isContent` is the class of what is no whitespace, for which most searches are made
(`nextNot_whitespace`, `prevNot_whitespace`).
-/

namespace PhpStyle

/-- What is no whitespace. -/
def Kind.isContent (kind : Kind) : Bool := kind != .whitespace

namespace TokenSeq

/-- The token `j` is the first one in `[start, stop)` whose kind satisfies `p`. -/
structure FirstOf (s : TokenSeq) (p : Kind → Bool) (start stop j : Nat) : Prop where
  /-- It is not before the range. -/
  start_le : start ≤ j
  /-- It is not behind the range. -/
  lt_stop : j < stop
  /-- It is of such a kind. -/
  holds : s.kindAt p j = true
  /-- No token of the range before it is. -/
  before : ∀ i, start ≤ i → i < j → s.kindAt p i = false

/-- The token `j` is the last one in `[floor, stop)` whose kind satisfies `p`. -/
structure LastOf (s : TokenSeq) (p : Kind → Bool) (floor stop j : Nat) : Prop where
  /-- It is not before the range. -/
  floor_le : floor ≤ j
  /-- It is not behind the range. -/
  lt_stop : j < stop
  /-- It is of such a kind. -/
  holds : s.kindAt p j = true
  /-- No token of the range behind it is. -/
  behind : ∀ i, j < i → i < stop → s.kindAt p i = false

/-- The index `j` is that of the first token in `[start, stop)` whose kind satisfies `p`, or
`other` if there is none. -/
def FirstOr (s : TokenSeq) (p : Kind → Bool) (start stop other j : Nat) : Prop :=
  s.FirstOf p start stop j ∨ (∀ i, start ≤ i → i < stop → s.kindAt p i = false) ∧ j = other

variable {s : TokenSeq} {p : Kind → Bool} {start stop floor other i j : Nat}

/-- Past the end there is no token of any kind. -/
theorem lt_size_of_kindAt (h : s.kindAt p i = true) : i < s.size := by
  unfold kindAt at h
  rcases ht : s.get? i with _ | t
  · rw [ht] at h
    cases h
  · exact lt_size_of_get? ht

/-- The kind of a token that is there. -/
theorem kindAt_of_get? {t : Token} (ht : s.get? i = some t) : s.kindAt p i = p t.kind := by
  rw [kindAt, ht]
  rfl

/-- A kind that is known decides all tests. -/
theorem kindAt_of_beq {kind : Kind} (h : s.kindAt (· == kind) j = true) :
    s.kindAt p j = p kind := by
  unfold kindAt at h ⊢
  rcases ht : s.get? j with _ | t
  · rw [ht] at h
    cases h
  · rw [ht, Option.any_some, beq_iff_eq] at h
    rw [Option.any_some, h]

/-! ### Forwards -/

/-- A search forwards finds the first token of such a kind. -/
theorem next_eq_some_iff : s.next p start (some stop) = some j ↔ s.FirstOf p start stop j := by
  unfold next ahead
  rw [List.find?_range'_eq_some, List.mem_range'_1, Option.getD_some]
  constructor
  · rintro ⟨hp, ⟨hstart, hstop⟩, hbefore⟩
    exact ⟨hstart, by omega, hp, fun i hi hij => by simpa using hbefore i hi hij⟩
  · intro h
    have hsize := lt_size_of_kindAt h.holds
    have hstart := h.start_le
    have hstop := h.lt_stop
    exact ⟨h.holds, ⟨hstart, by omega⟩, fun i hi hij => by simpa using h.before i hi hij⟩

/-- Without a stop the search ends with the sequence. -/
theorem next_none_eq_some_iff : s.next p start none = some j ↔ s.FirstOf p start s.size j :=
  next_eq_some_iff

/-- A search forwards finds nothing exactly if there is no token of such a kind. -/
theorem next_eq_none_iff :
    s.next p start (some stop) = none ↔ ∀ i, start ≤ i → i < stop → s.kindAt p i = false := by
  unfold next ahead
  rw [List.find?_range'_eq_none, Option.getD_some]
  constructor
  · intro h i hstart hstop
    by_contra hp
    rw [Bool.not_eq_false] at hp
    have hsize := lt_size_of_kindAt hp
    have := h i hstart (by omega)
    simp [hp] at this
  · intro h i hstart hstop
    simpa using h i hstart (by omega)

/-- A search with a default. -/
theorem getD_next_eq_iff :
    (s.next p start (some stop)).getD other = j ↔ s.FirstOr p start stop other j := by
  unfold FirstOr
  rw [← next_eq_some_iff, ← next_eq_none_iff]
  cases s.next p start (some stop) with
  | none => simp [eq_comm]
  | some i => simp

/-- There is always a first token or the default. -/
theorem firstOr_getD_next (s : TokenSeq) (p : Kind → Bool) (start stop other : Nat) :
    s.FirstOr p start stop other ((s.next p start (some stop)).getD other) :=
  getD_next_eq_iff.mp rfl

/-- There is one such index. -/
theorem FirstOr.unique (h : s.FirstOr p start stop other i) (h' : s.FirstOr p start stop other j) :
    i = j := by
  rw [← getD_next_eq_iff] at h h'
  rw [← h, ← h']

/-- What holds of the first token or the default, whichever it is, holds of what a search gives. -/
theorem forall_firstOr_iff {P : Nat → Prop} : (∀ j, s.FirstOr p start stop other j → P j) ↔
    P ((s.next p start (some stop)).getD other) := by
  simp only [← getD_next_eq_iff, forall_eq']

/-- What holds of some first token or default holds of what a search gives. -/
theorem exists_firstOr_iff {P : Nat → Prop} : (∃ j, s.FirstOr p start stop other j ∧ P j) ↔
    P ((s.next p start (some stop)).getD other) := by
  simp only [← getD_next_eq_iff, exists_eq_left']

/-- A search forwards finds something exactly if there is a token of such a kind. -/
theorem isSome_next_iff : (s.next p start (some stop)).isSome = true ↔
    ∃ i, start ≤ i ∧ i < stop ∧ s.kindAt p i = true := by
  rcases hnext : s.next p start (some stop) with _ | j
  · rw [next_eq_none_iff] at hnext
    constructor
    · rintro ⟨⟩
    · rintro ⟨i, hstart, hstop, hp⟩
      rw [hnext i hstart hstop] at hp
      cases hp
  · have hj := next_eq_some_iff.mp hnext
    exact ⟨fun _ => ⟨j, hj.start_le, hj.lt_stop, hj.holds⟩, fun _ => rfl⟩

/-- A search for one kind. -/
theorem nextOf_singleton {kind : Kind} {stop? : Option Nat} :
    s.nextOf [kind] start stop? = s.next (· == kind) start stop? := by
  unfold nextOf
  congr
  funext k
  rw [List.contains_cons, List.contains_nil, Bool.or_false]

/-- The class of what is no whitespace. -/
theorem not_contains_whitespace :
    (fun kind => !([.whitespace] : List Kind).contains kind) = Kind.isContent := by
  funext kind
  rw [List.contains_cons, List.contains_nil, Bool.or_false, Kind.isContent, bne]

/-- A search for what is no whitespace. -/
theorem nextNot_whitespace {stop? : Option Nat} :
    s.nextNot [.whitespace] start stop? = s.next Kind.isContent start stop? := by
  rw [nextNot, not_contains_whitespace]

/-! ### Backwards -/

/-- There is one last token of such a kind, wherever the range starts. -/
theorem LastOf.unique {floor' : Nat} (h : s.LastOf p floor stop i) (h' : s.LastOf p floor' stop j) :
    i = j := by
  rcases Nat.lt_trichotomy i j with hij | hij | hji
  · have := h.behind j hij h'.lt_stop
    rw [h'.holds] at this
    cases this
  · exact hij
  · have := h'.behind i hji h.lt_stop
    rw [h.holds] at this
    cases this

/-- What holds of some last token holds of the one that is known. -/
theorem LastOf.exists_and_iff {P : Nat → Prop} (h : s.LastOf p floor stop i) :
    (∃ j, s.LastOf p floor stop j ∧ P j) ↔ P i := by
  constructor
  · rintro ⟨j, hj, hP⟩
    rwa [h.unique hj]
  · intro hP
    exact ⟨i, h, hP⟩

/-- A search backwards looks at its indices downwards. -/
theorem behind_sorted (s : TokenSeq) (start floor : Nat) :
    (s.behind start floor).Pairwise (· > ·) := by
  unfold behind
  split
  · exact List.Pairwise.nil
  · exact List.pairwise_reverse.mpr List.pairwise_lt_range'

/-- A search backwards comes to every token of its range. -/
theorem mem_behind_of_lt_size (hfloor : floor ≤ j) (hstart : j ≤ start) (hsize : j < s.size) :
    j ∈ s.behind start floor := by
  unfold behind
  rw [if_neg, List.mem_reverse, List.mem_range'_1]
  · omega
  · rw [isEmpty, Array.isEmpty_iff_size_eq_zero]
    exact Nat.ne_of_gt (Nat.zero_lt_of_lt hsize)

/-- A search backwards finds nothing only if there is no token of such a kind. -/
theorem kindAt_of_prev_eq_none (h : s.prev p start floor = none) (hfloor : floor ≤ j)
    (hstart : j ≤ start) : s.kindAt p j = false := by
  by_contra hp
  rw [Bool.not_eq_false] at hp
  have hmem := mem_behind_of_lt_size hfloor hstart (lt_size_of_kindAt hp)
  exact List.find?_eq_none.mp h j hmem hp

/-- A search backwards finds the last token of such a kind. -/
theorem prev_eq_some_iff : s.prev p start floor = some j ↔ s.LastOf p floor (start + 1) j := by
  have hlast : ∀ k, s.prev p start floor = some k → s.LastOf p floor (start + 1) k := by
    intro k hk
    obtain ⟨hfloor, hks, -, hp⟩ := prev_eq_some hk
    refine ⟨hfloor, by omega, hp, fun i hki his => ?_⟩
    by_contra hpi
    rw [Bool.not_eq_false] at hpi
    -- the search comes to `i` before it comes to `k`
    obtain ⟨-, front, rest, hlist, hfront⟩ := List.find?_eq_some_iff_append.mp hk
    have hfloor' : floor ≤ i := by omega
    have hmem := mem_behind_of_lt_size hfloor' (Nat.le_of_lt_succ his) (lt_size_of_kindAt hpi)
    have hsorted := s.behind_sorted start floor
    rw [hlist] at hmem hsorted
    rcases List.mem_append.mp hmem with hmem | hmem
    · have := hfront i hmem
      rw [hpi] at this
      cases this
    · have hle : i ≤ k := by
        rcases List.mem_cons.mp hmem with rfl | hmem
        · exact le_rfl
        · exact le_of_lt ((List.pairwise_cons.mp (List.pairwise_append.mp hsorted).2.1).1 i hmem)
      omega
  constructor
  · exact hlast j
  · intro h
    rcases hprev : s.prev p start floor with _ | k
    · have := kindAt_of_prev_eq_none hprev h.floor_le (Nat.le_of_lt_succ h.lt_stop)
      rw [h.holds] at this
      cases this
    · rw [(hlast k hprev).unique h]

/-- A token of another kind makes no difference at the end of a range. -/
theorem lastOf_succ_iff (h : s.kindAt p stop = false) :
    s.LastOf p floor (stop + 1) j ↔ s.LastOf p floor stop j := by
  constructor
  · intro hj
    have hne : j ≠ stop := by
      rintro rfl
      rw [hj.holds] at h
      cases h
    have hlt := hj.lt_stop
    exact ⟨hj.floor_le, by omega, hj.holds, fun i hji hi => hj.behind i hji (by omega)⟩
  · intro hj
    refine ⟨hj.floor_le, Nat.lt_succ_of_lt hj.lt_stop, hj.holds, fun i hji hi => ?_⟩
    rcases Nat.eq_or_lt_of_le (Nat.le_of_lt_succ hi) with rfl | hi
    · exact h
    · exact hj.behind i hji hi

/-- There is a last token of such a kind in front of `stop` if there is one at all. -/
theorem exists_lastOf (h : s.kindAt p i = true) (hi : i < stop) : ∃ j, s.LastOf p 0 stop j := by
  have hsucc : stop - 1 + 1 = stop := by omega
  rcases hprev : s.prev p (stop - 1) 0 with _ | j
  · rw [kindAt_of_prev_eq_none hprev (Nat.zero_le i) (by omega)] at h
    cases h
  · exact ⟨j, hsucc ▸ prev_eq_some_iff.mp hprev⟩

/-- A search backwards for what is no whitespace. -/
theorem prevNot_whitespace :
    s.prevNot [.whitespace] start floor = s.prev Kind.isContent start floor := by
  rw [prevNot, not_contains_whitespace]

end TokenSeq

end PhpStyle
