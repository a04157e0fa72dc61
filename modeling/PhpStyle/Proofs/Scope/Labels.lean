import PhpStyle.Proofs.Scope.Linking

/-!
# The colons of branch labels

Which colon ends a branch label, said of a list of kinds alone. `Waits kinds n k` says that the
label `k` has no colon yet at `n`, and `EndsLabel kinds k c` that the colon `c` ends it: the colon
stands as deep in parentheses as the label, and the label still waits. Braces and semicolons play no
part, so a label can wait past the end of the scope that it stands in.

The linker keeps the depth and one waiting label with its depth. `Linker.Labelled` says that these
are the depth at `n` and the label that waits there, and that labels so far are linked to the colons
that end them. Each step keeps this (`Linker.Labelled.step`). The waiting label changes only at a
label and at a colon as deep, which is the recursion of `Waits` (`waits_succ_iff`); and a link is
written only where the label still waits, so that no link is written over
(`Linker.Labelled.ended_after`). The induction is that of the linker (`TokenSeq.ofPairs_induction`),
and behind the pass a label is linked to the colon that ends it (`TokenSeq.opener_label_ofPairs`).

`TokenSeq.label_links_ofPairs` says the same without waiting: the colon is the first one behind the
label that stands as deep, and no other label comes in between (`endsLabel_iff_firstColon`).
-/

namespace PhpStyle

/-! ### Depth -/

/-- The number of open parentheses behind a token, where `depth` are open in front of it. -/
def Kind.depthAfter (kind : Kind) (depth : Nat) : Nat :=
  match kind with
  | .openParen => depth + 1
  | .closeParen => depth - 1
  | _ => depth

/-- The number of open parentheses in front of the token `n`. A closing parenthesis without an
opening one does not count. -/
def depthAt (kinds : List Kind) (n : Nat) : Nat :=
  (kinds.take n).foldl (fun depth kind => kind.depthAfter depth) 0

variable {kinds : List Kind} {n k c j : Nat} {kind : Kind} {l : Linker}

/-- The depth behind a token. -/
theorem depthAt_succ (hk : kinds[n]? = some kind) :
    depthAt kinds (n + 1) = kind.depthAfter (depthAt kinds n) := by
  unfold depthAt
  rw [List.take_add_one, hk, Option.toList_some, List.foldl_append]
  rfl

/-! ### Labels that wait -/

/-- The label `k` stands before `n`, and between the two there is neither another label nor a colon
that stands as deep. -/
def Waits (kinds : List Kind) (n k : Nat) : Prop :=
  LabelAt kinds k ∧ k < n ∧ ∀ j, k < j → j < n →
    ¬ LabelAt kinds j ∧ (kinds[j]? = some .colon → depthAt kinds j ≠ depthAt kinds k)

/-- The colon `c` ends the label `k`, which waits for it. -/
def EndsLabel (kinds : List Kind) (k c : Nat) : Prop :=
  Waits kinds c k ∧ kinds[c]? = some .colon ∧ depthAt kinds c = depthAt kinds k

namespace EndsLabel

/-- A label stands before its colon. -/
theorem lt (h : EndsLabel kinds k c) : k < c := h.1.2.1

/-- The colon is in the list. -/
theorem lt_length (h : EndsLabel kinds k c) : c < kinds.length :=
  (List.getElem?_eq_some_iff.mp h.2.1).1

/-- A label that has been ended does not wait. -/
theorem not_waits (h : EndsLabel kinds k c) (hcn : c < n) : ¬ Waits kinds n k := by
  rintro ⟨-, -, hbetween⟩
  exact (hbetween c h.lt hcn).2 h.2.1 h.2.2

/-- No label stands between a label and its colon. -/
theorem le_of_labelAt (h : EndsLabel kinds k c) (hj : LabelAt kinds j) (hkj : k < j) : c < j := by
  rcases Nat.lt_trichotomy c j with hcj | rfl | hjc
  · exact hcj
  · exact absurd h.2.1 (hj.ne rfl)
  · exact absurd hj (h.1.2.2 j hkj hjc).1

/-- **A colon ends one label only.** Of two labels in front of it, the first one does not wait any
more. -/
theorem label_unique {m : Nat} (h : EndsLabel kinds k c) (h' : EndsLabel kinds m c) : k = m := by
  rcases Nat.lt_trichotomy k m with hkm | heq | hmk
  · have hcm := h.le_of_labelAt h'.1.1 hkm
    exact absurd h'.lt hcm.asymm
  · exact heq
  · have hck := h'.le_of_labelAt h.1.1 hmk
    exact absurd h.lt hck.asymm

end EndsLabel

/-- The colon `c` is the first one behind `k` that stands as deep in parentheses as `k`. -/
structure FirstColon (kinds : List Kind) (k c : Nat) : Prop where
  /-- It stands behind `k`. -/
  lt : k < c
  /-- It is a colon. -/
  colon : kinds[c]? = some .colon
  /-- It stands as deep as `k`. -/
  depth_eq : depthAt kinds c = depthAt kinds k
  /-- No colon in between does. -/
  first : ∀ j, k < j → j < c → kinds[j]? = some .colon → depthAt kinds j ≠ depthAt kinds k

/-- The colon that ends a label is the first one behind it that stands as deep, and comes
before the next label. -/
theorem endsLabel_iff_firstColon (hlabel : LabelAt kinds k) :
    EndsLabel kinds k c ↔ FirstColon kinds k c ∧ ∀ j, k < j → j < c → ¬ LabelAt kinds j := by
  constructor
  · rintro ⟨⟨-, hkc, hbetween⟩, hcolon, hdepth⟩
    refine ⟨⟨hkc, hcolon, hdepth, ?_⟩, ?_⟩
    · intro j hkj hjc
      exact (hbetween j hkj hjc).2
    · intro j hkj hjc
      exact (hbetween j hkj hjc).1
  · rintro ⟨hfirst, halone⟩
    refine ⟨⟨hlabel, hfirst.lt, ?_⟩, hfirst.colon, hfirst.depth_eq⟩
    intro j hkj hjc
    exact ⟨halone j hkj hjc, hfirst.first j hkj hjc⟩

/-- The label that waits behind `n` is `n` itself, or the one that waited at `n` and is neither
replaced nor ended there. -/
theorem waits_succ_iff :
    Waits kinds (n + 1) k ↔
      k = n ∧ LabelAt kinds n ∨ Waits kinds n k ∧ ¬ LabelAt kinds n ∧ ¬ EndsLabel kinds k n := by
  constructor
  · rintro ⟨hlabel, hkn, hbetween⟩
    rcases Nat.lt_succ_iff_lt_or_eq.mp hkn with hkn | rfl
    · have hn := hbetween n hkn (by omega)
      refine Or.inr ⟨⟨hlabel, hkn, fun j hkj hjn => hbetween j hkj (by omega)⟩, hn.1, ?_⟩
      rintro ⟨-, hcolon, hdepth⟩
      exact hn.2 hcolon hdepth
    · exact Or.inl ⟨rfl, hlabel⟩
  · rintro (⟨rfl, hlabel⟩ | ⟨⟨hlabel, hkn, hbetween⟩, hnot, hends⟩)
    · exact ⟨hlabel, by omega, fun j hkj hjn => by omega⟩
    · refine ⟨hlabel, by omega, fun j hkj hjn => ?_⟩
      rcases Nat.lt_succ_iff_lt_or_eq.mp hjn with hjn | rfl
      · exact hbetween j hkj hjn
      · exact ⟨hnot, fun hcolon hdepth => hends ⟨⟨hlabel, hkn, hbetween⟩, hcolon, hdepth⟩⟩

/-- At a place without a label or a colon nothing changes. -/
theorem waits_succ_of_ne (hlabel : ¬ LabelAt kinds n) (hcolon : kinds[n]? ≠ some .colon) :
    Waits kinds (n + 1) k ↔ Waits kinds n k := by
  rw [waits_succ_iff]
  constructor
  · rintro (⟨-, hn⟩ | ⟨hwaits, -, -⟩)
    · exact absurd hn hlabel
    · exact hwaits
  · intro hwaits
    exact Or.inr ⟨hwaits, hlabel, fun hends => hcolon hends.2.1⟩

/-! ### The linker -/

namespace Linker

/-- Closing a scope keeps the depth. -/
theorem depth_closeScope (l : Linker) : (l.closeScope n).depth = l.depth := by
  rw [closeScope]
  split
  · rfl
  · simp only [enclose, edit]

/-- Ending a label keeps the depth. -/
theorem depth_endLabel (l : Linker) : (l.endLabel n).depth = l.depth := by
  rw [endLabel]
  split
  · split
    · rfl
    · rfl
  · rfl

/-- Only parentheses change the depth. -/
theorem depth_step : (l.step kind n).depth = kind.depthAfter l.depth := by
  by_cases hclose : kind = .closeBrace
  · subst hclose
    exact (l.enclose n).depth_closeScope
  by_cases hcolon : kind = .colon
  · subst hcolon
    exact (l.enclose n).depth_endLabel
  · cases kind with
    | closeBrace => exact absurd rfl hclose
    | colon => exact absurd rfl hcolon
    | _ => rfl

/-- What holds of labels when the tokens before `n` have been taken in. -/
structure Labelled (kinds : List Kind) (n : Nat) (l : Linker) : Prop where
  /-- The depth is that of `n`. -/
  depth : l.depth = depthAt kinds n
  /-- The waiting label is noted with its depth. -/
  waits : ∀ k depth, l.label = some (k, depth) ↔ Waits kinds n k ∧ depth = depthAt kinds k
  /-- A label is linked to the colon that ends it. -/
  ended : ∀ k, LabelAt kinds k → ∀ c, l.seq.opener k = some c ↔ c < n ∧ EndsLabel kinds k c

/-- Only a colon links a label. -/
theorem Pending.opener_label_step (h : Pending kinds n l) (hk : kinds[n]? = some kind)
    (hlabel : LabelAt kinds k) (hcolon : kind ≠ .colon) :
    (l.step kind n).seq.opener k = l.seq.opener k := by
  -- the braces that a step links are those of keywords, and a keyword is no label
  have hn := h.lt_size hk
  by_cases hopen : kind = .openBrace
  · subst hopen
    have hsize : ∀ k, l.waiting = some k → k < l.seq.size := by
      intro k hwk
      have := (h.waiting k hwk).1
      omega
    rw [opener_step_openBrace hn hsize, if_neg]
    rintro (rfl | hwk)
    · exact hlabel.ne rfl hk
    · exact (h.waiting k hwk).2.1.not_labelAt hlabel
  by_cases hclose : kind = .closeBrace
  · subst hclose
    rcases hl : l.scopes with _ | ⟨scope, outer⟩
    · rw [opener_step_closeBrace_nil hl]
    · have hkn : k ≠ n := by
        rintro rfl
        exact hlabel.ne rfl hk
      rw [opener_step_closeBrace hn hl, if_neg hkn]
  · rw [opener_step_of_ne hopen hclose hcolon]

namespace Labelled

/-- The label that waits is the one noted. -/
theorem label_eq (h : Labelled kinds n l) (hwaits : Waits kinds n k) :
    l.label = some (k, depthAt kinds k) :=
  (h.waits k _).mpr ⟨hwaits, rfl⟩

/-- A colon at `n` ends the label that is noted with the depth of `n`, and no other. -/
theorem endsLabel_iff (h : Labelled kinds n l) (hcolon : kinds[n]? = some .colon) :
    EndsLabel kinds k n ↔ l.label = some (k, l.depth) := by
  rw [h.waits, h.depth]
  constructor
  · rintro ⟨hwaits, -, hdepth⟩
    exact ⟨hwaits, hdepth⟩
  · rintro ⟨hwaits, hdepth⟩
    exact ⟨hwaits, hcolon, hdepth⟩

/-- The waiting label after a step. -/
theorem waits_after (h : Labelled kinds n l) (hk : kinds[n]? = some kind) (k depth : Nat) :
    (l.step kind n).label = some (k, depth) ↔
      Waits kinds (n + 1) k ∧ depth = depthAt kinds k := by
  by_cases hcolon : kind = .colon
  · subst hcolon
    have hnot : ¬ LabelAt kinds n := fun hlabel => hlabel.ne rfl hk
    rw [waits_succ_iff]
    by_cases hl : ∃ label, l.label = some (label, l.depth)
    · -- the colon ends the label, and no other one waits
      obtain ⟨label, hl⟩ := hl
      rw [label_step_colon hl]
      constructor
      · rintro ⟨⟩
      · rintro ⟨⟨-, hlabel⟩ | ⟨hwaits, -, hends⟩, -⟩
        · exact absurd hlabel hnot
        · have heq := h.label_eq hwaits
          rw [hl, Option.some.injEq, Prod.mk.injEq] at heq
          obtain ⟨rfl, -⟩ := heq
          exact absurd ((h.endsLabel_iff hk).mpr hl) hends
    · -- the colon stands deeper or less deep, and changes nothing
      rw [label_step_colon_of_ne (not_exists.mp hl), h.waits]
      constructor
      · rintro ⟨hwaits, hdepth⟩
        refine ⟨Or.inr ⟨hwaits, hnot, fun hends => ?_⟩, hdepth⟩
        exact hl ⟨k, (h.endsLabel_iff hk).mp hends⟩
      · rintro ⟨⟨-, hlabel⟩ | ⟨hwaits, -, -⟩, hdepth⟩
        · exact absurd hlabel hnot
        · exact ⟨hwaits, hdepth⟩
  · have hne : kinds[n]? ≠ some .colon := by simpa [hk] using hcolon
    rw [label_step_of_ne hcolon]
    split
    · next hlabel =>
      -- a label takes the place of the one that waited
      have hat : LabelAt kinds n := ⟨kind, hk, hlabel⟩
      rw [waits_succ_iff, h.depth]
      constructor
      · rintro ⟨⟩
        exact ⟨Or.inl ⟨rfl, hat⟩, rfl⟩
      · rintro ⟨⟨rfl, -⟩ | ⟨-, hnot, -⟩, rfl⟩
        · rfl
        · exact absurd hat hnot
    · next hlabel =>
      have hat : ¬ LabelAt kinds n := fun hat => hat.ne (by simpa using hlabel) hk
      rw [h.waits, waits_succ_of_ne hat hne]

/-- The links of labels after a step. -/
theorem ended_after (h : Labelled kinds n l) (hpending : Pending kinds n l)
    (hk : kinds[n]? = some kind) (hlabel : LabelAt kinds k) (c : Nat) :
    (l.step kind n).seq.opener k = some c ↔ c < n + 1 ∧ EndsLabel kinds k c := by
  have hlast : c < n + 1 ∧ EndsLabel kinds k c ↔
      (c < n ∧ EndsLabel kinds k c) ∨ c = n ∧ EndsLabel kinds k n := by
    constructor
    · rintro ⟨hc, hends⟩
      rcases Nat.lt_succ_iff_lt_or_eq.mp hc with hc | rfl
      · exact Or.inl ⟨hc, hends⟩
      · exact Or.inr ⟨rfl, hends⟩
    · rintro (⟨hc, hends⟩ | ⟨rfl, hends⟩)
      · exact ⟨by omega, hends⟩
      · exact ⟨by omega, hends⟩
  -- so only the link to `n` is in question
  rw [hlast, ← h.ended k hlabel]
  by_cases hcolon : kind = .colon
  · subst hcolon
    by_cases hl : ∃ label, l.label = some (label, l.depth)
    · obtain ⟨label, hl⟩ := hl
      have hends := (h.endsLabel_iff hk).mpr hl
      have hsize := hpending.lt_size hk
      have hlt := hends.lt
      rw [opener_step_colon (by omega) hl]
      split
      · -- a label that still waits had no link
        next heq =>
        subst heq
        have hnone : l.seq.opener k ≠ some c := by
          intro ho
          obtain ⟨hc, hold⟩ := (h.ended k hlabel c).mp ho
          exact hold.not_waits hc hends.1
        rw [Option.some.injEq]
        constructor
        · rintro rfl
          exact Or.inr ⟨rfl, hends⟩
        · rintro (ho | ⟨rfl, -⟩)
          · exact absurd ho hnone
          · rfl
      · next hne =>
        refine (or_iff_left ?_).symm
        rintro ⟨-, hother⟩
        have heq := (h.endsLabel_iff hk).mp hother
        rw [hl, Option.some.injEq, Prod.mk.injEq] at heq
        exact hne heq.1.symm
    · rw [opener_step_colon_of_ne (not_exists.mp hl)]
      refine (or_iff_left ?_).symm
      rintro ⟨-, hends⟩
      exact hl ⟨k, (h.endsLabel_iff hk).mp hends⟩
  · rw [hpending.opener_label_step hk hlabel hcolon]
    refine (or_iff_left ?_).symm
    rintro ⟨-, hends⟩
    have hkind := hends.2.1
    rw [hk, Option.some.injEq] at hkind
    exact hcolon hkind

/-- **Each step keeps the labels right.** -/
theorem step (h : Labelled kinds n l) (hpending : Pending kinds n l) (hk : kinds[n]? = some kind) :
    Labelled kinds (n + 1) (l.step kind n) where
  depth := by rw [depth_step, h.depth, depthAt_succ hk]
  waits := h.waits_after hk
  ended _ hlabel c := h.ended_after hpending hk hlabel c

/-- At the start no label waits. -/
theorem start {tokens : Array Token} (hpending : Pending kinds 0 { tokens }) :
    Labelled kinds 0 { tokens } where
  depth := rfl
  waits k depth := by
    constructor
    · rintro ⟨⟩
    · rintro ⟨⟨-, hk, -⟩, -⟩
      omega
  ended k _ c := by
    rw [(hpending.links.fresh k (Nat.zero_le k)).1]
    constructor
    · rintro ⟨⟩
    · rintro ⟨hc, -⟩
      omega

end Labelled

end Linker

/-! ### Finished sequences -/

namespace TokenSeq

variable (pairs : List (Kind × String))

/-- **A label is linked to the colon that ends it**, wherever that colon is. -/
theorem opener_label_ofPairs (hlabel : LabelAt (pairs.map (·.1)) k) :
    (ofPairs pairs).opener k = some c ↔ EndsLabel (pairs.map (·.1)) k c := by
  have hrun := ofPairs_induction pairs (P := Linker.Labelled (pairs.map (·.1)))
    (fun _ hpending => Linker.Labelled.start hpending) fun _ _ _ hk hpending h => h.step hpending hk
  exact (hrun.ended k hlabel c).trans ⟨And.right, fun hends => ⟨hends.lt_length, hends⟩⟩

/-- **The links of labels.** A case or default label is linked to a colon exactly if that is
the first one behind it that stands as deep in parentheses, and no other label comes in
between; otherwise it is linked to nothing. It is never linked to a closing brace, and no colon
is linked from two labels. Closing parentheses without an opening one do not count, and all
other tokens play no part. -/
theorem label_links_ofPairs (pairs : List (Kind × String)) :
    let s := ofPairs pairs
    let kinds := pairs.map (·.1)
    (∀ l, LabelAt kinds l →
      (∀ c, s.opener l = some c ↔ FirstColon kinds l c ∧ ∀ j, l < j → j < c → ¬ LabelAt kinds j) ∧
      (s.opener l = none ↔ ¬ ∃ c, FirstColon kinds l c ∧ ∀ j, l < j → j < c → ¬ LabelAt kinds j) ∧
      s.closer l = none) ∧
    ∀ l m c, LabelAt kinds l → LabelAt kinds m → s.opener l = some c →
      s.opener m = some c → l = m := by
  intro s kinds
  have hends : ∀ {l c : Nat}, LabelAt kinds l → (s.opener l = some c ↔ EndsLabel kinds l c) :=
    fun hlabel => opener_label_ofPairs pairs hlabel
  refine ⟨fun l hlabel => ⟨?_, ?_, ?_⟩, fun l m c hl hm hlc hmc => ?_⟩
  · intro c
    rw [hends hlabel, endsLabel_iff_firstColon hlabel]
  · simp only [← endsLabel_iff_firstColon hlabel, ← hends hlabel]
    rw [Option.eq_none_iff_forall_ne_some, not_exists]
  · obtain ⟨kind, hkind, -⟩ := id hlabel
    exact ((links_ofPairs pairs).label l (List.getElem?_eq_some_iff.mp hkind).1 hlabel).1
  · exact ((hends hl).mp hlc).label_unique ((hends hm).mp hmc)

end TokenSeq

end PhpStyle
