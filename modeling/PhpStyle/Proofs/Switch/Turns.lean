import Mathlib.Order.WellFounded
import PhpStyle.Proofs.Safety.Switch
import PhpStyle.Proofs.Switch.Labels

/-!
# The search for labels moves forward

The search for the labels of a switch is a loop whose index is set from a link: at a switch inside
it goes on behind the token that the inner switch is linked to as its end. That the loop ends is
therefore a matter of the links. In every finished sequence a switch has its brace behind the
keyword and its end behind the brace, also where braces are missing, and where the brace of the
inner switch opens behind the end of the outer one. The result is `Switch.turns_ofKeyword`.

The definition of the search stops by itself if a link leads backwards, so it cannot show that none
does. For this reason the turns are taken out of it. `Switch.Turn` is one turn, wherever the link
leads, and `Switch.Visits` is turn after turn, with the tokens that are looked at.

* A turn moves forward (`Switch.Turn.lt`), because the end of a switch is linked to behind its
  keyword. By induction no token is looked at twice (`Switch.Visits.sorted`).
* As turns are taken in front of `stop` only, what is left becomes smaller, and there is no endless
  sequence of them (`Switch.wellFounded_turn`). Induction along the turns gives the place where they
  come to an end (`Switch.exists_visits`): `stop`, or a switch without an end.
* The search takes these turns (`Switch.labelsFrom_of_turn`, `Switch.labelsFrom_of_visits`). This is
  where it is used that they move forward, and it shows that the search is never stopped otherwise.

How far a jump leads is seen from the braces: two scopes do not cross
(`Switch.closer_lt_closer_iff`).
-/

namespace PhpStyle

variable {tokens : TokenSeq} {kinds : List Kind} {keyword opener closer stop i j k : Nat}
  {visited : List Nat}

instance (s : TokenSeq) (keyword l : Nat) : Decidable (s.IsLabelOf keyword l) :=
  inferInstanceAs (Decidable (_ ∧ _))

namespace Switch

/-! ### Turns -/

/-- One turn of the search at the token `i`, which stands in front of `stop`. From a switch the
search goes on behind its end, wherever that stands, and from another token to the next one. -/
inductive Turn (tokens : TokenSeq) (stop i : Nat) : Nat → Prop
  /-- A switch is jumped over. -/
  | jump {c : Nat} (hi : i < stop) (hkind : tokens.kindAt (· == .kwSwitch) i = true)
      (hc : tokens.closer i = some c) : Turn tokens stop i (c + 1)
  /-- Another token is passed. -/
  | pass (hi : i < stop) (hkind : tokens.kindAt (· != .kwSwitch) i = true) :
      Turn tokens stop i (i + 1)

/-- Turn after turn, the search that starts at the first index looks at the tokens `visited` and
comes to the last index. -/
inductive Visits (tokens : TokenSeq) (stop : Nat) : Nat → List Nat → Nat → Prop
  /-- No turn is taken. -/
  | here (i : Nat) : Visits tokens stop i [] i
  /-- A turn is taken, and others follow. -/
  | turn {i j k : Nat} {visited : List Nat} (h : Turn tokens stop i j)
      (rest : Visits tokens stop j visited k) : Visits tokens stop i (i :: visited) k

/-- The token `i` is a switch without an end, at which there is no turn. -/
def Unclosed (tokens : TokenSeq) (i : Nat) : Prop :=
  tokens.kindAt (· == .kwSwitch) i = true ∧ tokens.closer i = none

namespace Turn

/-- A turn is taken in front of `stop`. -/
theorem lt_stop (h : Turn tokens stop i j) : i < stop := by
  cases h with
  | jump hi => exact hi
  | pass hi => exact hi

/-- **Each turn moves forward.** -/
theorem lt (hlinks : Links kinds kinds.length tokens) (h : Turn tokens stop i j) : i < j := by
  cases h with
  | jump _ hkind hc =>
      -- keyword, brace and end stand in this order
      obtain ⟨o, -, hio, hoc⟩ := hlinks.opener_between (keywordAt_of_switch hlinks hkind) hc
      omega
  | pass => omega

end Turn

/-- **There is no endless sequence of turns.** -/
theorem wellFounded_turn (hlinks : Links kinds kinds.length tokens) (stop : Nat) :
    WellFounded fun j i => Turn tokens stop i j := by
  refine Subrelation.wf (fun {j i} h => ?_) (measure fun i => stop - i).wf
  have hlt := h.lt hlinks
  have hstop := h.lt_stop
  show stop - j < stop - i
  omega

namespace Visits

/-- **No token is looked at twice**: the tokens are looked at upwards, from the first index to the
last one and in front of `stop`. -/
theorem sorted (hlinks : Links kinds kinds.length tokens) (h : Visits tokens stop i visited k) :
    visited.Pairwise (· < ·) ∧ i ≤ k ∧ ∀ l ∈ visited, i ≤ l ∧ l < k ∧ l < stop := by
  induction h with
  | here => exact ⟨List.Pairwise.nil, le_rfl, by simp⟩
  | turn hturn rest ih =>
      obtain ⟨hsorted, hle, hmem⟩ := ih
      have hlt := hturn.lt hlinks
      have hstop := hturn.lt_stop
      refine ⟨List.pairwise_cons.mpr ⟨fun l hl => ?_, hsorted⟩, by omega,
        List.forall_mem_cons.mpr ⟨⟨le_rfl, by omega, hstop⟩, fun l hl => ?_⟩⟩
      · have := (hmem l hl).1
        omega
      · obtain ⟨hjl, hrest⟩ := hmem l hl
        exact ⟨by omega, hrest⟩

/-- There are no more turns than tokens in front of `stop`. -/
theorem length_le (hlinks : Links kinds kinds.length tokens) (h : Visits tokens stop i visited k) :
    visited.length ≤ stop - i := by
  induction h with
  | here => exact Nat.zero_le _
  | turn hturn rest ih =>
      have hlt := hturn.lt hlinks
      have hstop := hturn.lt_stop
      rw [List.length_cons]
      omega

end Visits

/-- At a token in front of `stop` there is a turn, unless it is a switch without an end. -/
theorem exists_turn_or_unclosed (hstop : stop ≤ tokens.size) (hi : i < stop) :
    (∃ j, Turn tokens stop i j) ∨ Unclosed tokens i := by
  obtain ⟨t, ht⟩ := TokenSeq.exists_get? (Nat.lt_of_lt_of_le hi hstop)
  by_cases hswitch : t.kind = .kwSwitch
  · have hkind : tokens.kindAt (· == .kwSwitch) i = true := by
      rw [TokenSeq.kindAt_of_get? ht, hswitch]
      rfl
    rcases hc : tokens.closer i with _ | c
    · exact Or.inr ⟨hkind, hc⟩
    · exact Or.inl ⟨c + 1, Turn.jump hi hkind hc⟩
  · refine Or.inl ⟨i + 1, Turn.pass hi ?_⟩
    rw [TokenSeq.kindAt_of_get? ht]
    exact bne_iff_ne.mpr hswitch

/-- **Where the turns end**: at `stop` or behind it, or at a switch without an end. -/
theorem exists_visits (hlinks : Links kinds kinds.length tokens) (hstop : stop ≤ tokens.size)
    (i : Nat) :
    ∃ visited k, Visits tokens stop i visited k ∧ (stop ≤ k ∨ k < stop ∧ Unclosed tokens k) := by
  induction i using (wellFounded_turn hlinks stop).induction with
  | _ i ih =>
      -- a turn and what is known behind it, or no turn at all
      by_cases hi : i < stop
      · rcases exists_turn_or_unclosed hstop hi with ⟨j, hturn⟩ | hunclosed
        · obtain ⟨visited, k, hvisits, hend⟩ := ih j hturn
          exact ⟨i :: visited, k, Visits.turn hturn hvisits, hend⟩
        · exact ⟨[], i, Visits.here i, Or.inr ⟨hi, hunclosed⟩⟩
      · exact ⟨[], i, Visits.here i, Or.inl (by omega)⟩

/-! ### The search takes these turns -/

/-- The labels of `keyword` among the tokens `visited` are put in front of what else is found. -/
def gather (tokens : TokenSeq) (keyword : Nat) (visited : List Nat)
    (found : Checked (Except SwitchError (List Nat))) : Checked (Except SwitchError (List Nat)) :=
  found.map (Except.map (visited.filter (tokens.IsLabelOf keyword ·) ++ ·))

section Gather

variable (found : Checked (Except SwitchError (List Nat)))

/-- Without tokens nothing is put in front. -/
theorem gather_nil : gather tokens keyword [] found = found := by
  rcases found with e | e | labels <;> rfl

/-- Tokens are put in front one after the other. -/
theorem gather_append (front back : List Nat) :
    gather tokens keyword (front ++ back) found =
      gather tokens keyword front (gather tokens keyword back found) := by
  rcases found with e | e | labels
  · rfl
  · rfl
  · simp [gather, Except.map]

/-- A label is put in front. -/
theorem gather_of_isLabelOf (h : tokens.IsLabelOf keyword i) :
    gather tokens keyword [i] found = found.map (Except.map (i :: ·)) := by
  rw [gather, List.filter_cons_of_pos (by simpa using h)]
  rfl

/-- Another token is not. -/
theorem gather_of_not_isLabelOf (h : ¬ tokens.IsLabelOf keyword i) :
    gather tokens keyword [i] found = found := by
  rw [gather, List.filter_cons_of_neg (by simpa using h)]
  exact gather_nil found

end Gather

/-- At `stop` or behind it the search is done. -/
theorem labelsFrom_of_le (h : stop ≤ i) : labelsFrom tokens keyword stop i = .ok (.ok []) := by
  rw [labelsFrom, if_neg (by omega)]

/-- At a switch without an end the search is given up. -/
theorem labelsFrom_of_unclosed (hi : i < stop) (h : Unclosed tokens i) :
    labelsFrom tokens keyword stop i = .ok (.error .unclosedNested) := by
  obtain ⟨hkind, hc⟩ := h
  obtain ⟨t, ht⟩ := TokenSeq.exists_get? (TokenSeq.lt_size_of_kindAt hkind)
  rw [TokenSeq.kindAt_of_get? ht, beq_iff_eq] at hkind
  rw [TokenSeq.closer, ht, Option.bind_some] at hc
  rw [labelsFrom, if_pos hi]
  simp only [ht, if_pos hkind, hc]

/-- **The search takes a turn that moves forward**, and notes the token if it is a
label of the keyword. -/
theorem labelsFrom_of_turn (h : Turn tokens stop i j) (hlt : i < j) :
    labelsFrom tokens keyword stop i =
      gather tokens keyword [i] (labelsFrom tokens keyword stop j) := by
  cases h with
  | jump hi hkind hc =>
      obtain ⟨t, ht⟩ := TokenSeq.exists_get? (TokenSeq.lt_size_of_kindAt hkind)
      rw [TokenSeq.kindAt_of_get? ht, beq_iff_eq] at hkind
      rw [TokenSeq.closer, ht, Option.bind_some] at hc
      -- a switch is no label
      have hlabel : ¬ tokens.IsLabelOf keyword i := by
        rw [TokenSeq.isLabelOf_iff ht, hkind]
        simp [Kind.isLabel]
      rw [gather_of_not_isLabelOf _ hlabel, labelsFrom, if_pos hi]
      -- the search looks whether the link leads forward, and it does
      simp only [ht, if_pos hkind, hc, if_pos (Nat.lt_succ_iff.mp hlt)]
  | pass hi hkind =>
      obtain ⟨t, ht⟩ := TokenSeq.exists_get? (TokenSeq.lt_size_of_kindAt hkind)
      rw [TokenSeq.kindAt_of_get? ht, bne_iff_ne] at hkind
      by_cases hlabel : tokens.IsLabelOf keyword i
      · rw [gather_of_isLabelOf _ hlabel, labelsFrom, if_pos hi]
        simp only [ht, if_neg hkind, if_pos ((TokenSeq.isLabelOf_iff ht).mp hlabel)]
      · rw [gather_of_not_isLabelOf _ hlabel, labelsFrom, if_pos hi]
        simp only [ht, if_neg hkind, if_neg ((TokenSeq.isLabelOf_iff ht).not.mp hlabel)]

/-- **The search takes turn after turn.** -/
theorem labelsFrom_of_visits (hlinks : Links kinds kinds.length tokens)
    (h : Visits tokens stop i visited k) :
    labelsFrom tokens keyword stop i =
      gather tokens keyword visited (labelsFrom tokens keyword stop k) := by
  induction h with
  | here => rw [gather_nil]
  | turn hturn rest ih =>
      rw [labelsFrom_of_turn hturn (hturn.lt hlinks), ih, ← gather_append]
      rfl

/-! ### Taking a switch apart -/

/-- Of two scopes of which the first opens in front of the second, the second ends behind the first
exactly if it opens behind it: they do not cross. -/
theorem closer_lt_closer_iff {o c : Nat} (hlinks : Links kinds kinds.length tokens)
    (hopener : tokens.opener keyword = some opener) (hcloser : tokens.closer keyword = some closer)
    (ho : tokens.opener i = some o) (hc : tokens.closer i = some c) (hlt : opener < o) :
    closer < c ↔ closer < o := by
  have houter := hlinks.closes_of_links hopener hcloser
  have hinner := hlinks.closes_of_links ho hc
  have hoc := hinner.lt
  rcases houter.nested_or_disjoint hinner with h | h | h | h | h <;> omega

/-- Taking a switch apart has a result, for every index. -/
theorem exists_ofKeyword (hlinks : Links kinds kinds.length tokens) (keyword : Nat)
    (marker : String) : ∃ found, ofKeyword tokens keyword marker = .ok found := by
  by_cases hkeyword : keyword < tokens.size
  · have hends : Ends True (ofKeyword tokens keyword marker) _ := ends_ofKeyword hlinks hkeyword
    obtain ⟨found, hfound, -⟩ := hends.exists_of_fits trivial
    exact ⟨found, hfound⟩
  · -- past the end there is no link
    have hnone : tokens.opener keyword = none :=
      (hlinks.fresh keyword (by rw [← hlinks.size_eq]; omega)).1
    refine ⟨.error .missingOpener, ?_⟩
    rw [ofKeyword, hnone]
    rfl

/-- **The search for the labels of a switch comes to an end**, in every finished sequence, for every
index and every marker. A switch that has an end has it behind its opening brace, which stands
behind the keyword. So each turn of the search moves forward, wherever it starts and stops, and
there is no endless sequence of turns. From the opening brace of a switch the turns lead upwards
through tokens in front of its closing brace. None of them is looked at twice, and the labels found
are those among them. The search ends at the closing brace or behind it, or at a switch inside that
has no end. A switch inside may end behind the outer one, and does so exactly if its brace opens
there. Taking the switch apart always has a result. -/
theorem turns_ofKeyword (pairs : List (Kind × String)) (keyword : Nat) (marker : String) :
    let s := TokenSeq.ofPairs pairs
    (∀ i c, s.kindAt (· == .kwSwitch) i = true → s.closer i = some c →
      ∃ o, s.opener i = some o ∧ i < o ∧ o < c) ∧
    (∀ stop i j, Turn s stop i j → i < j) ∧
    (∀ stop, WellFounded fun j i => Turn s stop i j) ∧
    (∀ opener closer, s.opener keyword = some opener → s.closer keyword = some closer →
      (∃ visited last, Visits s closer (opener + 1) visited last ∧
        visited.Pairwise (· < ·) ∧ (∀ i ∈ visited, opener < i ∧ i < closer ∧ i < last) ∧
        visited.length ≤ closer - (opener + 1) ∧
        (closer ≤ last ∧
            labelsFrom s keyword closer (opener + 1) =
              .ok (.ok (visited.filter (s.IsLabelOf keyword ·))) ∨
          last < closer ∧ Unclosed s last ∧
            labelsFrom s keyword closer (opener + 1) = .ok (.error .unclosedNested))) ∧
      ∀ i o c, opener < i → s.kindAt (· == .kwSwitch) i = true → s.opener i = some o →
        s.closer i = some c → (closer < c ↔ closer < o)) ∧
    ∃ found, ofKeyword s keyword marker = .ok found := by
  intro s
  have hlinks : Links (pairs.map (·.1)) (pairs.map (·.1)).length s := TokenSeq.links_ofPairs pairs
  have hbetween : ∀ i c, s.kindAt (· == .kwSwitch) i = true → s.closer i = some c →
      ∃ o, s.opener i = some o ∧ i < o ∧ o < c := by
    intro i c hkind hc
    exact hlinks.opener_between (keywordAt_of_switch hlinks hkind) hc
  refine ⟨hbetween, fun stop i j h => h.lt hlinks, wellFounded_turn hlinks, ?_,
    exists_ofKeyword hlinks keyword marker⟩
  intro opener closer hopener hcloser
  refine ⟨?_, ?_⟩
  · have hsize : closer < s.size := by
      rw [hlinks.size_eq]
      exact (hlinks.closes_of_links hopener hcloser).lt_length
    -- the turns between the braces, and what the search does with them
    obtain ⟨visited, last, hvisits, hend⟩ := exists_visits hlinks hsize.le (opener + 1)
    obtain ⟨hsorted, -, hmem⟩ := hvisits.sorted hlinks
    refine ⟨visited, last, hvisits, hsorted, ?_, hvisits.length_le hlinks, ?_⟩
    · intro i hi
      obtain ⟨hopen, hlast, hclose⟩ := hmem i hi
      exact ⟨hopen, hclose, hlast⟩
    · rw [labelsFrom_of_visits hlinks hvisits]
      rcases hend with hle | ⟨hlt, hunclosed⟩
      · exact Or.inl ⟨hle, by rw [labelsFrom_of_le hle]; simp [gather, Except.map]⟩
      · exact Or.inr ⟨hlt, hunclosed, by rw [labelsFrom_of_unclosed hlt hunclosed]; rfl⟩
  · intro i o c hi hkind ho hc
    -- the inner brace opens behind the outer one, because the inner keyword stands between them
    obtain ⟨o', ho', hio, -⟩ := hbetween i c hkind hc
    have hoo : o' = o := Option.some.inj (ho'.symm.trans ho)
    exact closer_lt_closer_iff hlinks hopener hcloser ho hc (by omega)

/-- A switch inside a switch, with both of its braces behind the end of the outer one. -/
def strayBraces : List (Kind × String) :=
  [(.kwSwitch, "switch"), (.openBrace, "\x7b"), (.kwSwitch, "switch"), (.closeBrace, "\x7d"),
    (.openBrace, "\x7b"), (.closeBrace, "\x7d")]

/-- The search in the outer switch jumps from the inner one to behind the end of both. -/
theorem turns_ofKeyword_strayBraces :
    (TokenSeq.ofPairs strayBraces).opener 0 = some 1 ∧
      (TokenSeq.ofPairs strayBraces).closer 0 = some 3 ∧
    Turn (TokenSeq.ofPairs strayBraces) 3 2 6 ∧ 2 < 6 ∧
    ∃ visited last, Visits (TokenSeq.ofPairs strayBraces) 3 2 visited last ∧
      visited.Pairwise (· < ·) := by
  have hopener : (TokenSeq.ofPairs strayBraces).opener 0 = some 1 := by decide +kernel
  have hcloser : (TokenSeq.ofPairs strayBraces).closer 0 = some 3 := by decide +kernel
  have hturn : Turn (TokenSeq.ofPairs strayBraces) 3 2 6 :=
    Turn.jump (by decide) (by decide +kernel) (by decide +kernel)
  obtain ⟨-, hlt, -, hscan, -⟩ := turns_ofKeyword strayBraces 0 ""
  obtain ⟨⟨visited, last, hvisits, hsorted, -⟩, -⟩ := hscan 1 3 hopener hcloser
  exact ⟨hopener, hcloser, hturn, hlt 3 2 6 hturn, visited, last, hvisits, hsorted⟩

end Switch

end PhpStyle
