import PhpStyle.Proofs.Safety.Switch
import PhpStyle.Proofs.Scope.Labels
import PhpStyle.Proofs.Switch.Labels

/-!
# The colons of a switch

A branch starts at the colon of its label. Labels are linked to colons without regard to braces, so
the colon of the last label of a switch can be one behind the closing brace, if no other label and
no colon as deep comes before it. This is the only way in which a colon can lie outside its branch
(`Switch.colons_ofKeyword`), and it does happen (`Switch.colon_behind_brace`): there a switch whose
only label has no colon is taken apart all the same, and the rule looks at a body that ends before
it starts.

The first half is about switches that were taken apart. The colon of a branch is the one that ends
its label (`Switch.Parts.endsLabel`), and no label stands between a label and the colon that ends
it. So the colon stands in front of the next label, if there is one, and in front of the closing
brace otherwise by assumption (`Switch.Parts.colon_lt_bodyEnd`).

The second half is about those that were not. Taking a switch apart always has a result, which is a
switch or an error. It cannot be a switch, because a label that no colon ends would be one of its
labels, and these have colons. Which errors there are is read off the two searches, each by
induction (`Switch.labelsFrom_eq_error`, `Switch.branchesOf_eq_error`): a switch inside that is not
closed, or a label without a colon. Nothing is said about which label the error names.
-/

namespace PhpStyle.Switch

variable {tokens : TokenSeq} {keyword closer stop i : Nat} {labels : List Nat} {marker : String}
  {switch : Switch} {e : SwitchError}

/-! ### Colons and branches -/

namespace Parts

variable {pairs : List (Kind × String)} {b : Branch}

/-- The colon of a branch ends its label. -/
theorem endsLabel (h : Parts (TokenSeq.ofPairs pairs) keyword switch) (hb : b ∈ switch.branches) :
    EndsLabel (pairs.map (·.1)) b.label b.colon :=
  (TokenSeq.opener_label_ofPairs pairs (h.isLabelOf hb).2.2.labelAt).mp (h.parted.opener_eq b hb)

/-- The body of a branch ends at the next label, or at the closing brace. -/
theorem bodyEnd_cases (h : Parts tokens keyword switch) (hb : b ∈ switch.branches) :
    (∃ b' ∈ switch.branches, b.label < b'.label ∧ b.bodyEnd = b'.label) ∨
      b.bodyEnd = switch.closer := by
  obtain ⟨n, hn⟩ := List.mem_iff_getElem?.mp hb
  rw [h.parted.bodyEnd_eq n b hn]
  rcases hnext : (switch.branches.map (·.label))[n + 1]? with _ | next
  · exact Or.inr rfl
  · rw [List.getElem?_map] at hnext
    obtain ⟨b', hb', rfl⟩ := Option.map_eq_some_iff.mp hnext
    refine Or.inl ⟨b', List.mem_of_getElem? hb', ?_, rfl⟩
    -- the labels are in order
    have hsorted := h.collected.sorted
    rw [List.pairwise_map] at hsorted
    obtain ⟨hlt, rfl⟩ := List.getElem?_eq_some_iff.mp hn
    obtain ⟨hlt', rfl⟩ := List.getElem?_eq_some_iff.mp hb'
    exact List.pairwise_iff_getElem.mp hsorted n (n + 1) hlt hlt' (by omega)

/-- The body of a branch ends in front of the closing brace, or at it. -/
theorem bodyEnd_le (h : Parts tokens keyword switch) (hb : b ∈ switch.branches) :
    b.bodyEnd ≤ switch.closer := by
  rcases h.bodyEnd_cases hb with ⟨b', hb', -, heq⟩ | heq
  · rw [heq]
    exact le_of_lt (h.isLabelOf hb').2.1
  · exact le_of_eq heq

/-- The colon of a branch stands in the branch, unless it stands behind the closing brace. -/
theorem colon_lt_bodyEnd (h : Parts (TokenSeq.ofPairs pairs) keyword switch)
    (hb : b ∈ switch.branches) (hcolon : b.colon < switch.closer) : b.colon < b.bodyEnd := by
  rcases h.bodyEnd_cases hb with ⟨b', hb', hlt, heq⟩ | heq
  · rw [heq]
    exact (h.endsLabel hb).le_of_labelAt (h.isLabelOf hb').2.2.labelAt hlt
  · rw [heq]
    exact hcolon

end Parts

/-! ### Why taking apart fails -/

/-- The search for labels fails at a switch that is not closed. -/
theorem labelsFrom_eq_error (h : labelsFrom tokens keyword stop i = .ok (.error e)) :
    e = .unclosedNested ∧ ∃ k, i ≤ k ∧ k < stop ∧ tokens.kindAt (· == .kwSwitch) k = true ∧
      tokens.closer k = none := by
  fun_induction labelsFrom tokens keyword stop i with
  | case1 | case4 | case7 => cases h
  -- here it is given up; everywhere else the error comes from further on
  | case2 i hi t ht hswitch hc =>
      cases h
      refine ⟨rfl, i, le_rfl, hi, ?_, ?_⟩
      · rw [TokenSeq.kindAt_of_get? ht, hswitch]
        rfl
      · rw [TokenSeq.closer, ht, Option.bind_some, hc]
  | case3 i hi t ht hswitch c hc hic ih =>
      obtain ⟨heq, k, hk, hrest⟩ := ih h
      exact ⟨heq, k, by omega, hrest⟩
  | case5 i hi t ht hswitch hlabel ih =>
      rcases hrest : labelsFrom tokens keyword stop (i + 1) with f | e' | rest
      · rw [hrest] at h
        cases h
      · rw [hrest] at h
        cases h
        obtain ⟨heq, k, hk, hstop⟩ := ih hrest
        exact ⟨heq, k, by omega, hstop⟩
      · rw [hrest] at h
        cases h
  | case6 i hi t ht hswitch hlabel ih =>
      obtain ⟨heq, k, hk, hrest⟩ := ih h
      exact ⟨heq, k, by omega, hrest⟩

/-- The branches of labels fail at a label without a colon. -/
theorem branchesOf_eq_error (h : branchesOf tokens keyword closer marker labels = .ok (.error e)) :
    ∃ word, e = .missingColon word := by
  induction labels with
  | nil => cases h
  | cons label labels ih =>
      rw [branchesOf] at h
      obtain ⟨found, hfound, h⟩ := Checked.bind_eq_ok_iff.mp h
      cases found with
      -- the error is that of the first label, or one of the others
      | error e' =>
          cases h
          rw [branchOf] at hfound
          obtain ⟨t, -, hfound⟩ := Checked.bind_eq_ok_iff.mp hfound
          split at hfound
          · cases hfound
            exact ⟨_, rfl⟩
          · obtain ⟨body, -, hfound⟩ := Checked.bind_eq_ok_iff.mp hfound
            cases hfound
      | ok b =>
          obtain ⟨rest, hrest, h⟩ := Checked.bind_eq_ok_iff.mp h
          cases rest with
          | error e' =>
              cases h
              exact ih hrest
          | ok bs => cases h

/-- A switch with both braces cannot be taken apart because a switch inside it is not closed, or
because a label has no colon. -/
theorem ofKeyword_eq_error {opener : Nat} (ho : tokens.opener keyword = some opener)
    (hc : tokens.closer keyword = some closer)
    (h : ofKeyword tokens keyword marker = .ok (.error e)) :
    (e = .unclosedNested ∧ ∃ k, opener < k ∧ k < closer ∧
      tokens.kindAt (· == .kwSwitch) k = true ∧ tokens.closer k = none) ∨
    ∃ word, e = .missingColon word := by
  rw [ofKeyword, ho, hc] at h
  obtain ⟨found, hfound, h⟩ := Checked.bind_eq_ok_iff.mp h
  cases found with
  | error e' =>
      cases h
      exact Or.inl (labelsFrom_eq_error hfound)
  | ok labels =>
      obtain ⟨rest, hrest, h⟩ := Checked.bind_eq_ok_iff.mp h
      cases rest with
      | error e' =>
          cases h
          exact Or.inr (branchesOf_eq_error hrest)
      | ok branches => cases h

/-! ### Colons inside the switch -/

/-- **A branch has its colon inside**, if its own label is not ended by a colon behind the
closing brace: the colon follows the label, the body follows the colon and ends in front of the
closing brace at the latest. A label of the switch that no colon ends before some later label is
an error, unless a switch inside is not closed; so is one that no colon ends before the closing
brace, nor behind it. -/
theorem colons_ofKeyword (pairs : List (Kind × String)) (keyword opener closer : Nat)
    (marker : String) (ho : (TokenSeq.ofPairs pairs).opener keyword = some opener)
    (hc : (TokenSeq.ofPairs pairs).closer keyword = some closer) :
    let s := TokenSeq.ofPairs pairs
    (∀ switch, ofKeyword s keyword marker = .ok (.ok switch) → ∀ b ∈ switch.branches,
      (∀ c, EndsLabel (pairs.map (·.1)) b.label c → c < closer) →
        b.label < b.colon ∧ b.colon < b.bodyStart ∧ b.bodyStart ≤ b.bodyEnd ∧
          b.bodyEnd ≤ switch.closer) ∧
    ∀ l stop, opener < l → l < closer → s.IsLabelOf keyword l → ¬ s.InSwitchHead l →
      (l < stop ∧ s.IsLabelOf keyword stop ∨
        stop = closer ∧ ∀ c, EndsLabel (pairs.map (·.1)) l c → c < closer) →
      (∀ c, c < stop → ¬ EndsLabel (pairs.map (·.1)) l c) →
      (∃ word, ofKeyword s keyword marker = .ok (.error (.missingColon word))) ∨
        ofKeyword s keyword marker = .ok (.error .unclosedNested) ∧
          ∃ k, opener < k ∧ k < closer ∧ s.kindAt (· == .kwSwitch) k = true ∧
            s.closer k = none := by
  intro s
  have hlinks : Links (pairs.map (·.1)) (pairs.map (·.1)).length s := TokenSeq.links_ofPairs pairs
  refine ⟨?_, ?_⟩
  · intro switch h b hb hinside
    have hparts := parts_of_ofKeyword h
    have hcloser : switch.closer = closer := Option.some.inj (hparts.closer_eq.symm.trans hc)
    have hends := hparts.endsLabel hb
    have hcolon := hinside b.colon hends
    exact ⟨hends.lt, Nat.lt_succ_self _, hparts.colon_lt_bodyEnd hb (hcloser ▸ hcolon),
      hparts.bodyEnd_le hb⟩
  · intro l stop hol hlc hlabel hhead hstop hnone
    -- a colon that ended the label would stand in front of `stop`, in both ways to choose it
    have hnever : ∀ c, ¬ EndsLabel (pairs.map (·.1)) l c := by
      intro c hends
      refine hnone c ?_ hends
      rcases hstop with ⟨hlt, hnext⟩ | ⟨rfl, hinside⟩
      · exact hends.le_of_labelAt hnext.labelAt hlt
      · exact hinside c hends
    have hkeyword : keyword < s.size := by
      obtain ⟨t, ht, -⟩ := Option.bind_eq_some_iff.mp ho
      exact TokenSeq.lt_size_of_get? ht
    have hends : Ends True (ofKeyword s keyword marker) _ := ends_ofKeyword hlinks hkeyword
    obtain ⟨found, hfound, -⟩ := hends.exists_of_fits trivial
    cases found with
    | error e =>
        rcases ofKeyword_eq_error ho hc hfound with ⟨rfl, hnested⟩ | ⟨word, rfl⟩
        · exact Or.inr ⟨hfound, hnested⟩
        · exact Or.inl ⟨word, hfound⟩
    | ok switch =>
        -- the label would be one of the switch, and have a colon
        have hparts := parts_of_ofKeyword hfound
        have hopener : switch.opener = opener := Option.some.inj (hparts.opener_eq.symm.trans ho)
        have hcloser : switch.closer = closer := Option.some.inj (hparts.closer_eq.symm.trans hc)
        have hmem := hparts.mem_labels (hopener ▸ hol) (hcloser ▸ hlc) hlabel hhead
        obtain ⟨b, hb, rfl⟩ := List.mem_map.mp hmem
        exact absurd (hparts.endsLabel hb) (hnever b.colon)

/-- The switch with a block and a switch inside ends with the sequence, and its branches have their
colons inside. -/
theorem colons_ofKeyword_nestedSwitch :
    (∀ l c, EndsLabel (nestedSwitch.map (·.1)) l c → c < 16) ∧
    ∀ switch, ofKeyword (TokenSeq.ofPairs nestedSwitch) 0 "" = .ok (.ok switch) →
      ∀ b ∈ switch.branches, b.label < b.colon ∧ b.colon < b.bodyStart ∧ b.bodyStart ≤ b.bodyEnd ∧
        b.bodyEnd ≤ switch.closer := by
  have hinside : ∀ l c, EndsLabel (nestedSwitch.map (·.1)) l c → c < 16 := by
    intro l c hends
    have hlt : c < 17 := hends.lt_length
    have hne : c ≠ 16 := by
      rintro rfl
      exact absurd hends.2.1 (by decide)
    omega
  refine ⟨hinside, fun switch h b hb => ?_⟩
  have hcolons := colons_ofKeyword nestedSwitch 0 1 16 "" (by decide +kernel) (by decide +kernel)
  exact hcolons.1 switch h b hb (hinside b.label)

/-- A switch whose only label is followed by a semicolon, and a colon behind the switch. -/
def borrowedColon : List (Kind × String) :=
  [(.kwSwitch, "switch"), (.openBrace, "\x7b"), (.kwCase, "CASE"), (.literal, "1"),
    (.semicolon, ";"), (.closeBrace, "\x7d"), (.variableName, "$b"), (.operator, "?"),
    (.literal, "1"), (.colon, ":"), (.literal, "2"), (.semicolon, ";")]

/-- **A colon behind the closing brace hides a missing one.** The label has no colon in the switch;
the switch is taken apart all the same, and the body of the branch starts behind its end. -/
theorem colon_behind_brace :
    ∃ switch b, ofKeyword (TokenSeq.ofPairs borrowedColon) 0 "" = .ok (.ok switch) ∧
      b ∈ switch.branches ∧ switch.closer < b.colon ∧ b.bodyEnd < b.bodyStart := by
  refine ⟨⟨0, 1, 5, [⟨2, false, 9, 5, false, .absent⟩]⟩, ⟨2, false, 9, 5, false, .absent⟩, ?_,
    List.mem_cons_self, by decide, by decide⟩
  decide +kernel

end PhpStyle.Switch
