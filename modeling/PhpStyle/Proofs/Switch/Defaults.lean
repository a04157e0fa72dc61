import PhpStyle.Proofs.Switch.Layout

/-!
# Which labels are looked at

The rule on switches checks the letters, the column and the colon of each case label, and of the
label of the default branch. A switch may have several default labels, of which only the last one
leads to that branch. So if the rule reports nothing, the labels of the switch are written as they
should be (`SwitchLayout.labelLaid_of_check_eq_nil`), but a default label in front of another one
may be written in any way (`SwitchLayout.check_eq_nil_loudUnit`).

What has to be shown is about tokens: each label between the braces that belongs to the keyword
(`TokenSeq.OwnLabel`) is written as it should be (`TokenSeq.LabelLaid`), unless another default
label follows it (`TokenSeq.Overridden`). What is known is about branches: if nothing is reported,
the switch is laid out well (`SwitchLayout.exists_laid_of_check_eq_nil`), and this speaks of its
cases and of its default branch. So each such label has to be the label of one of these
(`Switch.Parts.exists_branch`). It has a branch, because the search finds all labels outside the
heads of switches inside; and if it is a default label, then it is the last one, and the default
branch is that of the last one (`Switch.Parts.label_le_default`), since branches are in the order of
their labels.
-/

namespace PhpStyle

variable {s : TokenSeq} {keyword opener closer l : Nat} {switch : Switch}
  {pairs : List (Kind × String)}

/-! ### Labels of a switch -/

namespace TokenSeq

/-- The token `l` is a label of the switch of `keyword`: it stands between the braces, the innermost
scope around it is that of the keyword, and it does not stand in the head of a switch inside. -/
structure OwnLabel (s : TokenSeq) (keyword opener closer l : Nat) : Prop where
  /-- It stands behind the opening brace. -/
  opener_lt : opener < l
  /-- It stands in front of the closing brace. -/
  lt_closer : l < closer
  /-- It is a label, and belongs to the keyword. -/
  isLabelOf : s.IsLabelOf keyword l
  /-- It does not stand in the head of a switch inside. -/
  not_head : ¬ s.InHeadBehind opener l

/-- The token `l` is a default label in front of another one of `keyword`, which stands before
`closer`. -/
def Overridden (s : TokenSeq) (keyword closer l : Nat) : Prop :=
  s.kindAt (· == .kwDefault) l = true ∧
    ∃ l', l < l' ∧ l' < closer ∧ s.IsLabelOf keyword l' ∧ s.kindAt (· == .kwDefault) l' = true

/-- The label `l` is in small letters, stands `indent` columns behind the keyword, and has no
whitespace in front of its colon. -/
structure LabelLaid (s : TokenSeq) (keyword indent l : Nat) : Prop where
  /-- It is its own form in small letters. -/
  lower : s.At l fun t => t.text = Text.lower t.text
  /-- It stands in its column. -/
  column : s.At keyword fun k => s.At l (·.column = k.column + indent)
  /-- Its colon follows without whitespace. -/
  tight : ∃ colon, s.opener l = some colon ∧ s.At (colon - 1) (·.kind ≠ .whitespace)

end TokenSeq

/-! ### The default branch -/

namespace Switch.Parts

/-- **The default branch is that of the last default label.** -/
theorem label_le_default (h : Parts s keyword switch) {b d : Branch} (hb : b ∈ switch.branches)
    (hdefault : b.isDefault = true) (hd : switch.default? = some d) :
    d ∈ switch.branches ∧ d.isDefault = true ∧ b.label ≤ d.label := by
  unfold default? at hd
  have hmem : d ∈ switch.branches.filter (·.isDefault) := List.mem_of_getLast? hd
  rw [List.mem_filter] at hmem
  refine ⟨hmem.1, hmem.2, ?_⟩
  have hsorted : (switch.branches.filter (·.isDefault)).Pairwise fun b b' => b.label < b'.label :=
    (List.pairwise_map.mp h.collected.sorted).filter _
  obtain ⟨front, hfront⟩ := List.getLast?_eq_some_iff.mp hd
  have hb' : b ∈ switch.branches.filter (·.isDefault) := List.mem_filter.mpr ⟨hb, hdefault⟩
  rw [hfront] at hsorted hb'
  obtain hb' | hb' := List.mem_append.mp hb'
  · exact ((List.pairwise_append.mp hsorted).2.2 b hb' d (List.mem_singleton_self d)).le
  · rw [List.mem_singleton.mp hb']

/-- A label that is looked at: that of a case, or of the default branch. -/
theorem exists_branch (h : Parts (TokenSeq.ofPairs pairs) keyword switch) {d : Branch}
    (hd : switch.default? = some d)
    (hlabel : (TokenSeq.ofPairs pairs).OwnLabel keyword switch.opener switch.closer l)
    (hlast : ¬ (TokenSeq.ofPairs pairs).Overridden keyword switch.closer l) :
    ∃ b ∈ switch.branches, b.label = l ∧ (b ∈ switch.cases ∨ b = d) := by
  have hmem := h.mem_labels_of_not_inHeadBehind hlabel.opener_lt hlabel.lt_closer hlabel.isLabelOf
    hlabel.not_head
  obtain ⟨b, hb, rfl⟩ := List.mem_map.mp hmem
  -- a case is looked at, a default label only if it is the last one
  by_cases hdefault : b.isDefault = true
  · obtain ⟨hdmem, hddefault, hle⟩ := h.label_le_default hb hdefault hd
    refine ⟨d, hdmem, ?_, Or.inr rfl⟩
    by_contra hne
    rw [h.parted.isDefault_eq _ hb] at hdefault
    rw [h.parted.isDefault_eq _ hdmem] at hddefault
    obtain ⟨-, hdc, hdlabel⟩ := h.isLabelOf hdmem
    exact hlast ⟨hdefault, d.label, by omega, hdc, hdlabel, hddefault⟩
  · exact ⟨b, hb, rfl, Or.inl (List.mem_filter.mpr ⟨hb, by simpa using hdefault⟩)⟩

end Switch.Parts

/-! ### Switches that the rule accepts -/

/-- A label that is laid out well, as a token. -/
theorem Branch.LabelLaid.labelLaid {indent : Nat} {b : Branch} {k : Token}
    (hk : s.get? keyword = some k) (hopener : s.opener b.label = some b.colon)
    (h : b.LabelLaid s (k.column + indent)) :
    s.LabelLaid keyword indent b.label :=
  ⟨h.lower, ⟨k, hk, h.column_eq⟩, b.colon, hopener, h.tight⟩

namespace SwitchLayout

/-- A switch at which nothing is reported could be taken apart, and is laid out well. -/
theorem exists_laid_of_check_eq_nil {style : SwitchStyle} {u : SourceUnit} {found : Inspection}
    (hu : u.tokens = .ofPairs pairs) (h : check style u keyword = .ok found)
    (hnil : found.violations = []) :
    ∃ switch, Switch.Parts u.tokens keyword switch ∧ style.Laid u.tokens switch := by
  have hcheck := h
  rw [check, SwitchStyle.remarks] at h
  obtain ⟨remarks, hremarks, heq⟩ := Checked.bind_eq_ok_iff.mp h
  obtain ⟨parts, hof, hremarks⟩ := Checked.bind_eq_ok_iff.mp hremarks
  cases parts with
  | error e =>
      -- what keeps it from being taken apart is reported
      cases hremarks
      cases heq
      cases hnil
  | ok switch =>
      exact ⟨switch, Switch.parts_of_ofKeyword hof,
        (violations_eq_nil_iff hu hof hcheck).mp hnil⟩

/-- **The labels of a switch that the rule accepts.** In a unit with a finished sequence of
tokens, let the rule report nothing at a keyword. Then the switch has both braces, and each of
its labels is in small letters, stands one indent behind the keyword and has no whitespace in
front of its colon: each case label, and the last default label. Labels in the heads of switches
inside are not among them. -/
theorem labelLaid_of_check_eq_nil (style : SwitchStyle) (u : SourceUnit)
    (pairs : List (Kind × String)) (hu : u.tokens = .ofPairs pairs) (keyword : Nat)
    (found : Inspection) (h : check style u keyword = .ok found) (hnil : found.violations = []) :
    ∃ opener closer, u.tokens.opener keyword = some opener ∧ u.tokens.closer keyword = some closer ∧
      ∀ l, u.tokens.OwnLabel keyword opener closer l → ¬ u.tokens.Overridden keyword closer l →
        u.tokens.LabelLaid keyword style.indent l := by
  obtain ⟨switch, hparts, k, hk, hlaid⟩ := exists_laid_of_check_eq_nil hu h hnil
  rw [hparts.keyword_eq] at hk
  rw [hu] at hparts hk hlaid ⊢
  refine ⟨switch.opener, switch.closer, hparts.opener_eq, hparts.closer_eq,
    fun l hlabel hlast => ?_⟩
  obtain ⟨d, hd, hdefault⟩ := hlaid.default
  obtain ⟨b, hb, rfl, hcase | rfl⟩ := hparts.exists_branch hd hlabel hlast
  · exact (hlaid.cases b hcase).label.labelLaid hk (hparts.parted.opener_eq b hb)
  · exact hdefault.label.labelLaid hk (hparts.parted.opener_eq b hb)

/-- A switch with two default labels. The first one is in capitals, too far to the left, and has a
space in front of its colon. -/
def loudDefault : List (Kind × String) :=
  [(.kwSwitch, "switch"), (.openBrace, "\x7b"), (.whitespace, "\n  "), (.kwDefault, "DEFAULT"),
    (.whitespace, " "), (.colon, ":"), (.whitespace, "\n    "), (.kwCase, "case"),
    (.whitespace, " "), (.literal, "1"), (.colon, ":"), (.whitespace, "\n        "),
    (.identifier, "run"), (.semicolon, ";"), (.whitespace, "\n        "), (.kwBreak, "break"),
    (.semicolon, ";"), (.whitespace, "\n\n    "), (.kwDefault, "default"), (.colon, ":"),
    (.whitespace, "\n        "), (.identifier, "stop"), (.semicolon, ";"), (.whitespace, "\n"),
    (.closeBrace, "\x7d")]

/-- The unit of this switch. -/
def loudUnit : SourceUnit where
  path := "loud.php"
  tokens := .ofPairs loudDefault
  comments := fun _ => .ok {}

/-- The two default labels and the case label are those of the switch: there is no switch inside. -/
theorem ownLabel_loudUnit : ∀ l ∈ [3, 7, 18], loudUnit.tokens.OwnLabel 0 1 24 l := by
  have hlabels : ∀ l ∈ [3, 7, 18], 1 < l ∧ l < 24 ∧ loudUnit.tokens.kindAt Kind.isLabel l = true ∧
      loudUnit.tokens.owner l = some 0 := by decide +kernel
  have hnone : ∀ k < 24, 1 < k → loudUnit.tokens.kindAt (· == .kwSwitch) k = false := by
    decide +kernel
  intro l hl
  obtain ⟨hol, hlc, hlabel⟩ := hlabels l hl
  refine ⟨hol, hlc, hlabel, ?_⟩
  rintro ⟨k, o, hk, hswitch, -, hkl, -⟩
  rw [hnone k (by omega) hk] at hswitch
  cases hswitch

/-- The case label and the last default label stand in front of no default label. -/
theorem not_overridden_loudUnit : ∀ l ∈ [7, 18], ¬ loudUnit.tokens.Overridden 0 24 l := by
  have hlast : ∀ l ∈ [7, 18], loudUnit.tokens.kindAt (· == .kwDefault) l = true →
      ∀ l' < 24, l < l' → loudUnit.tokens.kindAt (· == .kwDefault) l' = false := by decide +kernel
  rintro l hl ⟨hdefault, l', hll', hlc, -, hdefault'⟩
  rw [hlast l hl hdefault l' hlc hll'] at hdefault'
  cases hdefault'

/-- The rule reports nothing there, and so the case label and the last default label
are as they should be. -/
theorem labelLaid_of_check_eq_nil_loudUnit :
    check {} loudUnit 0 = .ok {} ∧ ∀ l ∈ [7, 18], loudUnit.tokens.LabelLaid 0 4 l := by
  have hcheck : check {} loudUnit 0 = .ok {} := by decide +kernel
  obtain ⟨opener, closer, ho, hc, hlaid⟩ :=
    labelLaid_of_check_eq_nil {} loudUnit loudDefault rfl 0 {} hcheck rfl
  have hopener : loudUnit.tokens.opener 0 = some 1 := by decide +kernel
  have hcloser : loudUnit.tokens.closer 0 = some 24 := by decide +kernel
  rw [hopener, Option.some.injEq] at ho
  rw [hcloser, Option.some.injEq] at hc
  subst ho hc
  exact ⟨hcheck, fun l hl =>
    hlaid l (ownLabel_loudUnit l (List.mem_cons_of_mem 3 hl)) (not_overridden_loudUnit l hl)⟩

/-- **A default label in front of another one is not looked at.** The rule reports nothing, though
the first default label of the switch is not in small letters, not in its column, and has whitespace
in front of its colon. -/
theorem check_eq_nil_loudUnit :
    check {} loudUnit 0 = .ok {} ∧ loudUnit.tokens.opener 0 = some 1 ∧
      loudUnit.tokens.closer 0 = some 24 ∧ loudUnit.tokens.OwnLabel 0 1 24 3 ∧
      ¬ loudUnit.tokens.At 3 (fun t => t.text = Text.lower t.text) ∧
      ¬ loudUnit.tokens.At 0 (fun k => loudUnit.tokens.At 3 (·.column = k.column + 4)) ∧
      loudUnit.tokens.opener 3 = some 5 ∧ ¬ loudUnit.tokens.At 4 (·.kind ≠ .whitespace) := by
  refine ⟨?_, ?_, ?_, ownLabel_loudUnit 3 (by decide), ?_⟩
  all_goals decide +kernel

end SwitchLayout

end PhpStyle
