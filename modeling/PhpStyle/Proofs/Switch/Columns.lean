import PhpStyle.Preset
import PhpStyle.Proofs.Switch.Endings
import PhpStyle.Proofs.Switch.Terminators

/-!
# Columns of labels and breaks

Labels should stand one indent behind the keyword of their switch, and breaks two. An indent may be
any number, so these two sums need not fit in a word, and then there is no result at all. Here it is
said exactly when this is so, and which columns are reported otherwise
(`SwitchLayout.reports_columns`).

Both halves start from what the checks of a switch are known to do
(`SwitchStyle.ends_switchRemarks`). The sums that they take are those of `SwitchStyle.ColumnsFit`,
the second one only if a break is looked at (`SwitchStyle.columnsFit_iff`). Of the remarks that they
make, those on columns are picked out (`Branch.ColumnRemark`, `SwitchStyle.remark_iff_of_isColumn`),
for the branches that are looked at (`Switch.checked`: the cases, and the last default). A stacked
case is the one point to see to: its break is not looked at, but it has none
(`Switch.absent_of_stacked`).

What is reported is a message at a token, not a problem. So the last step is that a problem of
columns is known by its message (`SwitchProblem.isColumn_of_message_eq`): other messages end with
another letter, or begin otherwise.
-/

namespace PhpStyle

variable {tokens : TokenSeq} {keyword closer column i n : Nat} {b : Branch} {switch : Switch}
  {style : SwitchStyle} {r : SwitchRemark} {p q : SwitchProblem}

/-! ### Remarks on columns -/

/-- The problems of the columns of labels and breaks. -/
def SwitchProblem.isColumn : SwitchProblem → Bool
  | labelColumn _ _ | breakColumn _ => true
  | _ => false

namespace Branch

/-- The remarks on the columns of a branch: the label does not stand in `column`, or the break that
ends it does not stand one indent behind. -/
inductive ColumnRemark (style : SwitchStyle) (tokens : TokenSeq) (column : Nat) (b : Branch) :
    SwitchRemark → Prop
  /-- The label. -/
  | label (h : ¬ tokens.At b.label (·.column = column)) :
      ColumnRemark style tokens column b ⟨b.label, .labelColumn b.word style.indent⟩
  /-- The break. -/
  | atBreak {i : Nat} (hbreak : b.terminator = .breakAt i)
      (h : ¬ tokens.At i (·.column = column + style.indent)) :
      ColumnRemark style tokens column b ⟨i, .breakColumn style.indent⟩

/-- They are about columns. -/
theorem ColumnRemark.isColumn (h : b.ColumnRemark style tokens column r) :
    r.problem.isColumn = true := by
  cases h <;> rfl

/-- They are made at tokens that exist. -/
theorem ColumnRemark.index_lt (h : b.ColumnRemark style tokens column r)
    (hb : b.Within tokens closer) (hcloser : closer < tokens.size) : r.index < tokens.size := by
  cases h with
  | label => exact hb.label_lt_size
  | atBreak hbreak =>
      apply (hb.terminator_lt hcloser _).2
      rw [hbreak]
      rfl

/-- Of what is remarked about a label, one thing is about columns. -/
theorem LabelRemark.columnRemark (h : b.LabelRemark style tokens column r)
    (hr : r.problem.isColumn = true) : b.ColumnRemark style tokens column r := by
  cases h with
  | misplaced hnot => exact .label hnot
  | notLower | loose => cases hr

/-- Of what is remarked about a case, this is about columns: the label, and a break. A break is
looked at unless the case is stacked, and then no break ends it. -/
theorem caseRemark_iff_of_isColumn (hstacked : b.stacked = true → b.terminator = .absent)
    (hr : r.problem.isColumn = true) :
    b.CaseRemark style tokens switch column r ↔ b.ColumnRemark style tokens column r := by
  constructor
  · intro h
    cases h with
    | label h => exact h.columnRemark hr
    | unspaced | detached => cases hr
    -- the end of a case: of four remarks on a break, one is about its column
    | ending _ h =>
        cases h with
        | atBreak hbreak h =>
            cases h with
            | misplaced hnot => exact .atBreak hbreak hnot
            | empty | before | after => cases hr
        | atEnding | absent => cases hr
  · intro h
    cases h with
    | label hnot => exact .label (.misplaced hnot)
    | atBreak hbreak hnot =>
        refine .ending ?_ (.atBreak hbreak (.misplaced hnot))
        by_contra hnot
        rw [hstacked (by simpa using hnot)] at hbreak
        cases hbreak

/-- Of what is remarked about the default branch, this is about columns. -/
theorem defaultRemark_iff_of_isColumn (hr : r.problem.isColumn = true) :
    b.DefaultRemark style tokens switch column r ↔ b.ColumnRemark style tokens column r := by
  constructor
  · intro h
    cases h with
    | label h => exact h.columnRemark hr
    | misplaced hbreak hnot => exact .atBreak hbreak hnot
    | after | empty | detached => cases hr
  · intro h
    cases h with
    | label hnot => exact .label (.misplaced hnot)
    | atBreak hbreak hnot => exact .misplaced hbreak hnot

end Branch

/-! ### The columns of a switch -/

/-- The branches that are looked at: the cases, and the last default. -/
def Switch.checked (s : Switch) : List Branch := s.cases ++ s.default?.toList

/-- They are branches of the switch. -/
theorem Switch.mem_branches_of_mem_checked (h : b ∈ switch.checked) : b ∈ switch.branches := by
  rcases List.mem_append.mp h with hcase | hdefault
  · exact mem_branches_of_mem_cases hcase
  · exact mem_branches_of_default? (Option.mem_toList.mp hdefault)

/-- No break ends a stacked branch. -/
theorem Switch.absent_of_stacked {marker : String}
    (h : ofKeyword tokens keyword marker = .ok (.ok switch)) (hb : b ∈ switch.branches)
    (hstacked : b.stacked = true) : b.terminator = .absent := by
  obtain ⟨body, hbody⟩ := searched_of_ofKeyword h b hb
  rw [hbody.terminator_eq, if_pos hstacked]

/-- The columns of a switch whose keyword stands in `column` fit in a word: that of the labels, and
that of the breaks if one is looked at. -/
structure SwitchStyle.ColumnsFit (style : SwitchStyle) (switch : Switch) (column : Nat) : Prop where
  /-- The column of the labels. -/
  labels : column + style.indent ≤ maxWord
  /-- The column of the breaks. -/
  breaks : ∀ b ∈ switch.checked, b.BreakFits style (column + style.indent)

namespace SwitchStyle

/-- The columns fit exactly if those fit that are compared: no break is looked at in a stacked case,
but there is none. -/
theorem columnsFit_iff
    (hstacked : ∀ b ∈ switch.branches, b.stacked = true → b.terminator = .absent) :
    style.ColumnsFit switch column ↔ style.SumsFit switch column := by
  constructor
  · intro h
    exact ⟨h.labels, fun b hb _ => h.breaks b (List.mem_append_left _ hb),
      fun b hb => h.breaks b (List.mem_append_right _ (Option.mem_toList.mpr hb))⟩
  · intro h
    refine ⟨h.labels, fun b hb i hbreak => ?_⟩
    rcases List.mem_append.mp hb with hcase | hdefault
    · refine h.cases b hcase ?_ i hbreak
      by_contra hnot
      rw [hstacked b (Switch.mem_branches_of_mem_cases hcase) (by simpa using hnot)] at hbreak
      cases hbreak
    · exact h.default b (Option.mem_toList.mp hdefault) i hbreak

/-- **The remarks on columns** are those on the labels and the breaks of the branches
that are looked at. -/
theorem remark_iff_of_isColumn
    (hstacked : ∀ b ∈ switch.branches, b.stacked = true → b.terminator = .absent)
    (hr : r.problem.isColumn = true) :
    style.Remark tokens switch column r ↔
      ∃ b ∈ switch.checked, b.ColumnRemark style tokens (column + style.indent) r := by
  have hcase : ∀ b ∈ switch.cases, (b.CaseRemark style tokens switch (column + style.indent) r ↔
      b.ColumnRemark style tokens (column + style.indent) r) := fun b hb =>
    Branch.caseRemark_iff_of_isColumn (hstacked b (Switch.mem_branches_of_mem_cases hb)) hr
  constructor
  · intro h
    cases h with
    | noCase | noDefault | brace => cases hr
    | ofCase hb h => exact ⟨_, List.mem_append_left _ hb, (hcase _ hb).mp h⟩
    | ofDefault hb h =>
        exact ⟨_, List.mem_append_right _ (Option.mem_toList.mpr hb),
          (Branch.defaultRemark_iff_of_isColumn hr).mp h⟩
  · rintro ⟨b, hb, h⟩
    rcases List.mem_append.mp hb with hb | hdefault
    · exact .ofCase hb ((hcase b hb).mpr h)
    · exact .ofDefault (Option.mem_toList.mp hdefault)
        ((Branch.defaultRemark_iff_of_isColumn hr).mpr h)

end SwitchStyle

/-! ### Messages on columns -/

namespace SwitchProblem

/-- How the messages on columns begin. -/
def columnLeads : List String :=
  ["BREAK statement must be indented ", "CASE keyword must be indented ",
    "DEFAULT keyword must be indented "]

/-- The message on the column of a break. -/
theorem message_breakColumn (n : Nat) : (breakColumn n).message =
    "BREAK statement must be indented " ++ (toString n ++ " spaces from CASE keyword") :=
  String.append_assoc

/-- The message on the column of a label. -/
theorem message_labelColumn (b : Branch) (n : Nat) : (labelColumn b.word n).message =
    (b.word ++ " keyword must be indented ") ++ (toString n ++ " spaces from SWITCH keyword") :=
  String.append_assoc

/-- A problem of columns that is found: in the column of a break, or of the label of a branch. -/
def IsFound (q : SwitchProblem) (n : Nat) : Prop := q = breakColumn n ∨
    ∃ b : Branch, q = labelColumn b.word n

/-- The ends of its message. -/
theorem IsFound.message_ends (h : q.IsFound n) :
    (∃ lead ∈ columnLeads, ∃ rest, q.message = lead ++ rest) ∧ q.message.toList.getLast? =
      some 'd' := by
  have hends : ∀ {lead middle rest : String}, lead ∈ columnLeads → rest.toList.getLast? = some 'd' →
      q.message = lead ++ (middle ++ rest) →
        (∃ lead ∈ columnLeads, ∃ rest, q.message = lead ++ rest) ∧ q.message.toList.getLast? =
          some 'd' := by
    intro lead middle rest hlead hrest heq
    refine ⟨⟨lead, hlead, _, heq⟩, ?_⟩
    simp only [heq, String.toList_append, List.getLast?_append, hrest, Option.some_or]
  rcases h with rfl | ⟨b, rfl⟩
  · exact hends List.mem_cons_self rfl (message_breakColumn n)
  · refine hends ?_ rfl (message_labelColumn b n)
    unfold Branch.word
    cases b.isDefault <;> decide

/-- The last character of a text that is given by its characters. -/
theorem getLast?_toList_ne {cs : List Char} {c : Char} (h : cs.getLast? ≠ some c) :
    (String.ofList cs).toList.getLast? ≠ some c := by
  rwa [String.toList_ofList]

/-- **A problem of columns is known by its message.** Other messages end with another letter
or begin otherwise. -/
theorem isColumn_of_message_eq (hq : q.IsFound n) (h : p.message = q.message) :
    p.isColumn = true := by
  obtain ⟨⟨lead, hlead, rest, hrest⟩, hlast⟩ := hq.message_ends
  have hother : ∀ c, c ≠ 'd' → q.message.toList.getLast? ≠ some c := by
    intro c hc
    simpa [hlast] using hc.symm
  have hbegin : lead.toList <+: p.message.toList := by
    rw [h, hrest, String.toList_append]
    exact List.prefix_append _ _
  cases p with
  | labelColumn | breakColumn => rfl
  | misplacedBrace | emptyCase =>
      clear h hrest
      revert lead
      decide
  | noTerminator =>
      have hleads : ∀ lead ∈ columnLeads,
          ¬ noTerminatorLead.toList <+: lead.toList ∧
            ¬ lead.toList <+: noTerminatorLead.toList := by
        decide
      obtain ⟨hleft, hright⟩ := hleads lead hlead
      exact absurd (h.trans hrest) (append_ne_of_beginnings hleft hright)
  | malformed cause =>
      cases cause with
      | missingColon =>
          exact absurd h (append_ne_of_getLast? (t := " statement has no colon") rfl
            (hother 'n' (by decide)))
      | _ =>
          rw [← h] at hlast
          exact absurd hlast (getLast?_toList_ne (by decide))
  | notLower => exact absurd h (append_ne_of_getLast? (t := "\"") rfl (hother '"' (by decide)))
  | spaceBeforeColon =>
      exact absurd h (append_ne_of_getLast? (t := " statement") rfl (hother 't' (by decide)))
  | _ =>
      rw [← h] at hlast
      exact absurd hlast (getLast?_toList_ne (by decide))

/-- The message on a label is not that on a break. -/
theorem message_labelColumn_ne (b : Branch) (n m : Nat) :
    (labelColumn b.word n).message ≠ (breakColumn m).message := by
  rw [message_labelColumn, message_breakColumn]
  unfold Branch.word
  cases b.isDefault
  · exact append_ne_of_beginnings (by decide) (by decide)
  · exact append_ne_of_beginnings (by decide) (by decide)

end SwitchProblem

/-! ### What is reported -/

namespace SwitchLayout

variable {u : SourceUnit}

/-- **A remark on a column is reported at its token**, and nothing else is reported in the same
words. -/
theorem reports_iff_columnRemark {remarks : List SwitchRemark} {inspection : Inspection}
    (hviolations : inspection.violations = remarks.map fun r =>
      id.violation u r.index .error r.problem.message)
    (hwithin : switch.Within u.tokens)
    (hremarks : ∀ r : SwitchRemark, r.problem.isColumn = true →
      (r ∈ remarks ↔ ∃ b ∈ switch.checked, b.ColumnRemark style u.tokens column r))
    (hq : q.IsFound n) :
    inspection.Reports i q.message ↔
      ∃ b ∈ switch.checked, ∃ r : SwitchRemark, b.ColumnRemark style u.tokens column r ∧
      r.index = i ∧ r.problem.message = q.message := by
  have htoken : ∀ b ∈ switch.checked, ∀ r : SwitchRemark, b.ColumnRemark style u.tokens column r →
      (u.location r.index).token = r.index := by
    intro b hb r hremark
    apply SourceUnit.location_token
    exact hremark.index_lt (hwithin.branches b (Switch.mem_branches_of_mem_checked hb))
      hwithin.closer_lt
  unfold Inspection.Reports
  rw [hviolations]
  -- a message of columns is of a problem of columns, but perhaps of another branch
  constructor
  · rintro ⟨v, hv, rfl, hmessage⟩
    obtain ⟨r, hr, rfl⟩ := List.mem_map.mp hv
    have hcolumn : r.problem.isColumn = true := SwitchProblem.isColumn_of_message_eq hq hmessage
    obtain ⟨b, hb, hremark⟩ := (hremarks r hcolumn).mp hr
    exact ⟨b, hb, r, hremark, (htoken b hb r hremark).symm, hmessage⟩
  · rintro ⟨b, hb, r, hremark, rfl, hmessage⟩
    have hr : r ∈ remarks := (hremarks r hremark.isColumn).mpr ⟨b, hb, hremark⟩
    exact ⟨_, List.mem_map_of_mem hr, htoken b hb r hremark, hmessage⟩

/-- **Which columns of a switch are reported**, for every indent. There is a result exactly if the
column of the labels fits in a word, and that of the breaks too if there is one to look at;
otherwise the only fault is an overflow. If there is a result, a break is reported exactly if it
ends a branch that is looked at and does not stand two indents behind the keyword, and the label of
such a branch exactly if it does not stand one indent behind it. -/
theorem reports_columns (style : SwitchStyle) (path : String) (comments : CommentReader)
    (pairs : List (Kind × String)) (keyword : Nat) (switch : Switch)
    (h : Switch.ofKeyword (.ofPairs pairs) keyword style.marker = .ok (.ok switch)) :
    let u : SourceUnit := { path, tokens := .ofPairs pairs, comments }
    ∃ t, u.tokens.get? keyword = some t ∧
      (check style u keyword = .error .overflow ↔ ¬ style.ColumnsFit switch t.column) ∧
      (style.ColumnsFit switch t.column → ∃ found, check style u keyword = .ok found ∧
        (∀ i, found.Reports i
          s!"BREAK statement must be indented {style.indent} spaces from CASE keyword" ↔
          ∃ b ∈ switch.checked, b.terminator = .breakAt i ∧
            ¬ u.tokens.At i (·.column = t.column + style.indent + style.indent)) ∧
        ∀ b ∈ switch.checked,
          (found.Reports b.label
            s!"{b.word} keyword must be indented {style.indent} spaces from SWITCH keyword" ↔
            ¬ u.tokens.At b.label (·.column = t.column + style.indent))) := by
  intro u
  have hwithin : switch.Within u.tokens := Switch.within_of_ofKeyword h
  have hkeyword := (Switch.parts_of_ofKeyword h).keyword_eq
  obtain ⟨t, ht⟩ := TokenSeq.exists_get? hwithin.keyword_lt
  have hstacked : ∀ b ∈ switch.branches, b.stacked = true → b.terminator = .absent :=
    fun b => Switch.absent_of_stacked h
  have hends := ends_check (u := u) h hwithin ht
  rw [← SwitchStyle.columnsFit_iff hstacked] at hends
  refine ⟨t, hkeyword ▸ ht, hends.eq_overflow_iff, fun hfits => ?_⟩
  obtain ⟨found, hfound, -, remarks, hviolations, hmem⟩ := hends.exists_of_fits hfits
  have hcolumns : ∀ r : SwitchRemark, r.problem.isColumn = true → (r ∈ remarks ↔
      ∃ b ∈ switch.checked, b.ColumnRemark style u.tokens (t.column + style.indent) r) :=
    fun r hr => (hmem r).trans (SwitchStyle.remark_iff_of_isColumn hstacked hr)
  refine ⟨found, hfound, fun i => ?_, fun b hb => ?_⟩
  · apply (reports_iff_columnRemark hviolations hwithin hcolumns (q := .breakColumn style.indent)
      (.inl rfl)).trans
    constructor
    · rintro ⟨b, hb, r, hremark, rfl, hmessage⟩
      cases hremark with
      | label => exact absurd hmessage (SwitchProblem.message_labelColumn_ne b _ _)
      | atBreak hbreak hnot => exact ⟨b, hb, hbreak, hnot⟩
    · rintro ⟨b, hb, hbreak, hnot⟩
      exact ⟨b, hb, _, .atBreak hbreak hnot, rfl, rfl⟩
  · apply (reports_iff_columnRemark hviolations hwithin hcolumns
      (q := .labelColumn b.word style.indent) (.inr ⟨b, rfl⟩)).trans
    constructor
    · rintro ⟨b', hb', r, hremark, hindex, hmessage⟩
      cases hremark with
      -- the remark may come from another branch with the same label, which stands where this one
      -- does
      | label hnot => exact hindex ▸ hnot
      | atBreak => exact absurd hmessage.symm (SwitchProblem.message_labelColumn_ne b _ _)
    · intro hnot
      exact ⟨b, hb, _, .label hnot, rfl, rfl⟩

/-- A switch in column 5, with its labels in the same column and a break in column 3. -/
def shiftedSwitch : String :=
  "<?php\n    switch ($a) \x7b\n    case 1:\n        foo();\n  break;\n\n" ++
    "    default:\n        bar();\n    \x7d\n"

/-- The configuration with the greatest indent. -/
def widestConfig : Config where
  rules := [("switch-declaration", { options := [("indent", .integer Toml.maxInteger)] })]

/-- With the usual indent, its break and the label of its case are reported. -/
theorem reports_columns_shiftedSwitch :
    ∃ found, check {} (.ofText shiftedSwitch) 2 = .ok found ∧
      found.Reports 23 "BREAK statement must be indented 4 spaces from CASE keyword" ∧
      found.Reports 11 "CASE keyword must be indented 4 spaces from SWITCH keyword" := by
  have hswitch : Switch.ofKeyword (.ofSource shiftedSwitch) 2 "// break omitted" =
      .ok (.ok ⟨2, 8, 38,
        [⟨11, false, 14, 28, false, .breakAt 23⟩, ⟨28, true, 29, 38, false, .absent⟩]⟩) := by
    decide +kernel
  obtain ⟨hkeyword, hbreak, hlabel⟩ : (TokenSeq.ofSource shiftedSwitch).At 2 (·.column = 5) ∧
      ¬ (TokenSeq.ofSource shiftedSwitch).At 23 (·.column = 5 + 4 + 4) ∧
      ¬ (TokenSeq.ofSource shiftedSwitch).At 11 (·.column = 5 + 4) := by decide +kernel
  obtain ⟨t, ht, -, hresult⟩ :=
    reports_columns {} "Foo.php" (fun _ => .ok {}) (lexemes shiftedSwitch) 2 _ hswitch
  have hcolumn : t.column = 5 := (TokenSeq.at_iff ht).mp hkeyword
  rw [hcolumn] at hresult
  obtain ⟨found, hcheck, hbreaks, hlabels⟩ := hresult ⟨by decide, fun b hb i hi => by decide⟩
  refine ⟨found, hcheck, (hbreaks 23).mpr ⟨_, List.mem_cons_self, rfl, hbreak⟩, ?_⟩
  exact (hlabels ⟨11, false, 14, 28, false, .breakAt 23⟩ List.mem_cons_self).mpr hlabel

/-- **With the greatest indent there is no result**, although the break does not stand two indents
behind the keyword. -/
theorem check_overflow_shiftedSwitch :
    let style := widestConfig.switchStyle
    let u : SourceUnit := .ofText shiftedSwitch
    (∃ switch, Switch.ofKeyword u.tokens 2 style.marker = .ok (.ok switch) ∧
      ∃ b ∈ switch.checked, b.terminator = .breakAt 23) ∧
    (u.tokens.At 2 fun t => ¬ u.tokens.At 23 (·.column = t.column + style.indent + style.indent)) ∧
    check style u 2 = .error .overflow := by
  refine ⟨⟨⟨2, 8, 38,
    [⟨11, false, 14, 28, false, .breakAt 23⟩, ⟨28, true, 29, 38, false, .absent⟩]⟩, by
      decide +kernel, ⟨_, List.mem_cons_self, rfl⟩⟩, by decide +kernel, by decide +kernel⟩

end SwitchLayout

end PhpStyle
