import PhpStyle.Doc.Reader
import PhpStyle.Proofs.Switch.Checks
import PhpStyle.Proofs.Switch.Labels
import PhpStyle.Rule.SwitchLayout

/-!
# Which switches are laid out well

What the rule on switches accepts is described here by the lines and columns of the tokens
(`SwitchStyle.Laid`): labels (`Branch.LabelLaid`), breaks and other ends of a case
(`Branch.BreakLaid`, `Branch.EndLaid`), cases and the default branch (`Branch.CaseLaid`,
`Branch.DefaultLaid`).

The remarks that the checks make are known (`SwitchStyle.Remark`), so the proof does not go through
the checks again. It says for each part that nothing is remarked about it exactly if it is laid out
well (`Branch.labelLaid_iff` to `SwitchStyle.laidFrom_iff`): a constructor of the remarks on one
side is a field of the layout on the other. Two facts about a switch that was taken apart are used
on the way. The colon of a branch is a token behind the keyword (`Switch.Parts.colon_content`), so
the search for what stands in front of a break does not come to the keyword. And the parts lie in
the sequence (`Switch.within_of_ofKeyword`), so the checks have a result.

`SwitchLayout.check_eq_nil_iff_laid` puts this together: the rule reports nothing exactly at
switches that are laid out well, and one error at a switch that cannot be taken apart.
-/

namespace PhpStyle

/-! ### A well laid switch -/

namespace Branch

/-- A label in small letters, in its column, and with no whitespace in front of its colon. -/
structure LabelLaid (tokens : TokenSeq) (column : Nat) (b : Branch) : Prop where
  /-- It is its own form in small letters. -/
  lower : tokens.At b.label fun t => t.text = Text.lower t.text
  /-- It stands in its column. -/
  column_eq : tokens.At b.label (·.column = column)
  /-- Its colon follows without whitespace. -/
  tight : tokens.At (b.colon - 1) (·.kind ≠ .whitespace)

/-- The break at `i` stands in its column, on the line below the code of its case, and one blank
line separates its statement from what follows. -/
structure BreakLaid (tokens : TokenSeq) (closer column : Nat) (b : Branch) (i : Nat) : Prop where
  /-- It stands in its column. -/
  column_eq : tokens.At i (·.column = column)
  /-- There is code in front of it. -/
  code : ∃ j, b.bodyStart ≤ j ∧ j < i ∧ tokens.At j (·.isTrivia = false)
  /-- It is on the line below the last token in front of it. -/
  before : ∃ j, tokens.LastOf Kind.isContent 0 i j ∧ tokens.Below 1 j i
  /-- A blank line follows its statement. -/
  after : ∀ last, tokens.FirstOr (· == .semicolon) i closer i last → tokens.Separated closer i last

/-- What ends a case: a break, or a return, a throw or a comment that a blank line follows. -/
def EndLaid (tokens : TokenSeq) (closer column : Nat) (b : Branch) : Prop :=
  match b.terminator with
  | .breakAt i => b.BreakLaid tokens closer column i
  | .returnAt i | .throwAt i =>
    ∀ last, tokens.FirstOr (· == .semicolon) i b.bodyEnd i last → tokens.Separated closer i last
  | .fallthroughAt i => tokens.Separated closer i i
  | .absent => False

/-- A case. Labels stand in `column` and breaks in `inner`. -/
structure CaseLaid (tokens : TokenSeq) (closer column inner : Nat) (b : Branch) : Prop where
  /-- The label. -/
  label : b.LabelLaid tokens column
  /-- One space follows the label. -/
  spaced : tokens.At (b.label + 1) fun t => t.kind = .whitespace ∧ t.text = " "
  /-- Unless the case is stacked on the next one, it has an end. -/
  ending : b.stacked = false → b.EndLaid tokens closer inner
  /-- The content starts on the next line. -/
  starts : b.StartsBelow tokens

/-- The default branch. It need not have an end; if that is a break, what follows is on the next
line. -/
structure DefaultLaid (tokens : TokenSeq) (closer column inner : Nat) (b : Branch) : Prop where
  /-- The label. -/
  label : b.LabelLaid tokens column
  /-- A break stands in its column. -/
  break_column : ∀ i, b.terminator = .breakAt i → tokens.At i (·.column = inner)
  /-- What follows the statement of a break, or else the closing brace, is on the next line. -/
  break_after : ∀ i, b.terminator = .breakAt i → ∀ last j,
    tokens.FirstOr (· == .semicolon) i closer i last →
    tokens.FirstOr Kind.isContent (last + 1) closer closer j → tokens.Below 1 i j
  /-- There is content. -/
  content : ∃ j, b.bodyStart ≤ j ∧ j < b.bound ∧ tokens.At j (·.kind ≠ .whitespace)
  /-- The content starts on the next line. -/
  starts : b.StartsBelow tokens

end Branch

/-- A switch is laid out well from the column of its keyword on. -/
structure SwitchStyle.LaidFrom (style : SwitchStyle) (tokens : TokenSeq) (switch : Switch)
    (column : Nat) : Prop where
  /-- There is a case. -/
  has_case : switch.cases ≠ []
  /-- The cases are laid out well. -/
  cases : ∀ b ∈ switch.cases,
    b.CaseLaid tokens switch.closer (column + style.indent) (column + style.indent + style.indent)
  /-- There is a default branch, and it is laid out well. -/
  default : ∃ b, switch.default? = some b ∧
    b.DefaultLaid tokens switch.closer (column + style.indent)
      (column + style.indent + style.indent)
  /-- The closing brace stands below the keyword. -/
  closing : tokens.At switch.closer (·.column = column)

/-- A switch is laid out well. -/
def SwitchStyle.Laid (style : SwitchStyle) (tokens : TokenSeq) (switch : Switch) : Prop :=
  tokens.At switch.keyword fun t => style.LaidFrom tokens switch t.column

/-! ### Nothing is remarked -/

variable {tokens : TokenSeq} {keyword closer column i last line : Nat} {b : Branch}
  {switch : Switch} {style : SwitchStyle} {found : List SwitchRemark}

namespace Branch

/-- Nothing is remarked about a label exactly if it is laid out well. -/
theorem labelLaid_iff :
    b.LabelLaid tokens column ↔ ∀ r, ¬ b.LabelRemark style tokens column r := by
  constructor
  · intro hlaid r hr
    cases hr with
    | notLower ht hne => exact hne ((TokenSeq.at_iff ht).mp hlaid.lower)
    | misplaced hnot => exact hnot hlaid.column_eq
    | loose hnot => exact hnot hlaid.tight
  · intro hnone
    have hcolumn : tokens.At b.label (·.column = column) := by
      by_contra hnot
      exact hnone _ (.misplaced hnot)
    refine ⟨?_, hcolumn, ?_⟩
    · -- the label is there, since it stands in its column
      obtain ⟨t, ht, -⟩ := hcolumn
      refine ⟨t, ht, ?_⟩
      by_contra hne
      exact hnone _ (.notLower ht hne)
    · by_contra hnot
      exact hnone _ (.loose hnot)

/-- Nothing is remarked about a break exactly if it is laid out well. The colon of its branch stands
between the keyword and the break, so there is a last token in front of it. -/
theorem breakLaid_iff (hkeyword : switch.keyword < b.colon) (hcolon : b.colon < i)
    (hcontent : tokens.kindAt Kind.isContent b.colon = true) :
    b.BreakLaid tokens switch.closer (column + style.indent) i ↔
      ∀ r, ¬ b.BreakRemark style tokens switch column i r := by
  have hbefore := TokenSeq.belowLast_iff hkeyword hcolon hcontent
  constructor
  · intro hlaid r hr
    cases hr with
    | misplaced hnot => exact hnot hlaid.column_eq
    | empty hnot => exact hnot hlaid.code
    | before hnot => exact hnot (hbefore.mpr hlaid.before)
    | after hnot => exact hnot hlaid.after
  · intro hnone
    refine ⟨?_, ?_, hbefore.mp ?_, ?_⟩
    · by_contra hnot
      exact hnone _ (.misplaced hnot)
    · by_contra hnot
      exact hnone _ (.empty hnot)
    · by_contra hnot
      exact hnone _ (.before hnot)
    · by_contra hnot
      exact hnone _ (.after hnot)

/-- Nothing is remarked about the end of a case exactly if it is laid out well. -/
theorem endLaid_iff (hkeyword : switch.keyword < b.colon) (hb : b.Within tokens switch.closer)
    (hcontent : tokens.kindAt Kind.isContent b.colon = true) :
    b.EndLaid tokens switch.closer (column + style.indent) ↔
      ∀ r, ¬ b.EndRemark style tokens switch column r := by
  -- one remark at most is made where no break ends the case
  have hother : ∀ i last, b.Reaches tokens i last →
      (tokens.Separated switch.closer i last ↔
        ∀ r, ¬ b.EndRemark style tokens switch column r) := by
    intro i last hreaches
    simp only [hreaches.endRemark_iff, not_and, forall_eq, not_not]
  unfold EndLaid
  cases hterminator : b.terminator with
  | breakAt i =>
      have hcolon := (hb.terminator_mem i (by rw [hterminator]; rfl)).1
      simp only [endRemark_iff_of_breakAt hterminator]
      exact breakLaid_iff hkeyword hcolon hcontent
  | returnAt i | throwAt i =>
      refine TokenSeq.forall_firstOr_iff.trans (hother i _ ?_)
      rw [Reaches, hterminator]
      exact ⟨rfl, tokens.firstOr_getD_next _ i b.bodyEnd i⟩
  | fallthroughAt i =>
      apply hother
      rw [Reaches, hterminator]
      exact ⟨rfl, rfl⟩
  | absent => simp [endRemark_iff_of_absent hterminator]

/-- Nothing is remarked about a case exactly if it is laid out well. -/
theorem caseLaid_iff (hkeyword : switch.keyword < b.colon) (hb : b.Within tokens switch.closer)
    (hcontent : tokens.kindAt Kind.isContent b.colon = true) :
    b.CaseLaid tokens switch.closer column (column + style.indent) ↔
      ∀ r, ¬ b.CaseRemark style tokens switch column r := by
  have hending : b.EndLaid tokens switch.closer (column + style.indent) ↔
      ∀ r, ¬ b.EndRemark style tokens switch column r := endLaid_iff hkeyword hb hcontent
  constructor
  · intro hlaid r hr
    cases hr with
    | label hr => exact labelLaid_iff.mp hlaid.label r hr
    | unspaced hnot => exact hnot hlaid.spaced
    | ending hstacked hr => exact hending.mp (hlaid.ending hstacked) r hr
    | detached hnot => exact hnot hlaid.starts
  · intro hnone
    refine ⟨labelLaid_iff.mpr fun r hr => hnone r (.label hr), ?_, fun hstacked => ?_, ?_⟩
    · by_contra hnot
      exact hnone _ (.unspaced hnot)
    · exact hending.mpr fun r hr => hnone r (.ending hstacked hr)
    · by_contra hnot
      exact hnone _ (.detached hnot)

/-- Nothing is remarked about the default branch exactly if it is laid out well. -/
theorem defaultLaid_iff :
    b.DefaultLaid tokens switch.closer column (column + style.indent) ↔
      ∀ r, ¬ b.DefaultRemark style tokens switch column r := by
  constructor
  · intro hlaid r hr
    cases hr with
    | label hr => exact labelLaid_iff.mp hlaid.label r hr
    | misplaced hbreak hnot => exact hnot (hlaid.break_column _ hbreak)
    | after hbreak hlast hj hnot => exact hnot (hlaid.break_after _ hbreak _ _ hlast hj)
    | empty hnot => exact hnot hlaid.content
    | detached hnot => exact hnot hlaid.starts
  · intro hnone
    refine ⟨labelLaid_iff.mpr fun r hr => hnone r (.label hr), fun i hbreak => ?_,
      fun i hbreak last j hlast hj => ?_, ?_, ?_⟩
    · by_contra hnot
      exact hnone _ (.misplaced hbreak hnot)
    · by_contra hnot
      exact hnone _ (.after hbreak hlast hj hnot)
    · by_contra hnot
      exact hnone _ (.empty hnot)
    · by_contra hnot
      exact hnone _ (.detached hnot)

end Branch

/-! ### The whole switch -/

/-- The parts of a switch lie in the sequence. -/
theorem Switch.within_of_ofKeyword {pairs : List (Kind × String)} {marker : String}
    (h : ofKeyword (.ofPairs pairs) keyword marker = .ok (.ok switch)) :
    switch.Within (.ofPairs pairs) := by
  obtain ⟨t, ht, -⟩ := Option.bind_eq_some_iff.mp (parts_of_ofKeyword h).opener_eq
  have hends : Ends True (ofKeyword (.ofPairs pairs) keyword marker) _ :=
    ends_ofKeyword (TokenSeq.links_ofPairs pairs) (TokenSeq.lt_size_of_get? ht)
  obtain ⟨found, hfound, hwithin⟩ := hends.exists_of_fits trivial
  cases h.symm.trans hfound
  exact hwithin switch rfl

/-- The colon of a branch is content behind the keyword. -/
theorem Switch.Parts.colon_content {pairs : List (Kind × String)}
    (h : Parts (TokenSeq.ofPairs pairs) keyword switch) (hb : b ∈ switch.branches) :
    keyword < b.colon ∧ (TokenSeq.ofPairs pairs).kindAt Kind.isContent b.colon = true := by
  have hlinks := TokenSeq.links_ofPairs pairs
  obtain ⟨-, -, hlabel⟩ := h.isLabelOf hb
  have hlt : b.label < (TokenSeq.ofPairs pairs).size := TokenSeq.lt_size_of_kindAt hlabel.1
  obtain ⟨hcolon, -, hkind⟩ := (hlinks.label b.label (hlinks.size_eq ▸ hlt) hlabel.labelAt).2
    b.colon (h.parted.opener_eq b hb)
  have howner := hlabel.2
  rw [TokenSeq.owner_eq_head?] at howner
  have hkeyword := TokenSeq.lt_of_mem_enclosing hlt (List.mem_of_head? howner)
  refine ⟨hkeyword.trans hcolon, TokenSeq.kindAt_iff.mpr ⟨.colon, ?_, rfl⟩⟩
  rw [TokenSeq.kinds_ofPairs, hkind]

/-- Nothing is remarked about a switch that was taken apart exactly if it is laid out well. -/
theorem SwitchStyle.laidFrom_iff {pairs : List (Kind × String)}
    (hparts : Switch.Parts (TokenSeq.ofPairs pairs) switch.keyword switch)
    (hwithin : switch.Within (TokenSeq.ofPairs pairs)) :
    style.LaidFrom (TokenSeq.ofPairs pairs) switch column ↔
      ∀ r, ¬ style.Remark (TokenSeq.ofPairs pairs) switch column r := by
  have hcase : ∀ b ∈ switch.cases,
      (b.CaseLaid (TokenSeq.ofPairs pairs) switch.closer (column + style.indent)
        (column + style.indent + style.indent) ↔
      ∀ r, ¬ b.CaseRemark style (TokenSeq.ofPairs pairs) switch (column + style.indent) r) := by
    intro b hb
    have hmem := Switch.mem_branches_of_mem_cases hb
    obtain ⟨hkeyword, hcontent⟩ := hparts.colon_content hmem
    exact Branch.caseLaid_iff hkeyword (hwithin.branches b hmem) hcontent
  constructor
  · intro hlaid r hr
    cases hr with
    | noCase hnil => exact hlaid.has_case hnil
    | ofCase hb hr => exact (hcase _ hb).mp (hlaid.cases _ hb) r hr
    | noDefault hnone =>
        obtain ⟨b, hb, -⟩ := hlaid.default
        rw [hnone] at hb
        cases hb
    | ofDefault hb hr =>
        obtain ⟨b', hb', hdefault⟩ := hlaid.default
        cases hb.symm.trans hb'
        exact Branch.defaultLaid_iff.mp hdefault r hr
    | brace hnot => exact hnot hlaid.closing
  · intro hnone
    refine ⟨fun hnil => hnone _ (.noCase hnil), fun b hb => ?_, ?_, ?_⟩
    · exact (hcase b hb).mpr fun r hr => hnone r (.ofCase hb hr)
    · cases hdefault : switch.default? with
      | none => exact absurd (.noDefault hdefault) (hnone _)
      | some b =>
          exact ⟨b, rfl, Branch.defaultLaid_iff.mpr fun r hr => hnone r (.ofDefault hdefault hr)⟩
    · by_contra hnot
      exact hnone _ (.brace hnot)

namespace SwitchLayout

/-- The rule reports the remarks. -/
theorem check_eq_ok {u : SourceUnit} {remarks : List SwitchRemark}
    (h : style.remarks u.tokens i = .ok remarks) :
    check style u i = .ok {
      violations := remarks.map fun r => id.violation u r.index .error r.problem.message
      events := remarks.filterMap event? } := by
  rw [check, h]
  rfl

/-- **What the rule does at a switch that was taken apart.** It has a result exactly if the columns
that are compared fit in a word, and its violations are the remarks about the switch, each one at
its token and with its message. -/
theorem ends_check {u : SourceUnit} {t : Token}
    (h : Switch.ofKeyword u.tokens i style.marker = .ok (.ok switch))
    (hwithin : switch.Within u.tokens) (ht : u.tokens.get? switch.keyword = some t) :
    Ends (style.SumsFit switch t.column) (check style u i) fun found =>
      style.SumsFit switch t.column ∧ ∃ remarks : List SwitchRemark,
        found.violations =
          (remarks.map fun r => id.violation u r.index .error r.problem.message) ∧
        ∀ r, r ∈ remarks ↔ style.Remark u.tokens switch t.column r := by
  have hremarks : style.remarks u.tokens i = style.switchRemarks u.tokens switch := by
    rw [SwitchStyle.remarks, h]
    rfl
  rw [check, hremarks]
  refine (SwitchStyle.ends_switchRemarks hwithin ht).bind ?_
  rintro remarks ⟨hfits, hmem⟩
  exact Ends.pure ⟨hfits, remarks, rfl, hmem⟩

/-- It reports nothing there exactly if the switch is laid out well. -/
theorem violations_eq_nil_iff {u : SourceUnit} {pairs : List (Kind × String)}
    {found : Inspection} (hu : u.tokens = .ofPairs pairs)
    (h : Switch.ofKeyword u.tokens i style.marker = .ok (.ok switch))
    (hcheck : check style u i = .ok found) :
    found.violations = [] ↔ style.Laid u.tokens switch := by
  have hparts : Switch.Parts u.tokens switch.keyword switch := by
    have hparts := Switch.parts_of_ofKeyword h
    rwa [hparts.keyword_eq]
  rw [hu] at hparts
  have hwithin : switch.Within (.ofPairs pairs) := Switch.within_of_ofKeyword (hu ▸ h)
  obtain ⟨t, ht⟩ := TokenSeq.exists_get? hwithin.keyword_lt
  obtain ⟨-, remarks, hviolations, hmem⟩ :=
    (ends_check h (hu ▸ hwithin) (hu ▸ ht)).of_eq_ok hcheck
  -- no violation is no remark
  rw [hviolations, List.map_eq_nil_iff, List.eq_nil_iff_forall_not_mem, hu, SwitchStyle.Laid,
    TokenSeq.at_iff ht, SwitchStyle.laidFrom_iff hparts hwithin]
  simp only [hmem, hu]

/-- **The rule accepts exactly the switches that are laid out well**, if the columns behind that of
the keyword fit in a word. A switch that cannot be taken apart is one error at the keyword; at any
other there is a result, and it has no violation exactly if the switch is laid out well. -/
theorem check_eq_nil_iff_laid (style : SwitchStyle) (path : String) (comments : CommentReader)
    (pairs : List (Kind × String)) (keyword : Nat) (hkeyword : keyword < pairs.length)
    (hfits : ∀ t, (TokenSeq.ofPairs pairs).get? keyword = some t →
      t.column + style.indent + style.indent ≤ maxWord) :
    let u : SourceUnit := { path, tokens := TokenSeq.ofPairs pairs, comments }
    (∃ e found v, Switch.ofKeyword u.tokens keyword style.marker = .ok (.error e) ∧
      check style u keyword = .ok found ∧ found.violations = [v] ∧ v.severity = .error ∧
      v.location.token = keyword ∧ v.message = e.message) ∨
    ∃ switch found, Switch.ofKeyword u.tokens keyword style.marker = .ok (.ok switch) ∧
      check style u keyword = .ok found ∧
      (found.violations = [] ↔ style.Laid u.tokens switch) := by
  intro u
  have hlinks := TokenSeq.links_ofPairs pairs
  have hsize : keyword < u.tokens.size := by
    rw [hlinks.size_eq, List.length_map]
    exact hkeyword
  have hends : Ends True (Switch.ofKeyword u.tokens keyword style.marker) _ :=
    Switch.ends_ofKeyword hlinks hsize
  obtain ⟨found, hof, hfound⟩ := hends.exists_of_fits trivial
  cases found with
  | error e =>
      have hremarks : style.remarks u.tokens keyword = .ok [⟨keyword, .malformed e⟩] := by
        rw [SwitchStyle.remarks, hof]
        rfl
      exact Or.inl ⟨e, _, _, hof, check_eq_ok hremarks, rfl, rfl, SourceUnit.location_token hsize,
        rfl⟩
  | ok switch =>
      have hwithin := hfound switch rfl
      obtain ⟨t, ht⟩ := TokenSeq.exists_get? hwithin.keyword_lt
      have hkeyword : switch.keyword = keyword := (Switch.parts_of_ofKeyword hof).keyword_eq
      obtain ⟨found, hcheck, -⟩ := (ends_check hof hwithin ht).exists_of_fits
        (SwitchStyle.sumsFit_of_le (hfits t (hkeyword ▸ ht)))
      exact Or.inr ⟨switch, found, hof, hcheck, violations_eq_nil_iff rfl hof hcheck⟩

/-- A switch with a case and a default, laid out well. -/
def tidySwitch : List (Kind × String) :=
  [(.kwSwitch, "switch"), (.openBrace, "\x7b"), (.whitespace, "\n    "), (.kwCase, "case"),
    (.whitespace, " "), (.literal, "1"), (.colon, ":"), (.whitespace, "\n        "),
    (.identifier, "run"), (.semicolon, ";"), (.whitespace, "\n        "), (.kwBreak, "break"),
    (.semicolon, ";"), (.whitespace, "\n\n    "), (.kwDefault, "default"), (.colon, ":"),
    (.whitespace, "\n        "), (.identifier, "stop"), (.semicolon, ";"), (.whitespace, "\n"),
    (.closeBrace, "\x7d")]

/-- The rule reports nothing there, and so the switch is laid out well. -/
theorem check_eq_nil_iff_laid_tidySwitch :
    ∃ switch, Switch.ofKeyword (TokenSeq.ofPairs tidySwitch) 0 "// break omitted" =
      .ok (.ok switch) ∧ SwitchStyle.Laid {} (TokenSeq.ofPairs tidySwitch) switch := by
  have hremarks : SwitchStyle.remarks {} (TokenSeq.ofPairs tidySwitch) 0 = .ok [] := by
    decide +kernel
  have hcolumn : ((TokenSeq.ofPairs tidySwitch).get? 0).map (·.column) = some 1 := by
    decide +kernel
  have hfits : ∀ t, (TokenSeq.ofPairs tidySwitch).get? 0 = some t → t.column + 4 + 4 ≤ maxWord := by
    intro t ht
    rw [ht, Option.map_some, Option.some.injEq] at hcolumn
    rw [hcolumn]
    decide
  let u : SourceUnit :=
    { path := "", tokens := TokenSeq.ofPairs tidySwitch, comments := DocBlock.reader }
  have hcheck := check_eq_ok (u := u) hremarks
  rcases check_eq_nil_iff_laid {} "" DocBlock.reader tidySwitch 0 (by decide) hfits with
    ⟨e, found, v, -, hfound, hv, -⟩ | ⟨switch, found, hswitch, hfound, hiff⟩
  · rw [hcheck, Except.ok.injEq] at hfound
    rw [← hfound] at hv
    cases hv
  · rw [hcheck, Except.ok.injEq] at hfound
    exact ⟨switch, hswitch, hiff.mp (by rw [← hfound]; rfl)⟩

end SwitchLayout

end PhpStyle
