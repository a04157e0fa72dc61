import PhpStyle.Proofs.Lexemes
import PhpStyle.Proofs.Switch.Layout

/-!
# Blank lines around the end of a case

The rule on switches counts lines from the start of one token to the start of another. What it
should count are lines from the end of the first one (`Token.endLine`), which is another line if a
comment, a string or a statement goes over several lines. Here it is said when an error is reported
at the end of a case, and when this is the same (`SwitchLayout.reports_noBlankAfterEnding`,
`SwitchLayout.reports_blankBeforeBreak`).

The checks of a switch are known as remarks, that is as problems at tokens, and what is reported is
a message at a token. There are three steps from one to the other.

* The problems that the two results are about are found at the token that ends a case, and nowhere
  else (`SwitchStyle.remark_iff_of_isAtEnd`): each way to make a remark is gone through.
* The case is known by this token. Bodies follow one another, so no two branches end at the same
  one (`Switch.Parts.eq_of_index?`), and what is remarked there is remarked about this case
  (`SwitchStyle.remark_iff_endRemark`).
* The problem is known by its message (`SwitchProblem.eq_of_message_eq`): the messages with a part
  that is not fixed begin or end with other letters, and the fixed ones are compared.

`SwitchLayout.reports_iff` puts these together, for every file and every style. What remains is to
compare lines: from the start and from the end of what is on one line they are the same
(`TokenSeq.OnOneLine.below_iff_belowEnd`). A break has one token in front of it, and tokens of other
kinds than comments and strings are on one line if they are cut from a text
(`TokenSeq.LastOf.kind_of_not_onOneLine`). Both differences are real: `wrappedReturn` and
`wrappedRemark` are reported with the right number of lines.
-/

namespace PhpStyle

variable {tokens : TokenSeq} {keyword column i : Nat} {b b' : Branch} {switch : Switch}
  {style : SwitchStyle} {r : SwitchRemark} {q : SwitchProblem} {pairs : List (Kind × String)}

/-! ### Where tokens end -/

/-- The line on which a token ends. A newline at its end is not counted. -/
def Token.endLine (t : Token) : Nat := t.line + t.text.toList.dropLast.count '\n'

/-- The token `j` starts `n` lines below the line on which the token `i` ends. -/
def TokenSeq.BelowEnd (s : TokenSeq) (n i j : Nat) : Prop :=
  s.At i fun t => s.At j fun u => u.line = t.endLine + n

/-- The tokens from `i` to `last` end on the line on which they start. -/
def TokenSeq.OnOneLine (s : TokenSeq) (i last : Nat) : Prop :=
  s.At i fun t => s.At last fun u => u.endLine = t.line

namespace TokenSeq

variable {s : TokenSeq} {source : String} {n j last p : Nat}

instance : Decidable (s.BelowEnd n i j) :=
  inferInstanceAs (Decidable (s.At i fun t => s.At j fun u => u.line = t.endLine + n))

instance : Decidable (s.OnOneLine i last) :=
  inferInstanceAs (Decidable (s.At i fun t => s.At last fun u => u.endLine = t.line))

/-- Lines are the same from the start and from the end of what is on one line. -/
theorem OnOneLine.below_iff_belowEnd (h : s.OnOneLine i last) : s.Below n i j ↔
    s.BelowEnd n last j := by
  obtain ⟨t, ht, v, hv, hline⟩ := h
  rw [Below, BelowEnd, at_iff ht, at_iff hv, hline]

/-- The last token in front of one that is no tag is a comment or a string if it goes over several
lines. Text outside the tags does not come into question, because a tag follows it. -/
theorem LastOf.kind_of_not_onOneLine (h : (ofSource source).LastOf Kind.isContent 0 i p)
    (hi : i < (ofSource source).size) (htag : (ofSource source).kindAt (· == .openTag) i = false)
    (hlines : ¬ (ofSource source).OnOneLine p p) :
    (ofSource source).At p fun t => t.kind = .comment ∨ t.kind = .literal := by
  have hlt := h.lt_stop
  obtain ⟨t, ht⟩ := exists_get? (hlt.trans hi)
  obtain ⟨v, hv⟩ := exists_get? (Nat.lt_of_le_of_lt hlt hi)
  rw [at_iff ht]
  -- no tag follows: neither right behind, nor behind the blank tokens up to `i`
  have hnext : v.kind ≠ .openTag := by
    intro hkind
    obtain heq | hlt := Nat.eq_or_lt_of_le (Nat.succ_le_of_lt hlt)
    · rw [← heq, kindAt_of_get? hv, hkind] at htag
      cases htag
    · have hblank := h.behind (p + 1) (Nat.lt_succ_self p) hlt
      rw [kindAt_of_get? hv, hkind] at hblank
      cases hblank
  have hmarkup : t.kind ≠ .inlineHtml := fun hkind => hnext ((adjoins_of_get? ht hv).markup hkind)
  by_contra hother
  have hwraps : t.kind.wraps = false := by
    revert hother hmarkup
    cases t.kind <;> simp [Kind.wraps]
  -- so it is a piece without newlines inside, and on one line after all
  refine hlines ⟨t, ht, t, ht, ?_⟩
  simp only [Token.endLine, Nat.add_eq_left, List.count_eq_zero]
  exact newline_notMem_dropLast_of_mem_scan (mem_scan_of_get? ht) hwraps

end TokenSeq

/-! ### Problems at the end of a case -/

/-- The problems that are found at the token that ends a case, and nowhere else. -/
def SwitchProblem.isAtEnd : SwitchProblem → Bool
  | blankBeforeBreak | noBlankAfterBreak | noBlankAfterEnding => true
  | _ => false

/-- How the message on a missing end begins. -/
def SwitchProblem.noTerminatorLead : String :=
  "CASE statement must have a BREAK, THROW or RETURN statement or the following comment: "

/-- **Such a problem is known by its message.** Messages with a word, a number or a marker in them
begin or end with other letters. -/
theorem SwitchProblem.eq_of_message_eq {p : SwitchProblem} (hq : q.isAtEnd = true)
    (h : p.message = q.message) : p = q := by
  have hmem : q ∈ [blankBeforeBreak, noBlankAfterBreak, noBlankAfterEnding] := by
    cases q with
    | blankBeforeBreak | noBlankAfterBreak | noBlankAfterEnding => decide
    | _ => cases hq
  have hhead : ∀ q ∈ [blankBeforeBreak, noBlankAfterBreak, noBlankAfterEnding],
      q.message.toList.head? ≠ some 'C' := by decide
  have hlast : ∀ q ∈ [blankBeforeBreak, noBlankAfterBreak, noBlankAfterEnding],
      q.message.toList.getLast? = some 's' ∨ q.message.toList.getLast? = some 'e' := by decide
  replace hhead := hhead q hmem
  replace hlast : ∀ c, c ≠ 's' → c ≠ 'e' → q.message.toList.getLast? ≠ some c := by
    intro c hs he
    rcases hlast q hmem with hlast | hlast
    · simpa [hlast] using hs.symm
    · simpa [hlast] using he.symm
  -- five messages have parts that are not fixed: four of them end otherwise, one begins otherwise
  cases p with
  | malformed cause =>
      cases cause with
      | missingColon =>
          exact absurd h (append_ne_of_getLast? (t := " statement has no colon") rfl
            (hlast 'n' (by decide) (by decide)))
      | _ =>
          clear hq hhead hlast
          revert q
          decide
  | notLower =>
      exact absurd h (append_ne_of_getLast? (t := "\"") rfl (hlast '"' (by decide) (by decide)))
  | labelColumn =>
      exact absurd h (append_ne_of_getLast? (t := " spaces from SWITCH keyword") rfl
        (hlast 'd' (by decide) (by decide)))
  | spaceBeforeColon =>
      exact absurd h
        (append_ne_of_getLast? (t := " statement") rfl (hlast 't' (by decide) (by decide)))
  | breakColumn =>
      exact absurd h (append_ne_of_getLast? (t := " spaces from CASE keyword") rfl
        (hlast 'd' (by decide) (by decide)))
  | noTerminator =>
      exact absurd h (append_ne_of_head? (s := noTerminatorLead) rfl hhead)
  | _ =>
      clear hq hhead hlast
      revert q
      decide

/-- No such problem is found at a label. -/
theorem Branch.LabelRemark.not_isAtEnd (h : b.LabelRemark style tokens column r) :
    r.problem.isAtEnd = false := by
  cases h <;> rfl

/-- One that is found at the end of a case is found at the token that ends it. -/
theorem Branch.EndRemark.index?_eq (h : b.EndRemark style tokens switch column r)
    (hproblem : r.problem.isAtEnd = true) : b.terminator.index? = some r.index := by
  cases h with
  | atBreak hbreak hr =>
      rw [hbreak]
      cases hr with
      | misplaced | empty => cases hproblem
      | before | after => rfl
  | atEnding hreaches => exact hreaches.index?_eq
  | absent => cases hproblem

/-- **Only the ends of cases have such problems.** Of all that is remarked about a switch, these are
what is remarked about the end of a case that is not stacked. -/
theorem SwitchStyle.remark_iff_of_isAtEnd (hproblem : r.problem.isAtEnd = true) :
    style.Remark tokens switch column r ↔ ∃ b ∈ switch.cases, b.stacked = false ∧
      b.EndRemark style tokens switch (column + style.indent) r := by
  have hlabel : ∀ {b : Branch}, ¬ b.LabelRemark style tokens (column + style.indent) r := by
    intro b hr
    rw [hr.not_isAtEnd] at hproblem
    cases hproblem
  constructor
  · intro hr
    cases hr with
    | noCase | noDefault | brace => cases hproblem
    | ofCase hb hr =>
        cases hr with
        | label hr => exact absurd hr hlabel
        | unspaced | detached => cases hproblem
        | ending hstacked hr => exact ⟨_, hb, hstacked, hr⟩
    | ofDefault hb hr =>
        cases hr with
        | label hr => exact absurd hr hlabel
        | misplaced | after | empty | detached => cases hproblem
  · rintro ⟨b, hb, hstacked, hr⟩
    exact .ofCase hb (.ending hstacked hr)

/-! ### Branches apart -/

namespace Switch.Parts

/-- The body of a branch ends in front of the labels of all later ones. -/
theorem bodyEnd_le_label {n m : Nat} (h : Parts tokens keyword switch)
    (hn : switch.branches[n]? = some b) (hm : switch.branches[m]? = some b') (hlt : n < m) :
    b.bodyEnd ≤ b'.label := by
  have hsorted := h.collected.sorted
  rw [List.pairwise_map] at hsorted
  obtain ⟨hm', rfl⟩ := List.getElem?_eq_some_iff.mp hm
  rw [h.parted.bodyEnd_eq n b hn, List.getElem?_map, List.getElem?_eq_getElem (by omega),
    Option.map_some, Option.getD_some]
  -- it ends at the next label, and labels are in order
  obtain rfl | hlt := Nat.eq_or_lt_of_le (Nat.succ_le_of_lt hlt)
  · exact le_rfl
  · exact (List.pairwise_iff_getElem.mp hsorted (n + 1) m (by omega) hm' hlt).le

/-- **No two branches end at the same token.** -/
theorem eq_of_index? (h : Parts tokens keyword switch) (hwithin : switch.Within tokens)
    (hb : b ∈ switch.branches) (hb' : b' ∈ switch.branches) (hi : b.terminator.index? = some i)
    (hi' : b'.terminator.index? = some i) : b = b' := by
  obtain ⟨n, hn⟩ := List.mem_iff_getElem?.mp hb
  obtain ⟨m, hm⟩ := List.mem_iff_getElem?.mp hb'
  obtain ⟨hcolon, hend⟩ := (hwithin.branches b hb).terminator_mem i hi
  obtain ⟨hcolon', hend'⟩ := (hwithin.branches b' hb').terminator_mem i hi'
  have hlabel := (hwithin.branches b hb).label_lt
  have hlabel' := (hwithin.branches b' hb').label_lt
  -- the token is in both bodies, and the earlier body ends in front of the later label
  rcases Nat.lt_trichotomy n m with hlt | rfl | hlt
  · have := h.bodyEnd_le_label hn hm hlt
    omega
  · exact Option.some.inj (hn.symm.trans hm)
  · have := h.bodyEnd_le_label hm hn hlt
    omega

end Switch.Parts

namespace SwitchStyle

/-- Such a problem is found at a token that is there. -/
theorem Remark.index_lt_size (h : style.Remark tokens switch column r)
    (hwithin : switch.Within tokens) (hproblem : r.problem.isAtEnd = true) :
    r.index < tokens.size := by
  obtain ⟨b, hb, -, hr⟩ := (remark_iff_of_isAtEnd hproblem).mp h
  exact ((hwithin.branches b (Switch.mem_branches_of_mem_cases hb)).terminator_lt hwithin.closer_lt
    (hr.index?_eq hproblem)).2

/-- **A problem at the end of a case is remarked about that case**, and about no other one: no two
branches end at the same token. -/
theorem remark_iff_endRemark (hparts : Switch.Parts tokens keyword switch)
    (hwithin : switch.Within tokens) (hb : b ∈ switch.cases) (hi : b.terminator.index? = some i)
    (hq : q.isAtEnd = true) :
    style.Remark tokens switch column ⟨i, q⟩ ↔ b.stacked = false ∧
      b.EndRemark style tokens switch (column + style.indent) ⟨i, q⟩ := by
  rw [remark_iff_of_isAtEnd hq]
  constructor
  · rintro ⟨b', hb', hstacked, hr⟩
    obtain rfl := hparts.eq_of_index? hwithin (Switch.mem_branches_of_mem_cases hb)
      (Switch.mem_branches_of_mem_cases hb') hi (hr.index?_eq hq)
    exact ⟨hstacked, hr⟩
  · rintro ⟨hstacked, hr⟩
    exact ⟨b, hb, hstacked, hr⟩

end SwitchStyle

/-! ### Single ends -/

/-- A case ends at the token `i` with a return, a throw or a comment. The statement reaches to its
first semicolon, `last`; a comment is its own last token. -/
def Branch.EndsIn (tokens : TokenSeq) (b : Branch) (i last : Nat) : Prop :=
  match b.terminator with
  | .returnAt k | .throwAt k => k = i ∧ tokens.FirstOf (· == .semicolon) i b.bodyEnd last
  | .fallthroughAt k => k = i ∧ last = i
  | .breakAt _ | .absent => False

variable {last : Nat}

/-- Such an end reaches to its last token. -/
theorem Branch.EndsIn.reaches (h : b.EndsIn tokens i last) : b.Reaches tokens i last := by
  unfold Branch.EndsIn at h
  unfold Branch.Reaches
  cases hterminator : b.terminator with
  | returnAt k | throwAt k =>
      rw [hterminator] at h
      exact ⟨h.1, Or.inl h.2⟩
  | fallthroughAt k =>
      rw [hterminator] at h
      exact h
  | breakAt k | absent =>
      rw [hterminator] at h
      exact h

/-! ### What is reported -/

/-- There is a violation with the message at the token `i`. -/
def Inspection.Reports (found : Inspection) (i : Nat) (message : String) : Prop :=
  ∃ v ∈ found.violations, v.location.token = i ∧ v.message = message

instance (found : Inspection) (i : Nat) (message : String) : Decidable (found.Reports i message) :=
  inferInstanceAs (Decidable (∃ v ∈ found.violations, v.location.token = i ∧ v.message = message))

namespace SwitchLayout

variable {u : SourceUnit}

/-- A problem at the end of a case is reported where it is remarked: no other problem has its
message. -/
theorem reports_iff_mem {found : Inspection} {remarks : List SwitchRemark}
    (hviolations : found.violations = remarks.map fun r =>
      id.violation u r.index .error r.problem.message)
    (hsize : ∀ r ∈ remarks, r.problem.isAtEnd = true → r.index < u.tokens.size)
    (hq : q.isAtEnd = true) : found.Reports i q.message ↔ ⟨i, q⟩ ∈ remarks := by
  have htoken : ∀ r ∈ remarks, r.problem = q → (u.location r.index).token = r.index := by
    rintro r hr rfl
    exact SourceUnit.location_token (hsize r hr hq)
  rw [Inspection.Reports, hviolations]
  constructor
  · rintro ⟨v, hv, rfl, hmessage⟩
    obtain ⟨r, hr, rfl⟩ := List.mem_map.mp hv
    have hproblem : r.problem = q := SwitchProblem.eq_of_message_eq hq hmessage
    rw [← hproblem]
    exact (htoken r hr hproblem).symm ▸ hr
  · intro hr
    exact ⟨_, List.mem_map_of_mem hr, htoken _ hr rfl, rfl⟩

/-- **The errors at the end of a case are what is remarked about it.** A switch that was taken apart
has a result, unless a column does not fit in a word. -/
theorem reports_iff (hu : u.tokens = .ofPairs pairs)
    (h : Switch.ofKeyword u.tokens keyword style.marker = .ok (.ok switch)) (hb : b ∈ switch.cases)
    (hi : b.terminator.index? = some i) (hq : q.isAtEnd = true) :
    (check style u keyword = .error .overflow ∧
      u.tokens.At keyword fun t => maxWord < t.column + style.indent + style.indent) ∨
    ∃ found column, check style u keyword = .ok found ∧
      (found.Reports i q.message ↔
        b.stacked = false ∧ b.EndRemark style u.tokens switch column ⟨i, q⟩) := by
  have hparts := Switch.parts_of_ofKeyword h
  have hwithin : switch.Within u.tokens := hu ▸ Switch.within_of_ofKeyword (hu ▸ h)
  obtain ⟨t, ht⟩ := TokenSeq.exists_get? hwithin.keyword_lt
  have hends : Ends (t.column + style.indent + style.indent ≤ maxWord) _ _ :=
    (ends_check h hwithin ht).weaken SwitchStyle.sumsFit_of_le
  rcases hends.result_or_overflow with ⟨found, hcheck⟩ | ⟨hover, hfits⟩
  · obtain ⟨-, remarks, hviolations, hmem⟩ := hends.of_eq_ok hcheck
    refine Or.inr ⟨found, t.column + style.indent, hcheck, ?_⟩
    rw [reports_iff_mem hviolations (fun r hr => ((hmem r).mp hr).index_lt_size hwithin) hq, hmem,
      SwitchStyle.remark_iff_endRemark hparts hwithin hb hi hq]
  · exact Or.inl ⟨hover, t, hparts.keyword_eq ▸ ht, not_le.mp hfits⟩

/-- **When the blank line behind a return, a throw or a comment is missed**, at the end of a case
that is not stacked. The error is reported exactly if something follows in the switch, and does not
start two lines below the line on which the statement starts. For a statement on one line this is
the line on which it ends. -/
theorem reports_noBlankAfterEnding (style : SwitchStyle) (path : String) (comments : CommentReader)
    (pairs : List (Kind × String)) (keyword : Nat) (switch : Switch)
    (h : Switch.ofKeyword (.ofPairs pairs) keyword style.marker = .ok (.ok switch)) (b : Branch)
    (hb : b ∈ switch.cases) (hstacked : b.stacked = false) (i last : Nat)
    (hend : b.EndsIn (.ofPairs pairs) i last) :
    let u : SourceUnit := { path, tokens := .ofPairs pairs, comments }
    let message := "THROW/RETURN/COMMENT statement must be followed by a single blank line"
    (check style u keyword = .error .overflow ∧
      u.tokens.At keyword fun t => maxWord < t.column + style.indent + style.indent) ∨
    ∃ found, check style u keyword = .ok found ∧
      (found.Reports i message ↔
        ∃ j, u.tokens.FirstOf Kind.isContent (last + 1) switch.closer j ∧ ¬ u.tokens.Below 2 i j) ∧
      (u.tokens.OnOneLine i last → (found.Reports i message ↔
        ∃ j, u.tokens.FirstOf Kind.isContent (last + 1) switch.closer j ∧
          ¬ u.tokens.BelowEnd 2 last j)) := by
  intro u message
  have hreaches := hend.reaches
  rcases reports_iff (u := u) (q := .noBlankAfterEnding) rfl h hb hreaches.index?_eq rfl with
    hover | ⟨found, column, hcheck, hreports⟩
  · exact Or.inl hover
  · have hiff : found.Reports i message ↔
        ∃ j, u.tokens.FirstOf Kind.isContent (last + 1) switch.closer j ∧
          ¬ u.tokens.Below 2 i j := by
      refine hreports.trans ?_
      rw [hreaches.endRemark_iff, TokenSeq.Separated]
      simp [hstacked, u]
    refine Or.inr ⟨found, hcheck, hiff, fun hline => ?_⟩
    simp only [← hline.below_iff_belowEnd]
    exact hiff

/-- A return on one line, and no blank line behind it. -/
def shortReturn : String := "<?php switch()\x7bcase 1:\nreturn 1;\ndefault:\x7d"

/-- A return on two lines, and a blank line behind it. -/
def wrappedReturn : String := "<?php switch()\x7bcase 1:\nreturn\n1;\n\ndefault:\x7d"

/-- What follows the return on one line is on the next line, and this is reported. -/
theorem reports_noBlankAfterEnding_shortReturn :
    (TokenSeq.ofSource shortReturn).OnOneLine 10 13 ∧
      ¬ (TokenSeq.ofSource shortReturn).BelowEnd 2 13 15 ∧
      ∃ found, check {} (.ofText shortReturn) 1 = .ok found ∧
        found.Reports 10
          "THROW/RETURN/COMMENT statement must be followed by a single blank line" := by
  have hswitch : Switch.ofKeyword (.ofSource shortReturn) 1 "// break omitted" =
      .ok (.ok ⟨1, 4, 17,
        [⟨5, false, 8, 15, false, .returnAt 10⟩, ⟨15, true, 16, 17, false, .absent⟩]⟩) := by
    decide +kernel
  have hend : Branch.EndsIn (.ofSource shortReturn) ⟨5, false, 8, 15, false, .returnAt 10⟩ 10 13 :=
    ⟨rfl, TokenSeq.next_eq_some_iff.mp (by decide +kernel)⟩
  have hnext : (TokenSeq.ofSource shortReturn).FirstOf Kind.isContent 14 17 15 :=
    TokenSeq.next_eq_some_iff.mp (by decide +kernel)
  obtain ⟨hline, hbelow, hfits⟩ : (TokenSeq.ofSource shortReturn).OnOneLine 10 13 ∧
      ¬ (TokenSeq.ofSource shortReturn).BelowEnd 2 13 15 ∧
      ¬ (TokenSeq.ofSource shortReturn).At 1 fun t => maxWord < t.column + 4 + 4 := by
    decide +kernel
  obtain ⟨-, hover⟩ | ⟨found, hcheck, -, hiff⟩ :=
    reports_noBlankAfterEnding {} "Foo.php" (fun _ => .ok {}) (lexemes shortReturn) 1 _ hswitch _
      List.mem_cons_self rfl 10 13 hend
  · exact absurd hover hfits
  · exact ⟨hline, hbelow, found, hcheck, (hiff hline).mpr ⟨15, hnext, hbelow⟩⟩

/-- **The return on two lines is reported although one blank line follows it.** -/
theorem reports_wrappedReturn :
    (∃ switch, Switch.ofKeyword (.ofSource wrappedReturn) 1 "// break omitted" = .ok (.ok switch) ∧
      (∃ b ∈ switch.cases, b.stacked = false ∧ b.EndsIn (.ofSource wrappedReturn) 10 13) ∧
      (TokenSeq.ofSource wrappedReturn).FirstOf Kind.isContent 14 switch.closer 16) ∧
    (TokenSeq.ofSource wrappedReturn).BelowEnd 2 13 16 ∧
    ∃ found, check {} (.ofText wrappedReturn) 1 = .ok found ∧
      found.Reports 10
        "THROW/RETURN/COMMENT statement must be followed by a single blank line" := by
  refine ⟨⟨⟨1, 4, 18, [⟨5, false, 8, 16, false, .returnAt 10⟩, ⟨16, true, 17, 18, false, .absent⟩]⟩,
    by decide +kernel, ⟨_, List.mem_cons_self, rfl, rfl, ?_⟩, ?_⟩, by decide +kernel,
    by decide +kernel⟩
  · exact TokenSeq.next_eq_some_iff.mp (by decide +kernel)
  · exact TokenSeq.next_eq_some_iff.mp (by decide +kernel)

/-- **When a break is said to be on the wrong line**, in any source text and at the end of a case
that is not stacked. There is a last token in front of the break, and the error is reported exactly
if the break is not on the line below the one on which that token starts. This is the line on which
it ends, unless it is a comment or a string over several lines. -/
theorem reports_blankBeforeBreak (style : SwitchStyle) (path source : String)
    (comments : CommentReader) (keyword : Nat) (switch : Switch)
    (h : Switch.ofKeyword (.ofSource source) keyword style.marker = .ok (.ok switch)) (b : Branch)
    (hb : b ∈ switch.cases) (hstacked : b.stacked = false) (i : Nat)
    (hbreak : b.terminator = .breakAt i) :
    let u : SourceUnit := { path, tokens := .ofSource source, comments }
    let message := "Blank lines are not allowed before BREAK statements"
    (check style u keyword = .error .overflow ∧
      u.tokens.At keyword fun t => maxWord < t.column + style.indent + style.indent) ∨
    ∃ found p, check style u keyword = .ok found ∧ u.tokens.LastOf Kind.isContent 0 i p ∧
      (found.Reports i message ↔ ¬ u.tokens.Below 1 p i) ∧
      (u.tokens.OnOneLine p p → (found.Reports i message ↔ ¬ u.tokens.BelowEnd 1 p i)) ∧
      (¬ u.tokens.OnOneLine p p → u.tokens.At p fun t => t.kind = .comment ∨
        t.kind = .literal) := by
  intro u message
  have hparts := Switch.parts_of_ofKeyword h
  have hmem : b ∈ switch.branches := (List.mem_filter.mp hb).1
  have hi : b.terminator.index? = some i := by
    rw [hbreak]
    rfl
  have hkind := hparts.parted.break_kind b hmem i hbreak
  obtain ⟨hkeyword, hcontent⟩ := hparts.colon_content hmem
  rcases reports_iff (u := u) (q := .blankBeforeBreak) rfl h hb hi rfl with
    hover | ⟨found, column, hcheck, hreports⟩
  · exact Or.inl hover
  · have hcolon := (((Switch.within_of_ofKeyword h).branches b hmem).terminator_mem i hi).1
    -- the colon of the label is in front of the break, so there is a last token there
    obtain ⟨p, hlast⟩ := TokenSeq.exists_lastOf hcontent hcolon
    have hbelow : u.tokens.BelowLast switch.keyword i ↔ u.tokens.Below 1 p i :=
      (TokenSeq.belowLast_iff (hparts.keyword_eq.trans_lt hkeyword) hcolon hcontent).trans
        hlast.exists_and_iff
    have hiff : found.Reports i message ↔ ¬ u.tokens.Below 1 p i := by
      refine hreports.trans ?_
      rw [Branch.endRemark_iff_of_breakAt hbreak, Branch.breakRemark_before_iff, hbelow]
      exact and_iff_right hstacked
    refine Or.inr ⟨found, p, hcheck, hlast, hiff, fun hline => ?_, fun hlines => ?_⟩
    · rw [← hline.below_iff_belowEnd]
      exact hiff
    · exact hlast.kind_of_not_onOneLine (TokenSeq.lt_size_of_kindAt hkind)
        (TokenSeq.kindAt_of_beq hkind) hlines

/-- A comment on one line in front of a break. The newline belongs to the comment. -/
def plainRemark : String := "<?php switch()\x7bcase 1:\n// one\nbreak;default:\x7d"

/-- A comment on two lines, and a break on the next line. -/
def wrappedRemark : String := "<?php switch()\x7bcase 1:\n/* one\n*/\nbreak;default:\x7d"

/-- The break is on the line below the comment on one line, and this is not reported. -/
theorem reports_blankBeforeBreak_plainRemark :
    (TokenSeq.ofSource plainRemark).OnOneLine 10 10 ∧
      (TokenSeq.ofSource plainRemark).BelowEnd 1 10 11 ∧
      ∃ found, check {} (.ofText plainRemark) 1 = .ok found ∧
        ¬ found.Reports 11 "Blank lines are not allowed before BREAK statements" := by
  have hswitch : Switch.ofKeyword (.ofSource plainRemark) 1 "// break omitted" =
      .ok (.ok ⟨1, 4, 15,
        [⟨5, false, 8, 13, false, .breakAt 11⟩, ⟨13, true, 14, 15, false, .absent⟩]⟩) := by
    decide +kernel
  have hlast : (TokenSeq.ofSource plainRemark).LastOf Kind.isContent 0 11 10 :=
    TokenSeq.prev_eq_some_iff.mp (by decide +kernel)
  obtain ⟨hline, hbelow, hfits⟩ : (TokenSeq.ofSource plainRemark).OnOneLine 10 10 ∧
      (TokenSeq.ofSource plainRemark).BelowEnd 1 10 11 ∧
      ¬ (TokenSeq.ofSource plainRemark).At 1 fun t => maxWord < t.column + 4 + 4 := by
    decide +kernel
  obtain ⟨-, hover⟩ | ⟨found, p, hcheck, hp, -, hiff, -⟩ :=
    reports_blankBeforeBreak {} "Foo.php" plainRemark (fun _ => .ok {}) 1 _ hswitch _
      List.mem_cons_self rfl 11 rfl
  · exact absurd hover hfits
  · obtain rfl := hlast.unique hp
    exact ⟨hline, hbelow, found, hcheck, fun hreports => (hiff hline).mp hreports hbelow⟩

/-- **The break below the comment on two lines is reported**, although there is no blank line. -/
theorem reports_wrappedRemark :
    (∃ switch, Switch.ofKeyword (.ofSource wrappedRemark) 1 "// break omitted" = .ok (.ok switch) ∧
      ∃ b ∈ switch.cases, b.stacked = false ∧ b.terminator = .breakAt 12) ∧
    (TokenSeq.ofSource wrappedRemark).LastOf Kind.isContent 0 12 10 ∧
    (TokenSeq.ofSource wrappedRemark).BelowEnd 1 10 12 ∧
    ∃ found, check {} (.ofText wrappedRemark) 1 = .ok found ∧
      found.Reports 12 "Blank lines are not allowed before BREAK statements" := by
  refine ⟨⟨⟨1, 4, 16, [⟨5, false, 8, 14, false, .breakAt 12⟩, ⟨14, true, 15, 16, false, .absent⟩]⟩,
    by decide +kernel, _, List.mem_cons_self, rfl, rfl⟩, ?_, by decide +kernel, by decide +kernel⟩
  exact TokenSeq.prev_eq_some_iff.mp (by decide +kernel)

end SwitchLayout

end PhpStyle
