import PhpStyle.Proofs.Checked
import PhpStyle.Proofs.Safety.Switch
import PhpStyle.Proofs.Search
import PhpStyle.Switch.Layout

/-!
# What the checks of a switch remark

The checks of a switch are many, and each has its own range of tokens. Here each of them gets
one statement, and what is proved elsewhere about the layout of switches rests on these: no
check is opened a second time.

A statement has two halves. One says which remarks are made, as a relation with a constructor for
each problem: `Branch.LabelRemark`, `Branch.BreakRemark`, `Branch.EndRemark`, `Branch.CaseRemark`,
`Branch.DefaultRemark`, and `SwitchStyle.Remark` for all of them. The relations speak of first and
last tokens of a range, of lines and of columns, and not of the searches. The other half says when
there is a result: exactly if the columns that are compared can be added up (`SwitchStyle.SumsFit`),
since everything else that is read lies in the sequence.

The proofs follow the checks from the inside out. Four searches for lines come first
(`Branch.ends_startsOnNextLine`, `ends_lineBefore`, `ends_isSeparated`, `ends_lineAfter`), then the
checks of a label and of a break (`ends_labelRemarks`, `ends_caseBreakRemarks`), of the end of a
case (`ends_terminatorRemarks`), of a whole branch (`ends_caseRemarks`, `ends_defaultPartRemarks`),
and of a switch (`ends_switchRemarks`). In each of them the tokens are read first, and then the list
of remarks is compared with the relation, problem by problem.

The order of the remarks, and how often one is made, is not part of the statements.
-/

namespace PhpStyle

/-! ### Places of tokens -/

namespace TokenSeq

/-- There is a token `i`, and it satisfies `P`. -/
def At (s : TokenSeq) (i : Nat) (P : Token → Prop) : Prop := ∃ t, s.get? i = some t ∧ P t

/-- Whether a token that is there satisfies `P` can be computed if `P` can. -/
instance decidableAt (s : TokenSeq) (i : Nat) (P : Token → Prop) [DecidablePred P] :
    Decidable (s.At i P) :=
  decidable_of_iff ((s.get? i).any fun t => decide (P t)) (by simp [At, Option.any_eq_true])

/-- The token `j` stands `n` lines below the token `i`. -/
def Below (s : TokenSeq) (n i j : Nat) : Prop := s.At i fun t => s.At j fun u => u.line = t.line + n

/-- What comes behind the token `last`, and before `closer`, stands two lines below the token `i`:
one blank line separates them. -/
def Separated (s : TokenSeq) (closer i last : Nat) : Prop :=
  ∀ j, s.FirstOf Kind.isContent (last + 1) closer j → s.Below 2 i j

/-- The token `i` is on the line below the last token between `keyword` and it, whitespace apart. If
there is none, it is on the first line. -/
def BelowLast (s : TokenSeq) (keyword i : Nat) : Prop :=
  (∃ j, s.LastOf Kind.isContent (keyword + 1) i j ∧ s.Below 1 j i) ∨
    (∀ j, keyword < j → j < i → s.kindAt Kind.isContent j = false) ∧ s.At i (·.line = 1)

variable {s : TokenSeq} {i j n last closer keyword : Nat} {t u : Token} {P : Token → Prop}

/-- What a token that is there satisfies. -/
theorem at_iff (ht : s.get? i = some t) : s.At i P ↔ P t := by
  constructor
  · rintro ⟨t', ht', hP⟩
    rw [ht, Option.some.injEq] at ht'
    rwa [ht']
  · intro hP
    exact ⟨t, ht, hP⟩

/-- The lines of two tokens that are there. -/
theorem below_iff (ht : s.get? i = some t) (hu : s.get? j = some u) :
    s.Below n i j ↔ u.line = t.line + n := by
  rw [Below, at_iff ht, at_iff hu]

/-- Nothing that comes behind is separated. -/
theorem separated_of_next_eq_none (h : s.next Kind.isContent (last + 1) (some closer) = none) :
    s.Separated closer i last := by
  intro j hj
  rw [next_eq_some_iff.mpr hj] at h
  cases h

/-- What comes behind is separated if its line is the right one. -/
theorem separated_iff (h : s.next Kind.isContent (last + 1) (some closer) = some j)
    (ht : s.get? i = some t) (hu : s.get? j = some u) :
    s.Separated closer i last ↔ u.line = t.line + 2 := by
  rw [← below_iff ht hu]
  constructor
  · intro hsep
    exact hsep j (next_eq_some_iff.mp h)
  · intro hbelow k hk
    rw [next_eq_some_iff.mpr hk, Option.some.injEq] at h
    rwa [h]

/-- Content between the keyword and a token is what the token is compared with: there is a last one,
wherever the search for it starts. -/
theorem belowLast_iff {colon : Nat} (hkeyword : keyword < colon) (hcolon : colon < i)
    (hcontent : s.kindAt Kind.isContent colon = true) :
    s.BelowLast keyword i ↔ ∃ j, s.LastOf Kind.isContent 0 i j ∧ s.Below 1 j i := by
  constructor
  · rintro (⟨j, hj, hbelow⟩ | ⟨hnone, -⟩)
    · exact ⟨j, ⟨Nat.zero_le j, hj.lt_stop, hj.holds, hj.behind⟩, hbelow⟩
    · rw [hnone colon hkeyword hcolon] at hcontent
      cases hcontent
  · rintro ⟨j, hj, hbelow⟩
    refine Or.inl ⟨j, ⟨?_, hj.lt_stop, hj.holds, hj.behind⟩, hbelow⟩
    -- the last one does not stand in front of the colon
    by_contra hlt
    rw [hj.behind colon (by omega) hcolon] at hcontent
    cases hcontent

/-- Whether there is code in a range that was read. -/
theorem any_not_isTrivia_iff {start stop : Nat} {body : List (Token × Nat)}
    (h : s.readRange start stop = .ok body) :
    (body.any fun (t, _) => !t.isTrivia) = true ↔
      ∃ j, start ≤ j ∧ j < stop ∧ s.At j (·.isTrivia = false) := by
  rw [List.any_eq_true]
  constructor
  · rintro ⟨⟨t, j⟩, hmem, htrivia⟩
    obtain ⟨hstart, hstop, ht⟩ := (mem_readRange h).mp hmem
    exact ⟨j, hstart, hstop, t, ht, by simpa using htrivia⟩
  · rintro ⟨j, hstart, hstop, t, ht, htrivia⟩
    exact ⟨(t, j), (mem_readRange h).mpr ⟨hstart, hstop, ht⟩, by simpa using htrivia⟩

end TokenSeq

/-! ### The remarks -/

namespace Branch

/-- **The content of a body ends** at the break that ends the body, or else with the body. -/
theorem bound_eq_iff {b : Branch} {n : Nat} : b.bound = n ↔
    b.terminator = .breakAt n ∨ (∀ i, b.terminator ≠ .breakAt i) ∧ b.bodyEnd = n := by
  unfold bound
  cases b.terminator <;> simp

/-- The first token of the content, or else the token at which the content ends, is on the
line below the label. -/
def StartsBelow (tokens : TokenSeq) (b : Branch) : Prop :=
  ∃ j, tokens.FirstOr Kind.isContent b.bodyStart b.bound b.bound j ∧ tokens.Below 1 b.label j

/-- What is remarked about a label that should stand in `column`. -/
inductive LabelRemark (style : SwitchStyle) (tokens : TokenSeq) (column : Nat) (b : Branch) :
    SwitchRemark → Prop
  /-- It is not its own form in small letters. -/
  | notLower {t : Token} (ht : tokens.get? b.label = some t) (h : t.text ≠ Text.lower t.text) :
      LabelRemark style tokens column b ⟨b.label, .notLower b.word (Text.lower t.text) t.text⟩
  /-- It does not stand in its column. -/
  | misplaced (h : ¬ tokens.At b.label (·.column = column)) :
      LabelRemark style tokens column b ⟨b.label, .labelColumn b.word style.indent⟩
  /-- There is whitespace in front of its colon. -/
  | loose (h : ¬ tokens.At (b.colon - 1) (·.kind ≠ .whitespace)) :
      LabelRemark style tokens column b ⟨b.label, .spaceBeforeColon b.word⟩

/-- What is remarked about a case that ends in the break at `i`. Labels should stand in `column`. -/
inductive BreakRemark (style : SwitchStyle) (tokens : TokenSeq) (switch : Switch) (column : Nat)
    (b : Branch) (i : Nat) : SwitchRemark → Prop
  /-- The break does not stand in its column. -/
  | misplaced (h : ¬ tokens.At i (·.column = column + style.indent)) :
      BreakRemark style tokens switch column b i ⟨i, .breakColumn style.indent⟩
  /-- There is no code in front of it. -/
  | empty (h : ¬ ∃ j, b.bodyStart ≤ j ∧ j < i ∧ tokens.At j (·.isTrivia = false)) :
      BreakRemark style tokens switch column b i ⟨b.label, .emptyCase⟩
  /-- It is not on the line below the code. -/
  | before (h : ¬ tokens.BelowLast switch.keyword i) :
      BreakRemark style tokens switch column b i ⟨i, .blankBeforeBreak⟩
  /-- No single blank line follows its statement. -/
  | after (h : ¬ ∀ last, tokens.FirstOr (· == .semicolon) i switch.closer i last →
        tokens.Separated switch.closer i last) :
      BreakRemark style tokens switch column b i ⟨i, .noBlankAfterBreak⟩

/-- A branch ends at `i` with a return, a throw or a comment, which reaches to the token `last`: to
the semicolon of a statement, if it has one. -/
def Reaches (tokens : TokenSeq) (b : Branch) (i last : Nat) : Prop :=
  match b.terminator with
  | .returnAt k | .throwAt k => k = i ∧ tokens.FirstOr (· == .semicolon) i b.bodyEnd i last
  | .fallthroughAt k => k = i ∧ last = i
  | .breakAt _ | .absent => False

/-- What is remarked about the end of a case. -/
inductive EndRemark (style : SwitchStyle) (tokens : TokenSeq) (switch : Switch) (column : Nat)
    (b : Branch) : SwitchRemark → Prop
  /-- The case ends in a break. -/
  | atBreak {i : Nat} {r : SwitchRemark} (hbreak : b.terminator = .breakAt i)
      (h : b.BreakRemark style tokens switch column i r) : EndRemark style tokens switch column b r
  /-- It ends otherwise, and no single blank line follows. -/
  | atEnding {i last : Nat} (hreaches : b.Reaches tokens i last)
      (h : ¬ tokens.Separated switch.closer i last) :
      EndRemark style tokens switch column b ⟨i, .noBlankAfterEnding⟩
  /-- Nothing ends it. -/
  | absent (h : b.terminator = .absent) :
      EndRemark style tokens switch column b ⟨b.label, .noTerminator style.marker⟩

/-- What is remarked about a case. -/
inductive CaseRemark (style : SwitchStyle) (tokens : TokenSeq) (switch : Switch) (column : Nat)
    (b : Branch) : SwitchRemark → Prop
  /-- The label. -/
  | label {r : SwitchRemark} (h : b.LabelRemark style tokens column r) :
      CaseRemark style tokens switch column b r
  /-- The label is not followed by one space. -/
  | unspaced (h : ¬ tokens.At (b.label + 1) fun t => t.kind = .whitespace ∧ t.text = " ") :
      CaseRemark style tokens switch column b ⟨b.label, .noSingleSpace⟩
  /-- The end, unless the case is stacked on the next one. -/
  | ending {r : SwitchRemark} (hstacked : b.stacked = false)
      (h : b.EndRemark style tokens switch column r) : CaseRemark style tokens switch column b r
  /-- The content does not start on the next line. -/
  | detached (h : ¬ b.StartsBelow tokens) :
      CaseRemark style tokens switch column b ⟨b.label, .blankAfterCase⟩

/-- What is remarked about the default branch. -/
inductive DefaultRemark (style : SwitchStyle) (tokens : TokenSeq) (switch : Switch) (column : Nat)
    (b : Branch) : SwitchRemark → Prop
  /-- The label. -/
  | label {r : SwitchRemark} (h : b.LabelRemark style tokens column r) :
      DefaultRemark style tokens switch column b r
  /-- A break does not stand in its column. -/
  | misplaced {i : Nat} (hbreak : b.terminator = .breakAt i)
      (h : ¬ tokens.At i (·.column = column + style.indent)) :
      DefaultRemark style tokens switch column b ⟨i, .breakColumn style.indent⟩
  /-- What follows the statement of a break, or else the closing brace, is not on the next line. -/
  | after {i last j : Nat} (hbreak : b.terminator = .breakAt i)
      (hlast : tokens.FirstOr (· == .semicolon) i switch.closer i last)
      (hj : tokens.FirstOr Kind.isContent (last + 1) switch.closer switch.closer j)
      (h : ¬ tokens.Below 1 i j) :
      DefaultRemark style tokens switch column b ⟨i, .blankAfterDefaultBreak⟩
  /-- There is no content. -/
  | empty (h : ¬ ∃ j, b.bodyStart ≤ j ∧ j < b.bound ∧ tokens.At j (·.kind ≠ .whitespace)) :
      DefaultRemark style tokens switch column b ⟨b.label, .emptyDefault⟩
  /-- The content does not start on the next line. -/
  | detached (h : ¬ b.StartsBelow tokens) :
      DefaultRemark style tokens switch column b ⟨b.label, .blankAfterDefault⟩

/-- If a break ends the branch, its column fits in a word. -/
def BreakFits (style : SwitchStyle) (column : Nat) (b : Branch) : Prop :=
  ∀ i, b.terminator = .breakAt i → column + style.indent ≤ maxWord

end Branch

namespace SwitchStyle

/-- What is remarked about a switch whose keyword stands in `column`. -/
inductive Remark (style : SwitchStyle) (tokens : TokenSeq) (switch : Switch) (column : Nat) :
    SwitchRemark → Prop
  /-- There is no case. -/
  | noCase (h : switch.cases = []) : Remark style tokens switch column ⟨switch.keyword, .noCase⟩
  /-- A case. -/
  | ofCase {b : Branch} {r : SwitchRemark} (hb : b ∈ switch.cases)
      (h : b.CaseRemark style tokens switch (column + style.indent) r) :
      Remark style tokens switch column r
  /-- There is no default. -/
  | noDefault (h : switch.default? = none) :
      Remark style tokens switch column ⟨switch.keyword, .noDefault⟩
  /-- The default branch. -/
  | ofDefault {b : Branch} {r : SwitchRemark} (hb : switch.default? = some b)
      (h : b.DefaultRemark style tokens switch (column + style.indent) r) :
      Remark style tokens switch column r
  /-- The closing brace does not stand below the keyword. -/
  | brace (h : ¬ tokens.At switch.closer (·.column = column)) :
      Remark style tokens switch column ⟨switch.closer, .misplacedBrace⟩

/-- The columns that are compared in a switch whose keyword stands in `column` fit in a word: that
of the labels, and that of the breaks where one is looked at. -/
structure SumsFit (style : SwitchStyle) (switch : Switch) (column : Nat) : Prop where
  /-- The column of the labels. -/
  labels : column + style.indent ≤ maxWord
  /-- The column of the breaks of cases that are not stacked. -/
  cases : ∀ b ∈ switch.cases, b.stacked = false → b.BreakFits style (column + style.indent)
  /-- The column of the break of the default branch. -/
  default : ∀ b, switch.default? = some b → b.BreakFits style (column + style.indent)

/-- The columns of labels and breaks fit in a word, wherever a switch stands. -/
def Fits (style : SwitchStyle) (tokens : TokenSeq) : Prop :=
  ∀ i t, tokens.get? i = some t → t.column + style.indent + style.indent ≤ maxWord

end SwitchStyle

variable {fits : Prop} {tokens : TokenSeq} {keyword closer column i last line : Nat} {b : Branch}
  {switch : Switch} {style : SwitchStyle} {r : SwitchRemark} {q : SwitchProblem}

/-- A remark that is made. -/
@[simp] theorem mem_remarkUnless {fine : Bool} :
    r ∈ remarkUnless fine i q ↔ fine = false ∧ r = ⟨i, q⟩ := by
  unfold remarkUnless
  cases fine <;> simp

namespace Branch

/-- What is remarked about the line in front of a break. -/
theorem breakRemark_before_iff :
    b.BreakRemark style tokens switch column i ⟨i, .blankBeforeBreak⟩ ↔
      ¬ tokens.BelowLast switch.keyword i := by
  constructor
  · rintro ⟨⟩
    assumption
  · exact .before

/-- A case that ends in a break. -/
theorem endRemark_iff_of_breakAt (h : b.terminator = .breakAt i) :
    b.EndRemark style tokens switch column r ↔ b.BreakRemark style tokens switch column i r := by
  constructor
  · intro hr
    cases hr with
    | atBreak hbreak hr =>
        rw [h, Terminator.breakAt.injEq] at hbreak
        rwa [hbreak]
    | atEnding hreaches =>
        rw [Reaches, h] at hreaches
        exact hreaches.elim
    | absent habsent =>
        rw [h] at habsent
        cases habsent
  · exact .atBreak h

/-- A case that nothing ends. -/
theorem endRemark_iff_of_absent (h : b.terminator = .absent) :
    b.EndRemark style tokens switch column r ↔ r = ⟨b.label, .noTerminator style.marker⟩ := by
  constructor
  · intro hr
    cases hr with
    | atBreak hbreak =>
        rw [h] at hbreak
        cases hbreak
    | atEnding hreaches =>
        rw [Reaches, h] at hreaches
        exact hreaches.elim
    | absent => rfl
  · rintro rfl
    exact .absent h

namespace Reaches

/-- The ending is the token at which the branch ends. -/
theorem index?_eq (h : b.Reaches tokens i last) : b.terminator.index? = some i := by
  unfold Reaches at h
  cases hterminator : b.terminator with
  | returnAt k | throwAt k | fallthroughAt k =>
      rw [hterminator] at h
      exact congrArg some h.1
  | breakAt k | absent =>
      rw [hterminator] at h
      exact h.elim

/-- It is no break. -/
theorem terminator_ne (h : b.Reaches tokens i last) (k : Nat) : b.terminator ≠ .breakAt k := by
  intro hk
  rw [Reaches, hk] at h
  exact h

/-- It reaches to one token. -/
theorem unique {i' last' : Nat} (h : b.Reaches tokens i last) (h' : b.Reaches tokens i' last') :
    i = i' ∧ last = last' := by
  obtain rfl := Option.some.inj (h.index?_eq.symm.trans h'.index?_eq)
  unfold Reaches at h h'
  split at h
  · next hk =>
      rw [hk] at h'
      exact ⟨rfl, h.2.unique h'.2⟩
  · next hk =>
      rw [hk] at h'
      exact ⟨rfl, h.2.unique h'.2⟩
  · next hk =>
      rw [hk] at h'
      exact ⟨rfl, h.2.trans h'.2.symm⟩
  · exact h.elim
  · exact h.elim

/-- A case that ends in a return, a throw or a comment. -/
theorem endRemark_iff (h : b.Reaches tokens i last) :
    b.EndRemark style tokens switch column r ↔
      r = ⟨i, .noBlankAfterEnding⟩ ∧ ¬ tokens.Separated switch.closer i last := by
  constructor
  · intro hr
    cases hr with
    | atBreak hbreak => exact absurd hbreak (h.terminator_ne _)
    | atEnding hreaches hnot =>
        obtain ⟨rfl, rfl⟩ := h.unique hreaches
        exact ⟨rfl, hnot⟩
    | absent habsent =>
        have hindex := h.index?_eq
        rw [habsent] at hindex
        cases hindex
  · rintro ⟨rfl, hnot⟩
    exact .atEnding h hnot

end Reaches

end Branch

/-! ### Lines around a branch -/

namespace Branch.Within

/-- The content of the body ends at a token. -/
theorem bound_lt (h : b.Within tokens closer) (hcloser : closer < tokens.size) :
    b.bound < tokens.size := by
  rcases Branch.bound_eq_iff.mp rfl with hbreak | ⟨-, hend⟩
  · exact (h.terminator_lt hcloser (by rw [hbreak]; rfl)).2
  · have := h.bodyEnd_le
    omega

/-- The line behind the label. -/
theorem ends_startsOnNextLine (h : b.Within tokens closer) (hcloser : closer < tokens.size) :
    Ends fits (b.startsOnNextLine tokens) fun below => below = true ↔ b.StartsBelow tokens := by
  have hfirst : (b.content? tokens).getD b.bound < tokens.size := by
    rcases hcontent : b.content? tokens with _ | j
    · exact h.bound_lt hcloser
    · exact (TokenSeq.next_eq_some hcontent).2.1
  rw [Branch.startsOnNextLine]
  refine (TokenSeq.ends_read hfirst).bind fun first hfirst => ?_
  refine (TokenSeq.ends_read h.label_lt_size).bind fun label hlabel => Ends.pure ?_
  rw [Branch.content?, TokenSeq.nextNot_whitespace] at hfirst
  rw [beq_iff_eq, ← TokenSeq.below_iff hlabel hfirst, Branch.StartsBelow,
    TokenSeq.exists_firstOr_iff]

end Branch.Within

/-- What a search behind a break finds exists. -/
theorem afterBreak?_lt {j : Nat} (h : afterBreak? tokens closer i = some j) : j < tokens.size :=
  (TokenSeq.next_eq_some h).2.1

/-- The line in front of a break, compared with its own. -/
theorem ends_lineBefore {t : Token} (hpos : 0 < i) (ht : tokens.get? i = some t) :
    Ends fits (lineBefore tokens keyword i) fun line =>
      line + 1 = t.line ↔ tokens.BelowLast keyword i := by
  rw [lineBefore]
  refine (ends_minus hpos).bind fun start hstart => ?_
  subst hstart
  have hsucc : i - 1 + 1 = i := Nat.sub_add_cancel hpos
  rw [TokenSeq.prevNot_whitespace]
  split
  · next j hj =>
      refine (TokenSeq.ends_read (TokenSeq.prev_eq_some hj).2.2.1).bind fun u hu => Ends.pure ?_
      have hlast := TokenSeq.prev_eq_some_iff.mp hj
      rw [hsucc] at hlast
      rw [eq_comm, ← TokenSeq.below_iff hu ht]
      constructor
      · intro hbelow
        exact Or.inl ⟨j, hlast, hbelow⟩
      · rintro (⟨k, hk, hbelow⟩ | ⟨hnone, -⟩)
        · rwa [hlast.unique hk]
        · have := hnone j (by have := hlast.floor_le; omega) hlast.lt_stop
          rw [hlast.holds] at this
          cases this
  · next hnone =>
      refine Ends.pure ?_
      -- without content in front of it the line counts as zero, which is above the first line
      have hempty : ∀ j, keyword < j → j < i → tokens.kindAt Kind.isContent j = false :=
        fun j hj hji => TokenSeq.kindAt_of_prev_eq_none hnone hj (by omega)
      constructor
      · intro hline
        exact Or.inr ⟨hempty, t, ht, by omega⟩
      · rintro (⟨j, hj, -⟩ | ⟨-, hfirst⟩)
        · have := hempty j (by have := hj.floor_le; omega) hj.lt_stop
          rw [hj.holds] at this
          cases this
        · rw [TokenSeq.at_iff ht] at hfirst
          omega

/-- The blank line behind a break. -/
theorem ends_isSeparated {t : Token} (ht : tokens.get? i = some t) :
    Ends fits (isSeparated tokens closer i t.line) fun separated =>
      separated = true ↔ ∀ last, tokens.FirstOr (· == .semicolon) i closer i last →
        tokens.Separated closer i last := by
  rw [TokenSeq.forall_firstOr_iff, isSeparated]
  split
  · next j hj =>
      refine (TokenSeq.ends_read (afterBreak?_lt hj)).bind fun u hu => Ends.pure ?_
      rw [afterBreak?, TokenSeq.nextOf_singleton, TokenSeq.nextNot_whitespace] at hj
      rw [beq_iff_eq, TokenSeq.separated_iff hj ht hu]
  · next hnone =>
      rw [afterBreak?, TokenSeq.nextOf_singleton, TokenSeq.nextNot_whitespace] at hnone
      exact Ends.pure ⟨fun _ => TokenSeq.separated_of_next_eq_none hnone, fun _ => rfl⟩

/-- The line behind a break, compared with its own. What follows is a token of the switch, or else
the closing brace. -/
theorem ends_lineAfter (hcloser : closer < tokens.size) :
    Ends fits (lineAfter tokens closer i) fun line => ∃ last j u,
      tokens.FirstOr (· == .semicolon) i closer i last ∧
      tokens.FirstOr Kind.isContent (last + 1) closer closer j ∧ tokens.get? j = some u ∧
      line = u.line := by
  have hor := tokens.firstOr_getD_next (· == .semicolon) i closer i
  rw [lineAfter]
  refine (TokenSeq.ends_read hcloser).bind fun closing hclosing => ?_
  split
  · next j hj =>
      refine (TokenSeq.ends_read (afterBreak?_lt hj)).bind fun u hu => Ends.pure ?_
      rw [afterBreak?, TokenSeq.nextOf_singleton, TokenSeq.nextNot_whitespace] at hj
      exact ⟨_, j, u, hor, Or.inl (TokenSeq.next_eq_some_iff.mp hj), hu, rfl⟩
  · next hnone =>
      rw [afterBreak?, TokenSeq.nextOf_singleton, TokenSeq.nextNot_whitespace] at hnone
      exact Ends.pure ⟨_, closer, closing, hor,
        Or.inr ⟨TokenSeq.next_eq_none_iff.mp hnone, rfl⟩, hclosing, rfl⟩

/-! ### The checks -/

namespace SwitchStyle

/-- The checks of a label. -/
theorem ends_labelRemarks (h : b.Within tokens closer) :
    Ends fits (style.labelRemarks tokens column b) fun found =>
      ∀ r, r ∈ found ↔ b.LabelRemark style tokens column r := by
  have hlabel := h.label_lt
  have hcolon := h.colon_lt
  rw [labelRemarks]
  refine (TokenSeq.ends_read h.label_lt_size).bind fun t ht => ?_
  refine (ends_minus (by omega)).bind fun before hbefore => ?_
  subst hbefore
  refine (TokenSeq.ends_read (by omega)).bind fun u hu => Ends.pure fun r => ?_
  -- the tokens are read, and the list is compared with the relation
  simp only [List.mem_append, mem_remarkUnless, beq_eq_false_iff_ne, bne_eq_false_iff_eq]
  constructor
  · rintro ((⟨hne, rfl⟩ | ⟨hne, rfl⟩) | ⟨heq, rfl⟩)
    · exact .notLower ht hne
    · exact .misplaced fun hat => hne ((TokenSeq.at_iff ht).mp hat)
    · exact .loose fun hat => (TokenSeq.at_iff hu).mp hat heq
  · intro hr
    cases hr with
    | notLower ht' hne =>
        cases ht.symm.trans ht'
        exact Or.inl (Or.inl ⟨hne, rfl⟩)
    | misplaced hnot =>
        exact Or.inl (Or.inr ⟨fun heq => hnot ((TokenSeq.at_iff ht).mpr heq), rfl⟩)
    | loose hnot =>
        refine Or.inr ⟨?_, rfl⟩
        by_contra hne
        exact hnot ((TokenSeq.at_iff hu).mpr hne)

/-- The column of a break. -/
theorem ends_breakRemarks (hi : i < tokens.size)
    (hcolumn : fits → column + style.indent ≤ maxWord) :
    Ends fits (style.breakRemarks tokens column i) fun found => column + style.indent ≤ maxWord ∧
      ∀ r, r ∈ found ↔ r = ⟨i, .breakColumn style.indent⟩ ∧
        ¬ tokens.At i (·.column = column + style.indent) := by
  rw [breakRemarks]
  refine (TokenSeq.ends_read hi).bind fun t ht => ?_
  refine (ends_plus_exact.weaken hcolumn).bind ?_
  rintro expected ⟨hfits, rfl⟩
  refine Ends.pure ⟨hfits, fun r => ?_⟩
  rw [mem_remarkUnless, beq_eq_false_iff_ne, TokenSeq.at_iff ht, and_comm]

/-- The checks of a case that ends in a break. -/
theorem ends_caseBreakRemarks (hpos : 0 < i) (hi : i < tokens.size)
    (hcolumn : fits → column + style.indent ≤ maxWord) :
    Ends fits (style.caseBreakRemarks tokens switch column b i) fun found =>
      column + style.indent ≤ maxWord ∧
        ∀ r, r ∈ found ↔ b.BreakRemark style tokens switch column i r := by
  rw [caseBreakRemarks]
  refine (ends_breakRemarks hi hcolumn).bind ?_
  rintro columnRemarks ⟨hfits, hcolumns⟩
  refine (TokenSeq.ends_read hi).bind fun t ht => ?_
  refine (TokenSeq.ends_readRange hi.le).eq_ok.bind fun body hbody => ?_
  refine (ends_lineBefore hpos ht).bind fun before hbefore => ?_
  refine (ends_isSeparated ht).bind fun separated hseparated => Ends.pure ⟨hfits, fun r => ?_⟩
  simp only [List.mem_append, mem_remarkUnless, hcolumns, beq_eq_false_iff_ne, ne_eq, hbefore]
  rw [← Bool.not_eq_true (body.any _), TokenSeq.any_not_isTrivia_iff hbody.2,
    ← Bool.not_eq_true separated, hseparated]
  constructor
  · rintro (((⟨rfl, hnot⟩ | ⟨hnot, rfl⟩) | ⟨hnot, rfl⟩) | ⟨hnot, rfl⟩)
    · exact .misplaced hnot
    · exact .empty hnot
    · exact .before hnot
    · exact .after hnot
  · intro hr
    cases hr with
    | misplaced hnot => exact Or.inl (Or.inl (Or.inl ⟨rfl, hnot⟩))
    | empty hnot => exact Or.inl (Or.inl (Or.inr ⟨hnot, rfl⟩))
    | before hnot => exact Or.inl (Or.inr ⟨hnot, rfl⟩)
    | after hnot => exact Or.inr ⟨hnot, rfl⟩

/-- The blank line behind another end of a case. -/
theorem ends_endingRemarks (hi : i < tokens.size) :
    Ends fits (endingRemarks tokens switch i last) fun found =>
      ∀ r, r ∈ found ↔ r = ⟨i, .noBlankAfterEnding⟩ ∧ ¬ tokens.Separated switch.closer i last := by
  rw [endingRemarks, TokenSeq.nextNot_whitespace]
  split
  · next hnone =>
      refine Ends.pure fun r => iff_of_false (by simp) fun hr => hr.2 ?_
      exact TokenSeq.separated_of_next_eq_none hnone
  · next j hj =>
      refine (TokenSeq.ends_read (TokenSeq.next_eq_some hj).2.1).bind fun u hu => ?_
      refine (TokenSeq.ends_read hi).bind fun t ht => Ends.pure fun r => ?_
      rw [mem_remarkUnless, beq_eq_false_iff_ne, TokenSeq.separated_iff hj ht hu, and_comm]

/-- The checks of the end of a case. -/
theorem ends_terminatorRemarks (h : b.Within tokens closer) (hcloser : closer < tokens.size)
    (hcolumn : fits → b.stacked = false → b.BreakFits style column) :
    Ends fits (style.terminatorRemarks tokens switch column b) fun found =>
      (b.stacked = false → b.BreakFits style column) ∧
        ∀ r, r ∈ found ↔ b.stacked = false ∧ b.EndRemark style tokens switch column r := by
  rw [terminatorRemarks]
  cases hstacked : b.stacked with
  | true => exact Ends.ok ⟨by simp, by simp⟩
  | false =>
      rw [if_neg Bool.false_ne_true]
      simp only [hstacked, forall_const, true_and] at hcolumn ⊢
      -- whatever ends the branch is a token of it
      have hend : ∀ i, b.terminator.index? = some i → 0 < i ∧ i < tokens.size :=
        fun i hi => h.terminator_lt hcloser hi
      -- an ending that is no break has one remark at most, and its column is not looked at
      have hother : ∀ i last, b.Reaches tokens i last →
          Ends fits (endingRemarks tokens switch i last) fun found => b.BreakFits style column ∧
            ∀ r, r ∈ found ↔ b.EndRemark style tokens switch column r := by
        intro i last hreaches
        refine (ends_endingRemarks (hend i hreaches.index?_eq).2).mono fun found hfound => ?_
        refine ⟨fun k hk => absurd hk (hreaches.terminator_ne k), fun r => ?_⟩
        rw [hfound r, hreaches.endRemark_iff]
      cases hterminator : b.terminator with
      | breakAt i =>
          obtain ⟨hpos, hi⟩ := hend i (by rw [hterminator]; rfl)
          refine (ends_caseBreakRemarks hpos hi fun hfits => hcolumn hfits i hterminator).mono ?_
          rintro found ⟨hfits, hfound⟩
          refine ⟨fun _ _ => hfits, fun r => ?_⟩
          rw [hfound r, Branch.endRemark_iff_of_breakAt hterminator]
      | returnAt i | throwAt i =>
          refine hother i _ ?_
          rw [Branch.Reaches, hterminator, TokenSeq.nextOf_singleton]
          exact ⟨rfl, tokens.firstOr_getD_next _ i b.bodyEnd i⟩
      | fallthroughAt i =>
          refine hother i i ?_
          rw [Branch.Reaches, hterminator]
          exact ⟨rfl, rfl⟩
      | absent =>
          refine Ends.ok ⟨fun i hi => ?_, fun r => ?_⟩
          · rw [hterminator] at hi
            cases hi
          · rw [List.mem_singleton, Branch.endRemark_iff_of_absent hterminator]

/-- Whether a label is followed by one space. -/
theorem isSpaced_iff {label : Nat} : isSpaced tokens label = true ↔
    tokens.At (label + 1) fun t => t.kind = .whitespace ∧ t.text = " " := by
  unfold isSpaced
  rcases ht : tokens.get? (label + 1) with _ | t
  · simp [TokenSeq.At, ht]
  · rw [TokenSeq.at_iff ht, Option.any_some, Bool.and_eq_true, beq_iff_eq, beq_iff_eq]

/-- The checks of a case. -/
theorem ends_caseRemarks (h : b.Within tokens closer) (hcloser : closer < tokens.size)
    (hcolumn : fits → b.stacked = false → b.BreakFits style column) :
    Ends fits (style.caseRemarks tokens switch column b) fun found =>
      (b.stacked = false → b.BreakFits style column) ∧
        ∀ r, r ∈ found ↔ b.CaseRemark style tokens switch column r := by
  rw [caseRemarks]
  refine (ends_labelRemarks h).bind fun label hlabel => ?_
  refine (ends_terminatorRemarks h hcloser hcolumn).bind ?_
  rintro ending ⟨hfits, hending⟩
  refine (h.ends_startsOnNextLine hcloser).bind fun below hbelow => Ends.pure ⟨hfits, fun r => ?_⟩
  simp only [List.mem_append, mem_remarkUnless, hlabel, hending]
  rw [← Bool.not_eq_true (isSpaced _ _), isSpaced_iff, ← Bool.not_eq_true below, hbelow]
  constructor
  · rintro (((hr | ⟨hnot, rfl⟩) | ⟨hstacked, hr⟩) | ⟨hnot, rfl⟩)
    · exact .label hr
    · exact .unspaced hnot
    · exact .ending hstacked hr
    · exact .detached hnot
  · intro hr
    cases hr with
    | label hr => exact Or.inl (Or.inl (Or.inl hr))
    | unspaced hnot => exact Or.inl (Or.inl (Or.inr ⟨hnot, rfl⟩))
    | ending hstacked hr => exact Or.inl (Or.inr ⟨hstacked, hr⟩)
    | detached hnot => exact Or.inr ⟨hnot, rfl⟩

/-- The checks of the end of the default branch. -/
theorem ends_defaultBreakRemarks (h : b.Within tokens switch.closer)
    (hcloser : switch.closer < tokens.size) (hcolumn : fits → b.BreakFits style column) :
    Ends fits (style.defaultBreakRemarks tokens switch column b) fun found =>
      b.BreakFits style column ∧ ∀ r, r ∈ found ↔ ∃ i, b.terminator = .breakAt i ∧
        (r = ⟨i, .breakColumn style.indent⟩ ∧ ¬ tokens.At i (·.column = column + style.indent) ∨
          r = ⟨i, .blankAfterDefaultBreak⟩ ∧ ∃ last j,
            tokens.FirstOr (· == .semicolon) i switch.closer i last ∧
            tokens.FirstOr Kind.isContent (last + 1) switch.closer switch.closer j ∧
            ¬ tokens.Below 1 i j) := by
  rw [defaultBreakRemarks]
  split
  · next i hbreak =>
      have hi := (h.terminator_lt hcloser (i := i) (by rw [hbreak]; rfl)).2
      refine (ends_breakRemarks hi fun hfits => hcolumn hfits i hbreak).bind ?_
      rintro columnRemarks ⟨hfits, hcolumns⟩
      refine (ends_lineAfter hcloser).bind ?_
      rintro after ⟨last, j, u, hlast, hj, hu, rfl⟩
      refine (TokenSeq.ends_read hi).bind fun t ht => Ends.pure ⟨fun _ _ => hfits, fun r => ?_⟩
      have hafter : (u.line == t.line + 1) = false ↔ ∃ last j,
          tokens.FirstOr (· == .semicolon) i switch.closer i last ∧
          tokens.FirstOr Kind.isContent (last + 1) switch.closer switch.closer j ∧
          ¬ tokens.Below 1 i j := by
        -- the search has one result, so any two that are named are the same
        rw [beq_eq_false_iff_ne, Ne, ← TokenSeq.below_iff ht hu]
        constructor
        · intro hnot
          exact ⟨last, j, hlast, hj, hnot⟩
        · rintro ⟨last', j', hlast', hj', hnot⟩
          obtain rfl := hlast.unique hlast'
          rwa [hj.unique hj']
      rw [List.mem_append, mem_remarkUnless, hcolumns r, hafter]
      constructor
      · rintro (hr | ⟨hnot, hr⟩)
        · exact ⟨i, hbreak, Or.inl hr⟩
        · exact ⟨i, hbreak, Or.inr ⟨hr, hnot⟩⟩
      · rintro ⟨k, hk, hr⟩
        rw [hbreak, Terminator.breakAt.injEq] at hk
        subst hk
        exact hr.imp_right And.symm
  · next hbreak =>
      refine Ends.ok ⟨fun i hi => absurd hi (hbreak i), fun r => iff_of_false (by simp) ?_⟩
      rintro ⟨i, hi, -⟩
      exact hbreak i hi

/-- Whether the body of a branch has content. -/
theorem isSome_content?_iff : (b.content? tokens).isSome = true ↔
    ∃ j, b.bodyStart ≤ j ∧ j < b.bound ∧ tokens.At j (·.kind ≠ .whitespace) := by
  have hat : ∀ j, tokens.kindAt Kind.isContent j = true ↔ tokens.At j (·.kind ≠ .whitespace) := by
    intro j
    rcases ht : tokens.get? j with _ | t
    · simp [TokenSeq.kindAt, TokenSeq.At, ht]
    · rw [TokenSeq.kindAt_of_get? ht, TokenSeq.at_iff ht, Kind.isContent, bne_iff_ne]
  rw [Branch.content?, TokenSeq.nextNot_whitespace, TokenSeq.isSome_next_iff]
  simp only [hat]

/-- The checks of the default branch. -/
theorem ends_defaultRemarks (h : b.Within tokens switch.closer)
    (hcloser : switch.closer < tokens.size) (hcolumn : fits → b.BreakFits style column) :
    Ends fits (style.defaultRemarks tokens switch column b) fun found =>
      b.BreakFits style column ∧ ∀ r, r ∈ found ↔ b.DefaultRemark style tokens switch column r := by
  rw [defaultRemarks]
  refine (ends_labelRemarks h).bind fun label hlabel => ?_
  refine (ends_defaultBreakRemarks h hcloser hcolumn).bind ?_
  rintro ending ⟨hfits, hending⟩
  refine (h.ends_startsOnNextLine hcloser).bind fun below hbelow => Ends.pure ⟨hfits, fun r => ?_⟩
  simp only [List.mem_append, mem_remarkUnless, hlabel, hending]
  rw [← Bool.not_eq_true (Option.isSome _), isSome_content?_iff, ← Bool.not_eq_true below, hbelow]
  constructor
  · rintro (((hr | ⟨i, hbreak, ⟨rfl, hnot⟩ | ⟨rfl, last, j, hlast, hj, hnot⟩⟩) | ⟨hnot, rfl⟩) |
      ⟨hnot, rfl⟩)
    · exact .label hr
    · exact .misplaced hbreak hnot
    · exact .after hbreak hlast hj hnot
    · exact .empty hnot
    · exact .detached hnot
  · intro hr
    cases hr with
    | label hr => exact Or.inl (Or.inl (Or.inl hr))
    | misplaced hbreak hnot =>
        exact Or.inl (Or.inl (Or.inr ⟨_, hbreak, Or.inl ⟨rfl, hnot⟩⟩))
    | after hbreak hlast hj hnot =>
        exact Or.inl (Or.inl (Or.inr ⟨_, hbreak, Or.inr ⟨rfl, _, _, hlast, hj, hnot⟩⟩))
    | empty hnot => exact Or.inl (Or.inr ⟨hnot, rfl⟩)
    | detached hnot => exact Or.inr ⟨hnot, rfl⟩

/-- The checks of the default branch, or that there is none. -/
theorem ends_defaultPartRemarks (h : switch.Within tokens)
    (hcolumn : fits → ∀ b, switch.default? = some b → b.BreakFits style column) :
    Ends fits (style.defaultPartRemarks tokens switch column) fun found =>
      (∀ b, switch.default? = some b → b.BreakFits style column) ∧
        ∀ r, r ∈ found ↔ (∃ b, switch.default? = some b ∧
          b.DefaultRemark style tokens switch column r) ∨
            switch.default? = none ∧ r = ⟨switch.keyword, .noDefault⟩ := by
  rw [defaultPartRemarks]
  cases hdefault : switch.default? with
  | none => exact Ends.ok ⟨by simp, by simp⟩
  | some b =>
      have hb := h.branches b (Switch.mem_branches_of_default? hdefault)
      refine (ends_defaultRemarks hb h.closer_lt fun hfits => hcolumn hfits b hdefault).mono ?_
      rintro found ⟨hfits, hfound⟩
      refine ⟨?_, fun r => ?_⟩
      · rintro b' ⟨⟩
        exact hfits
      · simp [hfound r]

/-- The remarks of several checks, one for each element of a list. -/
theorem mem_flatten_iff_of_forall₂ {α : Type} {P : α → SwitchRemark → Prop} {xs : List α}
    {groups : List (List SwitchRemark)}
    (h : List.Forall₂ (fun x found => ∀ r, r ∈ found ↔ P x r) xs groups) :
    r ∈ groups.flatten ↔ ∃ x ∈ xs, P x r := by
  induction h with
  | nil => simp
  | cons hhead _ ih => simp [hhead r, ih]

/-- **The checks of a switch that lies in the sequence.** There is a result exactly if the columns
that are compared can be added up, and then the remarks are those of the relation. -/
theorem ends_switchRemarks {t : Token} (h : switch.Within tokens)
    (ht : tokens.get? switch.keyword = some t) :
    Ends (style.SumsFit switch t.column) (style.switchRemarks tokens switch) fun found =>
      style.SumsFit switch t.column ∧
        ∀ r, r ∈ found ↔ style.Remark tokens switch t.column r := by
  rw [switchRemarks]
  refine (TokenSeq.ends_read h.keyword_lt).bind fun t' ht' => ?_
  -- the keyword is read again, and is the same token
  cases ht.symm.trans ht'
  refine (ends_plus_exact.weaken SumsFit.labels).bind ?_
  rintro column ⟨hlabels, rfl⟩
  refine (Ends.mapM_forall₂ fun b hb =>
    ends_caseRemarks (h.branches b (Switch.mem_branches_of_mem_cases hb)) h.closer_lt
      fun hfits => hfits.cases b hb).bind fun groups hgroups => ?_
  -- one group of remarks for each case: its sums fit, and its remarks are those of the relation
  rw [List.forall₂_and_left] at hgroups
  refine (ends_defaultPartRemarks h SumsFit.default).bind ?_
  rintro default ⟨hdefault, hdefaults⟩
  refine (TokenSeq.ends_read h.closer_lt).bind fun closing hclosing =>
    Ends.pure ⟨⟨hlabels, hgroups.1, hdefault⟩, fun r => ?_⟩
  simp only [List.mem_append, mem_remarkUnless, mem_flatten_iff_of_forall₂ hgroups.2, hdefaults,
    Bool.not_eq_false', List.isEmpty_iff, beq_eq_false_iff_ne]
  constructor
  · rintro (((⟨hnil, rfl⟩ | ⟨b, hb, hr⟩) | ⟨b, hb, hr⟩ | ⟨hnone, rfl⟩) | ⟨hne, rfl⟩)
    · exact .noCase hnil
    · exact .ofCase hb hr
    · exact .ofDefault hb hr
    · exact .noDefault hnone
    · exact .brace fun hat => hne ((TokenSeq.at_iff hclosing).mp hat)
  · intro hr
    cases hr with
    | noCase hnil => exact Or.inl (Or.inl (Or.inl ⟨hnil, rfl⟩))
    | ofCase hb hr => exact Or.inl (Or.inl (Or.inr ⟨_, hb, hr⟩))
    | noDefault hnone => exact Or.inl (Or.inr (Or.inr ⟨hnone, rfl⟩))
    | ofDefault hb hr => exact Or.inl (Or.inr (Or.inl ⟨_, hb, hr⟩))
    | brace hnot => exact Or.inr ⟨fun heq => hnot ((TokenSeq.at_iff hclosing).mpr heq), rfl⟩

/-! ### No fault -/

/-- The columns of one switch fit if the greatest of them does. -/
theorem sumsFit_of_le (h : column + style.indent + style.indent ≤ maxWord) :
    style.SumsFit switch column :=
  ⟨by omega, fun _ _ _ _ _ => h, fun _ _ _ _ => h⟩

/-- **A switch is checked without a fault**, unless a column does not fit in a word. -/
theorem ends_remarks {kinds : List Kind} (hlinks : Links kinds kinds.length tokens)
    (hkeyword : keyword < tokens.size) :
    Ends (style.Fits tokens) (style.remarks tokens keyword) fun _ => True := by
  rw [remarks]
  refine (Switch.ends_ofKeyword hlinks hkeyword).bind fun found hfound => ?_
  cases found with
  | error e => exact Ends.pure trivial
  | ok switch =>
      have hwithin := hfound switch rfl
      obtain ⟨t, ht⟩ := TokenSeq.exists_get? hwithin.keyword_lt
      exact ((ends_switchRemarks hwithin ht).weaken fun hfits =>
        sumsFit_of_le (hfits _ t ht)).mono fun _ _ => trivial

end SwitchStyle

end PhpStyle
