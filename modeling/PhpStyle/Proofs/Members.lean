import PhpStyle.Proofs.Scope.Heads
import PhpStyle.Proofs.Search
import PhpStyle.Rule.MemberComment

/-!
# Which variables are taken for members

A variable is taken for a member by what stands in front of it in the body of a class: a keyword, or
a comma in a statement that starts with a keyword. Parameters of a method stand in the same body.
Here it is said which of them are taken for members all the same, in terms of the tokens between the
opening parenthesis and the parameter (`MemberComment.check_parameter`): one with a keyword in front
of it (`MemberComment.Hinted`), and one behind a comma if a statement ends in the list and another
one starts there with a keyword (`MemberComment.Restarted`).

First the tests of the rule are put in terms of tokens, for all variables
(`MemberComment.ends_isMember_iff`): a search that is done by the source becomes the first or the
last token of a kind. The scope of a variable is `MemberComment.InTypeBody`, and the statement of a
comma is `MemberComment.Declares`.

Then it is seen what this means in a parameter list (`MemberComment.Parameter`). The search back
from a parameter stops in the list or at its parenthesis, which makes no member. The search for the
start of the statement may go on in front of the list. But then it does not stop before the keyword
of the function, because no statement ends between the two, and a statement with such a keyword
declares no members. So a comma counts only if the statement starts in the list
(`MemberComment.Parameter.declares_iff`).

That the parentheses of the list come in pairs is part of what a parameter is, and is not used: what
is said holds of every variable behind such a parenthesis.
-/

namespace PhpStyle

/-- What is neither trivia nor a name. -/
def Kind.isFirm (kind : Kind) : Bool := !(kind.isTrivia || kind == .identifier)

/-- What stands between two statements. -/
def Kind.endsStatement : Kind → Bool
  | .semicolon | .openBrace | .closeBrace => true
  | _ => false

namespace MemberComment

/-! ### Members -/

/-- The innermost scope around a token is the body of a class or interface. -/
def InTypeBody (s : TokenSeq) (v : Nat) : Prop :=
  ∃ k, s.owner v = some k ∧ s.kindAt (fun kind => kind == .kwClass || kind == .kwInterface) k = true

/-- The tokens from `first` up to the comma `j` start with a keyword, trivia apart, and
declare no function. -/
def Declares (s : TokenSeq) (first j : Nat) : Prop :=
  (∀ i, first ≤ i → i < j → s.kindAt (· == .kwFunction) i = false) ∧
    ∃ m, s.FirstOf (fun kind => !kind.isTrivia) first j m ∧ s.kindAt (· == .keyword) m = true

variable {s : TokenSeq} {fits : Prop} {v j : Nat}

/-- The kinds that a search back from a variable skips. -/
theorem prevNot_skipped {start floor : Nat} :
    s.prevNot [.whitespace, .comment, .docComment, .identifier] start floor =
      s.prev Kind.isFirm start floor := by
  unfold TokenSeq.prevNot
  congr
  funext kind
  cases kind <;> rfl

/-- The kinds at which a statement starts. -/
theorem prevOf_endsStatement {start floor : Nat} :
    s.prevOf [.semicolon, .openBrace, .closeBrace] start floor =
      s.prev Kind.endsStatement start floor := by
  unfold TokenSeq.prevOf
  congr
  funext kind
  cases kind <;> rfl

/-- A search for what is no trivia. -/
theorem nextNot_trivia {start : Nat} {stop? : Option Nat} :
    s.nextNot [.whitespace, .comment, .docComment] start stop? =
      s.next (fun kind => !kind.isTrivia) start stop? := by
  unfold TokenSeq.nextNot
  congr
  funext kind
  cases kind <;> rfl

/-- Whether a token is in the body of a class or interface. -/
theorem ends_inTypeBody_iff (howner : ∀ k, s.owner v = some k → k < s.size) :
    Ends fits (inTypeBody s v) fun inside => inside = true ↔ InTypeBody s v := by
  unfold inTypeBody InTypeBody
  split
  · next hnone => exact Ends.pure (by simp [hnone])
  · next k hk =>
      refine (TokenSeq.ends_read (howner k hk)).bind fun t ht => ?_
      apply Ends.pure
      simp [hk, TokenSeq.kindAt, ht]

/-- Whether the statement of a comma is a declaration of members. -/
theorem ends_continuesDeclaration_iff :
    Ends fits (continuesDeclaration s j) fun continues =>
      continues = true ↔ Declares s (statementStart s j) j := by
  unfold continuesDeclaration Declares
  simp only [TokenSeq.nextOf_singleton, nextNot_trivia]
  split
  · next hfunction =>
      -- a function is declared there
      obtain ⟨i, hstart, hstop, hi⟩ := TokenSeq.isSome_next_iff.mp hfunction
      apply Ends.pure
      simp only [Bool.false_eq_true, false_iff]
      rintro ⟨hnone, -⟩
      rw [hnone i hstart hstop] at hi
      cases hi
  next hfunction =>
  have hnone : ∀ i, statementStart s j ≤ i → i < j → s.kindAt (· == .kwFunction) i = false := by
    rw [← TokenSeq.next_eq_none_iff]
    simpa using hfunction
  split
  · next hempty =>
      rw [TokenSeq.next_eq_none_iff] at hempty
      apply Ends.pure
      simp only [Bool.false_eq_true, false_iff]
      rintro ⟨-, m, hm, -⟩
      have := hempty m hm.start_le hm.lt_stop
      rw [hm.holds] at this
      cases this
  · next m hm =>
      refine (TokenSeq.ends_read (TokenSeq.next_eq_some hm).2.1).bind fun t ht => ?_
      apply Ends.pure
      have hkind : s.kindAt (· == .keyword) m = (t.kind == .keyword) := TokenSeq.kindAt_of_get? ht
      rw [← hkind]
      constructor
      · intro hkeyword
        exact ⟨hnone, m, TokenSeq.next_eq_some_iff.mp hm, hkeyword⟩
      · rintro ⟨-, m', hm', hkeyword⟩
        rw [← TokenSeq.next_eq_some_iff, hm, Option.some.injEq] at hm'
        rwa [hm']

/-- A variable is taken for a member because of the token `j` in front of it: a keyword, or a
comma in a declaration. -/
def Follows (s : TokenSeq) (j : Nat) : Prop :=
  s.kindAt (· == .keyword) j = true ∨
    s.kindAt (· == .comma) j = true ∧ Declares s (statementStart s j) j

/-- **Which variables are taken for members**: those in the body of a class or interface with such a
token in front of them, names and trivia apart. -/
theorem ends_isMember_iff (howner : ∀ k, s.owner v = some k → k < s.size) :
    Ends fits (isMember s v) fun member =>
      member = true ↔ InTypeBody s v ∧ ∃ j, s.LastOf Kind.isFirm 0 v j ∧ Follows s j := by
  unfold isMember
  refine (ends_inTypeBody_iff howner).bind fun inside hinside => ?_
  split
  · next houtside =>
      apply Ends.pure
      simp only [Bool.false_eq_true, false_iff]
      rintro ⟨hbody, j, hj, -⟩
      have hlt := hj.lt_stop
      rw [hinside.mpr hbody, beq_eq_false_iff_ne.mpr (by omega)] at houtside
      cases houtside
  next hinner =>
  rw [Bool.or_eq_true, not_or, Bool.not_eq_true', Bool.not_eq_false, hinside, beq_iff_eq] at hinner
  -- the variable is inside, and there is a token in front of it to start from
  obtain ⟨hbody, hpos⟩ := hinner
  refine (ends_minus (Nat.pos_of_ne_zero hpos)).bind fun start hstart => ?_
  have hlast : ∀ j, s.prev Kind.isFirm start 0 = some j ↔ s.LastOf Kind.isFirm 0 v j := by
    intro j
    rw [TokenSeq.prev_eq_some_iff, show start + 1 = v by omega]
  rw [prevNot_skipped]
  split
  · next hnone =>
      apply Ends.pure
      simp only [Bool.false_eq_true, false_iff]
      rintro ⟨-, j, hj, -⟩
      rw [← hlast, hnone] at hj
      cases hj
  · next j hj =>
      -- there is one last such token, and what counts is whether a member can follow it
      have hiff : (InTypeBody s v ∧ ∃ j, s.LastOf Kind.isFirm 0 v j ∧ Follows s j) ↔
          Follows s j := by
        rw [and_iff_right hbody]
        constructor
        · rintro ⟨j', hj', hfollows⟩
          rwa [hj'.unique ((hlast j).mp hj)] at hfollows
        · exact fun hfollows => ⟨j, (hlast j).mp hj, hfollows⟩
      rw [hiff]
      refine (TokenSeq.ends_read (TokenSeq.prev_eq_some hj).2.2.1).bind fun t ht => ?_
      unfold Follows
      rw [TokenSeq.kindAt_of_get? ht, TokenSeq.kindAt_of_get? ht]
      split
      · next hkind => exact Ends.pure (by simp [hkind])
      · next hkind =>
          refine ends_continuesDeclaration_iff.mono fun continues hcontinues => ?_
          rw [hcontinues, hkind]
          simp
      · next hkeyword hcomma =>
          apply Ends.pure
          simp [show t.kind ≠ .keyword from hkeyword, show t.kind ≠ .comma from hcomma]

/-! ### Parameters -/

/-- The token `v` is a variable in the parameter list of a function: `f` is the keyword, only a
name and trivia stand between it and the opening parenthesis `o`, and `c` is the parenthesis
that closes the list. -/
structure Parameter (s : TokenSeq) (f o c v : Nat) : Prop where
  /-- A keyword declares the function. -/
  keyword : s.kindAt (· == .kwFunction) f = true
  /-- A name may follow. -/
  name : ∀ i < o, f < i → s.kindAt Kind.isFirm i = false
  /-- The list opens behind it. -/
  lt_open : f < o
  /-- It opens with a parenthesis. -/
  opening : s.kindAt (· == .openParen) o = true
  /-- It closes with a parenthesis. -/
  closing : s.kindAt (· == .closeParen) c = true
  /-- Up to there, parentheses come in pairs. -/
  balanced : Balanced ((s.kinds.take c).drop (o + 1))
  /-- The variable stands behind the opening parenthesis. -/
  open_lt : o < v
  /-- It stands in front of the closing one. -/
  lt_close : v < c
  /-- It is a variable. -/
  isVariable : s.kindAt (· == .variableName) v = true

/-- A keyword stands in front of a parameter, such as a word for its type or a modifier. -/
def Hinted (s : TokenSeq) (o v : Nat) : Prop :=
  ∃ j, s.LastOf Kind.isFirm (o + 1) v j ∧ s.kindAt (· == .keyword) j = true

/-- A comma stands in front of a parameter, and in the list in front of it a statement ends and
another one starts with a keyword. -/
def Restarted (s : TokenSeq) (o v : Nat) : Prop :=
  ∃ j, s.LastOf Kind.isFirm (o + 1) v j ∧ s.kindAt (· == .comma) j = true ∧
    ∃ e, s.LastOf Kind.endsStatement (o + 1) j e ∧ Declares s (e + 1) j

variable {f o c : Nat}

namespace Parameter

/-- From the keyword to the opening parenthesis no statement ends. -/
theorem not_endsStatement (h : Parameter s f o c v) {i : Nat} (hf : f ≤ i) (ho : i ≤ o) :
    s.kindAt Kind.endsStatement i = false := by
  rcases Nat.eq_or_lt_of_le hf with rfl | hf
  · exact TokenSeq.kindAt_of_beq h.keyword
  rcases Nat.eq_or_lt_of_le ho with rfl | ho
  · exact TokenSeq.kindAt_of_beq h.opening
  -- what is between them is no separator
  have hname := h.name i ho hf
  unfold TokenSeq.kindAt at hname ⊢
  rcases ht : s.get? i with _ | t
  · rfl
  · rw [ht, Option.any_some] at hname
    rw [Option.any_some]
    revert hname
    cases t.kind <;> decide

/-- What stands in front of a parameter is in the list, or the opening parenthesis itself. -/
theorem lastOf_iff (h : Parameter s f o c v) (hne : j ≠ o) :
    s.LastOf Kind.isFirm 0 v j ↔ s.LastOf Kind.isFirm (o + 1) v j := by
  constructor
  · intro hj
    refine ⟨?_, hj.lt_stop, hj.holds, hj.behind⟩
    by_contra hlt
    have hfirm : s.kindAt Kind.isFirm o = true := TokenSeq.kindAt_of_beq h.opening
    rw [hj.behind o (by omega) h.open_lt] at hfirm
    cases hfirm
  · exact fun hj => ⟨Nat.zero_le j, hj.lt_stop, hj.holds, hj.behind⟩

/-- The opening parenthesis makes no member. -/
theorem not_follows_opening (h : Parameter s f o c v) : ¬ Follows s o := by
  rintro (hkeyword | ⟨hcomma, -⟩)
  · rw [TokenSeq.kindAt_of_beq h.opening] at hkeyword
    cases hkeyword
  · rw [TokenSeq.kindAt_of_beq h.opening] at hcomma
    cases hcomma

/-- A comma in the list is in a declaration of members only if a statement ends in the list. -/
theorem declares_iff (h : Parameter s f o c v) (hoj : o < j)
    (hcomma : s.kindAt (· == .comma) j = true) : Declares s (statementStart s j) j ↔
      ∃ e, s.LastOf Kind.endsStatement (o + 1) j e ∧ Declares s (e + 1) j := by
  have hfo := h.lt_open
  -- a statement that starts in front of the list declares the function
  have hdeclares : ∀ first, first ≤ f → ¬ Declares s first j := by
    rintro first hfirst ⟨hnone, -⟩
    have := hnone f hfirst (by omega)
    rw [h.keyword] at this
    cases this
  unfold statementStart
  rw [prevOf_endsStatement]
  rcases hprev : s.prev Kind.endsStatement j 0 with _ | e
  · constructor
    · exact fun hall => absurd hall (hdeclares 0 (Nat.zero_le f))
    · rintro ⟨e, he, -⟩
      have := TokenSeq.kindAt_of_prev_eq_none hprev (Nat.zero_le e) (le_of_lt he.lt_stop)
      rw [he.holds] at this
      cases this
  -- the search starts at the comma, which ends no statement
  have he : s.LastOf Kind.endsStatement 0 j e :=
    (TokenSeq.lastOf_succ_iff (TokenSeq.kindAt_of_beq hcomma)).mp
      (TokenSeq.prev_eq_some_iff.mp hprev)
  constructor
  · intro hall
    refine ⟨e, ⟨?_, he.lt_stop, he.holds, he.behind⟩, hall⟩
    by_contra hlt
    -- in front of the list it would stand before the keyword, or between the two
    by_cases hef : e < f
    · exact hdeclares (e + 1) hef hall
    · have := h.not_endsStatement (i := e) (by omega) (by omega)
      rw [he.holds] at this
      cases this
  · rintro ⟨e', he', hall⟩
    rwa [he'.unique he] at hall

/-- **Which parameters pass for members**, the scope apart. -/
theorem follows_iff (h : Parameter s f o c v) :
    (∃ j, s.LastOf Kind.isFirm 0 v j ∧ Follows s j) ↔ Hinted s o v ∨ Restarted s o v := by
  constructor
  · rintro ⟨j, hj, hfollows⟩
    have hne : j ≠ o := by
      rintro rfl
      exact h.not_follows_opening hfollows
    have hj' := (h.lastOf_iff hne).mp hj
    rcases hfollows with hkeyword | ⟨hcomma, hdeclares⟩
    · exact Or.inl ⟨j, hj', hkeyword⟩
    · exact Or.inr ⟨j, hj', hcomma, (h.declares_iff hj'.floor_le hcomma).mp hdeclares⟩
  · rintro (⟨j, hj, hkeyword⟩ | ⟨j, hj, hcomma, hdeclares⟩)
    · exact ⟨j, (h.lastOf_iff (Nat.ne_of_gt hj.floor_le)).mpr hj, Or.inl hkeyword⟩
    · refine ⟨j, (h.lastOf_iff (Nat.ne_of_gt hj.floor_le)).mpr hj, Or.inr ⟨hcomma, ?_⟩⟩
      exact (h.declares_iff hj.floor_le hcomma).mpr hdeclares

end Parameter

/-! ### What is reported -/

variable {u : SourceUnit} {schema : DocSchema}

/-- What is no member is not looked at. -/
theorem check_of_not_isMember (h : isMember u.tokens v = .ok false) :
    check schema u v = .ok {} := by
  unfold check
  show (isMember u.tokens v >>= _) = _
  rw [h]
  rfl

/-- A member with no comment in front of it. -/
theorem check_of_bare (hpos : 1 ≤ v) (h : isMember u.tokens v = .ok true)
    (hbare : ∀ i < v, u.tokens.kindAt (fun kind => kind == .comment || kind == .docComment) i =
      false) :
    check schema u v = .ok (missing u v) := by
  have hnone : u.tokens.prevOf [.comment, .docComment] (v - 1) 0 = none := by
    unfold TokenSeq.prevOf TokenSeq.prev
    rw [List.find?_eq_none]
    intro i hi
    obtain ⟨-, hle, -⟩ := TokenSeq.mem_behind hi
    have hkind := hbare i (by omega)
    unfold TokenSeq.kindAt at hkind ⊢
    rcases ht : u.tokens.get? i with _ | t
    · simp
    · rw [ht] at hkind
      simpa using hkind
  have hminus : minus v 1 = .ok (v - 1) := if_pos hpos
  simp only [check, h, hminus, bind, Except.bind, Bool.not_true, Bool.false_eq_true,
    if_false, hnone]
  rfl

/-- **What the rule makes of a parameter**, in any finished sequence. It takes the parameter for a
member exactly in the body of a class or interface, and only if a keyword stands in front of it, or
a comma behind the end of a statement in the list. Otherwise there is no violation; a parameter that
passes for a member, with no comment in front of it, is reported. -/
theorem check_parameter (pairs : List (Kind × String)) (u : SourceUnit)
    (hu : u.tokens = .ofPairs pairs) (schema : DocSchema) (f o c v : Nat)
    (hparameter : Parameter u.tokens f o c v) :
    let taken := InTypeBody u.tokens v ∧ (Hinted u.tokens o v ∨ Restarted u.tokens o v)
    (∃ member, isMember u.tokens v = .ok member ∧ (member = true ↔ taken)) ∧
    (¬ taken → check schema u v = .ok {}) ∧
    (taken →
      (∀ i < v, u.tokens.kindAt (fun kind => kind == .comment || kind == .docComment) i = false) →
      check schema u v = .ok (missing u v)) := by
  intro taken
  have hsize := TokenSeq.lt_size_of_kindAt hparameter.isVariable
  have howner : ∀ k, u.tokens.owner v = some k → k < u.tokens.size := by
    rw [hu] at hsize ⊢
    exact fun k => TokenSeq.owner_lt_size hsize
  have hends : Ends True (isMember u.tokens v) fun member => member = true ↔ taken := by
    refine (ends_isMember_iff howner).mono fun member hmember => ?_
    rw [hmember, hparameter.follows_iff]
  obtain ⟨member, hmember, hiff⟩ := hends.exists_of_fits trivial
  refine ⟨⟨member, hmember, hiff⟩, fun hnot => ?_, fun htaken hbare => ?_⟩
  · apply check_of_not_isMember
    rw [hmember, Except.ok.injEq, ← Bool.not_eq_true, hiff]
    exact hnot
  · apply check_of_bare (Nat.zero_lt_of_lt hparameter.open_lt) _ hbare
    rw [hmember, hiff.mpr htaken]

/-- A class with one method, whose parameter list opens at the token 9. -/
def methodUnit (parameters : List (Kind × String)) : SourceUnit where
  path := "Foo.php"
  tokens := .ofPairs (
    [(.kwClass, "class"), (.whitespace, " "), (.identifier, "Foo"), (.openBrace, "\x7b"),
      (.keyword, "public"), (.whitespace, " "), (.kwFunction, "function"), (.whitespace, " "),
      (.identifier, "bar"), (.openParen, "(")] ++ parameters ++
    [(.closeParen, ")"), (.openBrace, "\x7b"), (.closeBrace, "\x7d"), (.closeBrace, "\x7d")])
  comments _ := .ok {}

/-- Two parameters, the first one with the name of a class: `Baz $a, $b`. -/
def namedParameters : List (Kind × String) :=
  [(.identifier, "Baz"), (.whitespace, " "), (.variableName, "$a"), (.comma, ","),
    (.whitespace, " "), (.variableName, "$b")]

/-- A parameter with a word for its type: `array $a`. -/
def typedParameter : List (Kind × String) :=
  [(.keyword, "array"), (.whitespace, " "), (.variableName, "$a")]

/-- Nothing is reported at the second of two parameters, although the class is its innermost
scope. -/
theorem check_parameter_namedParameters :
    let u := methodUnit namedParameters
    Parameter u.tokens 6 9 16 15 ∧ InTypeBody u.tokens 15 ∧
      check .memberVariable u 15 = .ok {} := by
  intro u
  have hparameter : Parameter u.tokens 6 9 16 15 := by constructor <;> decide +kernel
  have hbody : InTypeBody u.tokens 15 := ⟨0, by decide +kernel, by decide +kernel⟩
  have hnot : isMember u.tokens 15 = .ok false := by decide +kernel
  obtain ⟨⟨member, hmember, hiff⟩, hcheck, -⟩ :=
    check_parameter _ u rfl .memberVariable 6 9 16 15 hparameter
  rw [hnot, Except.ok.injEq] at hmember
  subst hmember
  exact ⟨hparameter, hbody, hcheck fun htaken => Bool.false_ne_true (hiff.mpr htaken)⟩

/-- **A parameter with a word for its type is reported** like a member without a comment. -/
theorem check_typedParameter :
    let u := methodUnit typedParameter
    Parameter u.tokens 6 9 13 12 ∧ isMember u.tokens 12 = .ok true ∧
      check .memberVariable u 12 = .ok (missing u 12) := by
  refine ⟨?_, by decide +kernel, by decide +kernel⟩
  constructor <;> decide +kernel

end MemberComment

end PhpStyle
