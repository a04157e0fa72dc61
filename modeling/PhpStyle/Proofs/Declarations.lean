import PhpStyle.Proofs.Checked
import PhpStyle.Proofs.Search
import PhpStyle.Rule.Declaration

/-!
# Which declarations are one too many

The rule on single declarations says nothing about the keyword that it is asked about. It looks for
the next keyword with a name and reports that one, unless its name is exempt. So no question by
itself shows that a declaration is reported, or that it is reported once; this is a matter of all
questions about a file together (`Declaration.single_reports_surplus`).

Everything is said in terms of one list: the keywords with a name behind them, in the order of the
file (`Declaration.named`). One question reports the head of this list from the next token on
(`Declaration.checkSingle_of_named`), and a question about a keyword without a name reports nothing
(`Declaration.checkSingle_of_nameless`). By induction on the tokens that are left, the questions
from some place on report the tail of the list from there
(`Declaration.exists_mapM_checkSingle`): the question about the first declaration reports the
second, and the later questions those behind it. That the second is exempt makes no difference for
the third, because exempt declarations are asked about like all others.

What remains is to read the tail of the list as it should be read. The list is in order, so an entry
is in the tail exactly if another one precedes it (`Declaration.mem_tail_iff_of_sorted`), and its
entries are the declarations of the file (`Declaration.Declares`). Those in the tail that are not
exempt are the ones that are one too many (`Declaration.Surplus`).
-/

namespace PhpStyle.Declaration

variable {s : TokenSeq} {u : SourceUnit} {exempt : Exemption} {i j k start : Nat} {name : String}

/-! ### Declarations -/

/-- The keyword `i` declares a class or an interface of this name: the name is the first token
behind the keyword that is no whitespace, and an identifier. -/
def Declares (s : TokenSeq) (i : Nat) (name : String) : Prop :=
  s.kindAt keywords.contains i = true ∧ ∃ j t, s.FirstOf Kind.isContent (i + 1) s.size j ∧
    s.get? j = some t ∧ t.kind = .identifier ∧ t.text = name

/-- The keyword `i` declares something although an earlier keyword does, and the name is not
exempt. -/
def Surplus (exempt : Exemption) (s : TokenSeq) (i : Nat) : Prop :=
  ∃ name, Declares s i name ∧ exempt.covers name = false ∧ ∃ k < i, ∃ earlier, Declares s k earlier

/-- The name behind the token `i`. -/
def name? (s : TokenSeq) (i : Nat) : Option String := do
  let j ← s.next Kind.isContent (i + 1) none
  let t ← s.get? j
  if t.kind = .identifier then some t.text else none

/-- A keyword declares the name behind it. -/
theorem declares_iff : Declares s i name ↔ s.kindAt keywords.contains i = true ∧
    name? s i = some name := by
  unfold Declares name?
  simp only [Option.bind_eq_bind, Option.bind_eq_some_iff, TokenSeq.next_none_eq_some_iff,
    Option.ite_none_right_eq_some, Option.some.injEq]
  constructor
  · rintro ⟨hkind, j, t, hfirst, ht, hidentifier, htext⟩
    exact ⟨hkind, j, hfirst, t, ht, hidentifier, htext⟩
  · rintro ⟨hkind, j, hfirst, t, ht, hidentifier, htext⟩
    exact ⟨hkind, j, t, hfirst, ht, hidentifier, htext⟩

/-- The token of a name is found if there is a name. -/
theorem nameToken?_cases (s : TokenSeq) (i : Nat) :
    (nameToken? s i = .ok none ∧ name? s i = none) ∨
      ∃ j t, nameToken? s i = .ok (some j) ∧ s.get? j = some t ∧ name? s i = some t.text := by
  unfold nameToken? name?
  rw [TokenSeq.nextNot_whitespace]
  rcases hnext : s.next Kind.isContent (i + 1) none with _ | j
  · exact Or.inl ⟨rfl, rfl⟩
  obtain ⟨t, ht⟩ := TokenSeq.exists_get? (TokenSeq.next_none_eq_some_iff.mp hnext).lt_stop
  simp only [TokenSeq.read_eq_ok_iff.mpr ht, bind, Except.bind, Option.bind_some, ht, beq_iff_eq]
  by_cases hkind : t.kind = .identifier
  · exact Or.inr ⟨j, t, by simp [hkind, pure, Except.pure], ht, by simp [hkind]⟩
  · exact Or.inl ⟨by simp [hkind, pure, Except.pure], by simp [hkind]⟩

/-! ### Keywords with a name -/

/-- The tokens among `candidates` that have a name behind them, with the name. -/
def named (s : TokenSeq) (candidates : List Nat) : List (Nat × String) :=
  candidates.filterMap fun i => (name? s i).map (i, ·)

/-- A token with a name behind it. -/
theorem named_cons_of_some (h : name? s i = some name) (rest : List Nat) :
    named s (i :: rest) = (i, name) :: named s rest := by
  simp [named, h]

/-- A token without one. -/
theorem named_cons_of_none (h : name? s i = none) (rest : List Nat) :
    named s (i :: rest) = named s rest := by
  simp [named, h]

/-- The tokens with a name are candidates. -/
theorem mem_named {candidates : List Nat} :
    (i, name) ∈ named s candidates ↔ i ∈ candidates ∧ name? s i = some name := by
  simp only [named, List.mem_filterMap, Option.map_eq_some_iff, Prod.mk.injEq]
  constructor
  · rintro ⟨i', hi', name', hname, rfl, rfl⟩
    exact ⟨hi', hname⟩
  · rintro ⟨hi, hname⟩
    exact ⟨i, hi, name, hname, rfl, rfl⟩

/-- The search for a name gives the first token that has one. -/
theorem firstNamed_eq (s : TokenSeq) (candidates : List Nat) :
    firstNamed s candidates = .ok (named s candidates).head? := by
  induction candidates with
  | nil => rfl
  | cons i rest ih =>
      rw [firstNamed]
      rcases nameToken?_cases s i with ⟨htoken, hname⟩ | ⟨j, t, htoken, ht, hname⟩
      · rw [htoken, named_cons_of_none hname]
        exact ih
      · simp only [htoken, TokenSeq.read_eq_ok_iff.mpr ht, bind, Except.bind,
          named_cons_of_some hname]
        rfl

/-- The keywords from `start` on. -/
def keywordsFrom (s : TokenSeq) (start : Nat) : List Nat :=
  (List.range' start (s.size - start)).filter (s.kindAt keywords.contains)

/-- The keywords behind a token. -/
theorem keywordsAfter_eq (s : TokenSeq) (i : Nat) : keywordsAfter s i = keywordsFrom s (i + 1) :=
  rfl

/-- There is no keyword behind the last token. -/
theorem keywordsFrom_of_le (h : s.size ≤ start) : keywordsFrom s start = [] := by
  simp [keywordsFrom, Nat.sub_eq_zero_of_le h]

/-- The keywords from a token on are those behind it, and the token itself if it is one. -/
theorem keywordsFrom_of_lt (h : start < s.size) :
    keywordsFrom s start =
      if s.kindAt keywords.contains start then start :: keywordsFrom s (start + 1)
      else keywordsFrom s (start + 1) := by
  have hlength : s.size - start = s.size - (start + 1) + 1 := by omega
  unfold keywordsFrom
  rw [hlength, List.range'_succ, List.filter_cons]

/-- Keywords are listed upwards. -/
theorem keywordsFrom_sorted (s : TokenSeq) (start : Nat) :
    (keywordsFrom s start).Pairwise (· < ·) :=
  List.Pairwise.filter _ List.pairwise_lt_range'

/-- So are those with a name. -/
theorem named_sorted {candidates : List Nat} (h : candidates.Pairwise (· < ·)) :
    (named s candidates).Pairwise (·.1 < ·.1) := by
  refine List.pairwise_filterMap.mpr (h.imp ?_)
  intro i j hij entry hentry entry' hentry'
  obtain ⟨name, -, rfl⟩ := Option.map_eq_some_iff.mp hentry
  obtain ⟨name', -, rfl⟩ := Option.map_eq_some_iff.mp hentry'
  exact hij

/-! ### Questions -/

/-- The errors on declarations, those with exempt names apart. -/
def surplusErrors (exempt : Exemption) (u : SourceUnit) (entries : List (Nat × String)) :
    List Violation :=
  (entries.filter fun entry => !exempt.covers entry.2).map fun entry =>
    singleId.violation u entry.1 .error "Only one interface or class is allowed in a file"

/-- **One question about a keyword with a name** reports the next keyword with a name. -/
theorem checkSingle_of_named (hname : name? u.tokens i = some name) : checkSingle exempt u i =
    .ok { violations :=
      surplusErrors exempt u (named u.tokens (keywordsFrom u.tokens (i + 1))).head?.toList } := by
  rcases nameToken?_cases u.tokens i with ⟨-, hnone⟩ | ⟨j, t, htoken, -, -⟩
  · rw [hname] at hnone
    cases hnone
  unfold checkSingle
  simp only [htoken, bind, Except.bind, Option.isNone_some, Bool.false_eq_true, if_false,
    firstNamed_eq, keywordsAfter_eq]
  rcases (named u.tokens (keywordsFrom u.tokens (i + 1))).head? with _ | ⟨next, other⟩
  · rfl
  · by_cases hexempt : exempt.covers other = true
    · simp [surplusErrors, hexempt, pure, Except.pure]
    · simp [surplusErrors, hexempt, pure, Except.pure, RuleId.oneError]

/-- **One question about a keyword without a name** reports nothing. -/
theorem checkSingle_of_nameless (hname : name? u.tokens i = none) :
    checkSingle exempt u i = .ok {} := by
  rcases nameToken?_cases u.tokens i with ⟨htoken, -⟩ | ⟨j, t, -, -, hsome⟩
  · unfold checkSingle
    simp only [htoken, bind, Except.bind, Option.isNone_none, if_true]
    rfl
  · rw [hname] at hsome
    cases hsome

/-- **The questions from some place on** report the declarations there, the first one apart. Each
declaration is reported by the question about the one in front of it. -/
theorem exists_mapM_checkSingle (exempt : Exemption) (u : SourceUnit) (start : Nat) :
    ∃ found, (keywordsFrom u.tokens start).mapM (checkSingle exempt u) = .ok found ∧
      found.flatMap (·.violations) =
        surplusErrors exempt u (named u.tokens (keywordsFrom u.tokens start)).tail := by
  -- by the number of tokens that are left
  induction hleft : u.tokens.size - start generalizing start with
  | zero =>
      rw [keywordsFrom_of_le (by omega)]
      exact ⟨[], rfl, rfl⟩
  | succ n ih =>
      obtain ⟨found, hfound, hviolations⟩ := ih (start + 1) (by omega)
      rw [keywordsFrom_of_lt (by omega)]
      by_cases hkind : u.tokens.kindAt keywords.contains start = true
      · rw [if_pos hkind]
        rcases hname : name? u.tokens start with _ | name
        · -- a keyword without a name reports nothing, and is not in the list
          refine ⟨{} :: found,
            Checked.mapM_cons_eq_ok_iff.mpr ⟨_, _, checkSingle_of_nameless hname, hfound, rfl⟩, ?_⟩
          rw [named_cons_of_none hname, List.flatMap_cons, hviolations]
          rfl
        · refine ⟨_ :: found,
            Checked.mapM_cons_eq_ok_iff.mpr ⟨_, _, checkSingle_of_named hname, hfound, rfl⟩, ?_⟩
          rw [named_cons_of_some hname, List.tail_cons, List.flatMap_cons, hviolations]
          -- the next declaration comes from this question, those behind it from the later ones
          rcases named u.tokens (keywordsFrom u.tokens (start + 1)) with _ | ⟨next, rest⟩
          · rfl
          · simp only [surplusErrors, List.head?_cons, Option.toList_some, List.tail_cons,
              ← List.map_append, ← List.filter_append, List.singleton_append]
      · rw [if_neg hkind]
        exact ⟨found, hfound, hviolations⟩

/-! ### All questions about a file -/

/-- An element of a list in order is not the first one exactly if another one precedes it. -/
theorem mem_tail_iff_of_sorted {entries : List (Nat × String)} (h : entries.Pairwise (·.1 < ·.1))
    {entry : Nat × String} : entry ∈ entries.tail ↔
      entry ∈ entries ∧ ∃ earlier ∈ entries, earlier.1 < entry.1 := by
  rcases entries with _ | ⟨head, rest⟩
  · simp
  obtain ⟨hhead, -⟩ := List.pairwise_cons.mp h
  rw [List.tail_cons]
  constructor
  · intro hmem
    exact ⟨List.mem_cons_of_mem head hmem, head, List.mem_cons_self, hhead entry hmem⟩
  · rintro ⟨hmem, earlier, hearlier, hlt⟩
    rcases List.mem_cons.mp hmem with rfl | hmem
    · rcases List.mem_cons.mp hearlier with rfl | hearlier
      · exact absurd hlt (lt_irrefl _)
      · exact absurd hlt (lt_asymm (hhead earlier hearlier))
    · exact hmem

/-- A keyword with a name is a declaration. -/
theorem mem_named_keywords : (i, name) ∈ named s (keywordsFrom s 0) ↔ Declares s i name := by
  rw [mem_named, declares_iff, keywordsFrom, List.mem_filter, List.mem_range'_1]
  constructor
  · rintro ⟨⟨-, hkind⟩, hname⟩
    exact ⟨hkind, hname⟩
  · rintro ⟨hkind, hname⟩
    have hlt := TokenSeq.lt_size_of_kindAt hkind
    exact ⟨⟨⟨Nat.zero_le i, by omega⟩, hkind⟩, hname⟩

/-- **Each declaration that is one too many is reported once**, by the questions about all keywords
of a file in their order. There is a result for each of them. The errors are those on the keywords
`extra`, in this order, and each of them has its place at the keyword. The keywords are in the order
of the file and none is listed twice, and they are exactly those that declare something behind an
earlier declaration under a name that is not exempt. So keywords without a name do not count, and an
exempt declaration neither hides later ones nor has them reported twice. -/
theorem single_reports_surplus (exempt : Exemption) (u : SourceUnit) :
    let questions :=
      (List.range u.tokens.size).filter (u.tokens.kindAt (singleRule exempt).triggers.contains)
    let error (i : Nat) :=
      singleId.violation u i .error "Only one interface or class is allowed in a file"
    ∃ (found : List Inspection) (extra : List Nat),
      questions.mapM ((singleRule exempt).check u) = .ok found ∧
      found.flatMap (·.violations) = extra.map error ∧ (∀ i ∈ extra, (error i).location.token = i) ∧
      extra.Pairwise (· < ·) ∧ ∀ i, i ∈ extra ↔ Surplus exempt u.tokens i := by
  intro questions error
  have hquestions : questions = keywordsFrom u.tokens 0 := by
    simp only [questions, keywordsFrom, List.range_eq_range', Nat.sub_zero]
    rfl
  have hsorted := named_sorted (s := u.tokens) (keywordsFrom_sorted u.tokens 0)
  have hmem : ∀ i, i ∈ (((named u.tokens (keywordsFrom u.tokens 0)).tail.filter fun entry =>
      !exempt.covers entry.2).map (·.1)) ↔ Surplus exempt u.tokens i := by
    intro i
    simp only [List.mem_map, List.mem_filter, mem_tail_iff_of_sorted hsorted, Prod.exists,
      exists_and_right, exists_eq_right, mem_named_keywords, Bool.not_eq_true', Surplus]
    constructor
    · rintro ⟨name, ⟨hdeclares, k, ⟨earlier, hearlier⟩, hlt⟩, hexempt⟩
      exact ⟨name, hdeclares, hexempt, k, hlt, earlier, hearlier⟩
    · rintro ⟨name, hdeclares, hexempt, k, hlt, earlier, hearlier⟩
      exact ⟨name, ⟨hdeclares, k, ⟨earlier, hearlier⟩, hlt⟩, hexempt⟩
  obtain ⟨found, hfound, hviolations⟩ := exists_mapM_checkSingle exempt u 0
  refine ⟨found, _, by rw [hquestions]; exact hfound, ?_, ?_, ?_, hmem⟩
  · rw [hviolations, surplusErrors, List.map_map]
    rfl
  · intro i hi
    obtain ⟨name, hdeclares, -⟩ := (hmem i).mp hi
    exact SourceUnit.location_token (TokenSeq.lt_size_of_kindAt hdeclares.1)
  · rw [List.pairwise_map]
    exact (hsorted.sublist (List.tail_sublist _)).filter _

/-- Four declarations, of which the second one is exempt, and a keyword without a name behind it. -/
def sharedFile : SourceUnit where
  path := "shared.php"
  tokens := .ofPairs [(.kwClass, "class"), (.whitespace, " "), (.identifier, "Foo"),
    (.kwClass, "class"), (.whitespace, " "), (.identifier, "FooTestSuite"),
    (.identifier, "Foo"), (.doubleColon, "::"), (.kwClass, "class"), (.semicolon, ";"),
    (.kwInterface, "interface"), (.whitespace, " "), (.identifier, "Bar"),
    (.kwClass, "class"), (.whitespace, " "), (.identifier, "Baz")]
  comments _ := .ok {}

/-- The tokens that one question reports. -/
def reported (found : Inspection) : List Nat := found.violations.map (·.location.token)

/-- The exempt declaration between the first one and the last two is not reported, and does not
change that each of the last two is reported once. -/
theorem single_reports_surplus_sharedFile :
    Declares sharedFile.tokens 0 "Foo" ∧ Declares sharedFile.tokens 3 "FooTestSuite" ∧
      Exemption.standard.covers "FooTestSuite" = true ∧
      (∀ i, Surplus .standard sharedFile.tokens i ↔ i ∈ [10, 13]) ∧
      ∃ found, [0, 3, 8, 10, 13].mapM ((singleRule .standard).check sharedFile) = .ok found ∧
        found.map reported = [[], [10], [], [13], []] := by
  obtain ⟨found, extra, hfound, hviolations, htoken, -, hmem⟩ :=
    single_reports_surplus .standard sharedFile
  have hquestions : (List.range sharedFile.tokens.size).filter
      (sharedFile.tokens.kindAt (singleRule .standard).triggers.contains) = [0, 3, 8, 10, 13] := by
    decide +kernel
  rw [hquestions] at hfound
  have hrun : List.map reported <$>
      [0, 3, 8, 10, 13].mapM ((singleRule .standard).check sharedFile) =
      .ok [[], [10], [], [13], []] := by
    decide +kernel
  rw [hfound] at hrun
  have hreported : found.map reported = [[], [10], [], [13], []] := Except.ok.inj hrun
  -- the errors are those on `extra`, each at its keyword
  have hextra : extra = [10, 13] := by
    calc extra = extra.map fun i => (singleId.violation sharedFile i .error
            "Only one interface or class is allowed in a file").location.token :=
          ((List.map_congr_left htoken).trans (List.map_id extra)).symm
      _ = (found.flatMap (·.violations)).map (·.location.token) := by
          rw [hviolations, List.map_map]
          rfl
      _ = (found.map reported).flatten := by
          rw [List.map_flatMap, List.flatMap_def]
          rfl
      _ = [10, 13] := by
          rw [hreported]
          rfl
  rw [hextra] at hmem
  refine ⟨declares_iff.mpr ⟨?_, ?_⟩, declares_iff.mpr ⟨?_, ?_⟩, ?_, fun i => (hmem i).symm, found,
    hfound, hreported⟩
  all_goals decide +kernel

end PhpStyle.Declaration
