import Mathlib.Data.List.Infix
import PhpStyle.Proofs.Declarations

/-!
# Which names are in camel caps

The rule on names looks for two capitals in a row with one bit of memory, and counts the first
character of a name as a capital whatever it is. For a name that starts with a capital this is no
more than the truth. For one that starts with a small prefix it would be wrong if a capital came
second, and none does: the second character of a prefix is a small letter too. So the search finds
what it is meant to find, for the names that it is made in (`Declaration.camel_reports_problem`).

The search is described for either value of its bit, by induction on the characters
(`Declaration.capitalsMeet_iff`): two capitals stand side by side (`Declaration.CapitalPair`), or
the bit is set and the first character is a capital. With this it is seen when it may start from a
capital that is not there (`Declaration.capitalsMeet_true_iff`), and that names which start as they
should (`Declaration.WellBegun`) are of this kind (`Declaration.WellBegun.capitalsMeet_iff`).

The problems of a name exclude one another, because each one is looked for in names without the ones
before it (`Declaration.HasProblem`). So `Declaration.nameProblem?_eq_some_iff` is a matter of going
through the three tests in their order.
-/

namespace PhpStyle.Declaration

variable {c : Char} {cs name : List Char} {capital : Bool} {problem : NameProblem}

/-! ### Characters -/

/-- A capital letter of the ASCII alphabet. -/
def IsCapital (c : Char) : Prop := 'A' ≤ c ∧ c ≤ 'Z'

/-- A letter or digit of the ASCII alphabet. -/
def IsLetterOrDigit (c : Char) : Prop := IsCapital c ∨ 'a' ≤ c ∧ c ≤ 'z' ∨ '0' ≤ c ∧ c ≤ '9'

instance (c : Char) : Decidable (IsCapital c) := inferInstanceAs (Decidable (_ ∧ _))

theorem isUpper_iff : c.isUpper = true ↔ IsCapital c := decide_eq_true_iff

theorem isLower_iff : c.isLower = true ↔ 'a' ≤ c ∧ c ≤ 'z' :=
  Bool.and_eq_true_iff.trans (and_congr decide_eq_true_iff decide_eq_true_iff)

theorem isDigit_iff : c.isDigit = true ↔ '0' ≤ c ∧ c ≤ '9' :=
  Bool.and_eq_true_iff.trans (and_congr decide_eq_true_iff decide_eq_true_iff)

theorem isAlphanum_iff : c.isAlphanum = true ↔ IsLetterOrDigit c := by
  have hparts : c.isAlphanum = (c.isUpper || c.isLower || c.isDigit) := rfl
  rw [hparts, Bool.or_eq_true, Bool.or_eq_true, isUpper_iff, isLower_iff, isDigit_iff, or_assoc]
  rfl

/-! ### Names -/

/-- The first character is a capital. -/
def CapitalFirst (cs : List Char) : Prop := ∃ c, cs.head? = some c ∧ IsCapital c

/-- Somewhere two capitals stand side by side. -/
def CapitalPair (cs : List Char) : Prop := ∃ c d, IsCapital c ∧ IsCapital d ∧ [c, d] <:+: cs

/-- The name starts with one of the small prefixes, or with a capital. -/
def WellBegun (name : List Char) : Prop :=
  "stub".toList <+: name ∨ "vfs".toList <+: name ∨ CapitalFirst name

/-- Behind the first character the name has letters and digits only. -/
def PlainBody (name : List Char) : Prop := ∀ c ∈ name.drop 1, IsLetterOrDigit c

@[simp] theorem capitalFirst_cons : CapitalFirst (c :: cs) ↔ IsCapital c := by
  simp [CapitalFirst]

@[simp] theorem not_capitalFirst_nil : ¬ CapitalFirst [] := by
  simp [CapitalFirst]

@[simp] theorem not_capitalPair_nil : ¬ CapitalPair [] := by
  simp [CapitalPair]

/-- Two capitals stand at the start, or further behind. -/
theorem capitalPair_cons_iff : CapitalPair (c :: cs) ↔
    IsCapital c ∧ CapitalFirst cs ∨ CapitalPair cs := by
  constructor
  · rintro ⟨a, b, ha, hb, hpair⟩
    rcases List.infix_cons_iff.mp hpair with hstart | hrest
    · obtain ⟨rfl, rest, rfl⟩ := List.cons_prefix_cons.mp hstart
      exact Or.inl ⟨ha, capitalFirst_cons.mpr hb⟩
    · exact Or.inr ⟨a, b, ha, hb, hrest⟩
  · rintro (⟨hc, d, hd, hcap⟩ | ⟨a, b, ha, hb, hpair⟩)
    · obtain ⟨rest, rfl⟩ := List.head?_eq_some_iff.mp hd
      exact ⟨c, d, hc, hcap, [], rest, rfl⟩
    · exact ⟨a, b, ha, hb, List.infix_cons hpair⟩

/-! ### The search with one bit of memory -/

/-- **What the search finds**: two capitals in a row, or a capital at the start if one is
said to stand before. -/
theorem capitalsMeet_iff : capitalsMeet capital cs = true ↔
    capital = true ∧ CapitalFirst cs ∨ CapitalPair cs := by
  induction cs generalizing capital with
  | nil => simp [capitalsMeet]
  | cons c cs ih =>
      rw [capitalsMeet, Bool.or_eq_true, Bool.and_eq_true, ih, isUpper_iff, capitalFirst_cons,
        capitalPair_cons_iff, and_comm]

/-- **The first character may count as a capital** if it is one, or if the second one is not. -/
theorem capitalsMeet_true_iff (h : IsCapital c ∨ ¬ CapitalFirst cs) :
    capitalsMeet true cs = true ↔ CapitalPair (c :: cs) := by
  rw [capitalsMeet_iff, capitalPair_cons_iff]
  rcases h with h | h
  · simp [h]
  · simp [h]

/-- **In a name that starts as it should, the search finds two capitals in a row.** Behind the first
character of a small prefix stands a small letter. -/
theorem WellBegun.capitalsMeet_iff (h : WellBegun name) :
    capitalsMeet true (name.drop 1) = true ↔ CapitalPair name := by
  rcases h with ⟨rest, rfl⟩ | ⟨rest, rfl⟩ | ⟨c, hc, hcapital⟩
  · have hsecond : ¬ CapitalFirst ('t' :: 'u' :: 'b' :: rest) := by
      rw [capitalFirst_cons]
      decide
    exact @capitalsMeet_true_iff 's' _ (Or.inr hsecond)
  · have hsecond : ¬ CapitalFirst ('f' :: 's' :: rest) := by
      rw [capitalFirst_cons]
      decide
    exact @capitalsMeet_true_iff 'v' _ (Or.inr hsecond)
  · obtain ⟨cs, rfl⟩ := List.head?_eq_some_iff.mp hc
    exact capitalsMeet_true_iff (Or.inl hcapital)

/-! ### Problems -/

/-- The test for the start of a name. -/
theorem badStart_eq_false_iff :
    (!isPrefixed name && !name.head?.any Char.isUpper) = false ↔ WellBegun name := by
  have hfirst : name.head?.any Char.isUpper = true ↔ CapitalFirst name := by
    rw [Option.any_eq_true]
    simp only [isUpper_iff]
    rfl
  rw [← Bool.not_or, Bool.not_eq_false', Bool.or_eq_true, hfirst, isPrefixed, Bool.or_eq_true,
    List.isPrefixOf_iff_prefix, List.isPrefixOf_iff_prefix, or_assoc]
  rfl

/-- The test for the characters behind the first one. -/
theorem badBody_eq_false_iff : (name.drop 1).any (!·.isAlphanum) = false ↔ PlainBody name := by
  rw [List.any_eq_false]
  simp only [Bool.not_eq_true', Bool.not_eq_false, isAlphanum_iff]
  rfl

/-- The name has this problem, of which those named first count first. -/
def HasProblem (name : List Char) : NameProblem → Prop
  | .noCapital => ¬ WellBegun name
  | .notCamel => WellBegun name ∧ ¬ PlainBody name
  | .twoCapitals => WellBegun name ∧ PlainBody name ∧ CapitalPair name

/-- **The problem that is found in a name is the one it has.** -/
theorem nameProblem?_eq_some_iff : nameProblem? name = some problem ↔ HasProblem name problem := by
  unfold nameProblem?
  -- each test is passed or decides
  by_cases hbegun : WellBegun name
  · rw [badStart_eq_false_iff.mpr hbegun, if_neg Bool.false_ne_true]
    by_cases hplain : PlainBody name
    · rw [badBody_eq_false_iff.mpr hplain, if_neg Bool.false_ne_true]
      by_cases hpair : CapitalPair name
      · rw [if_pos (hbegun.capitalsMeet_iff.mpr hpair)]
        cases problem <;> simp [HasProblem, hbegun, hplain, hpair]
      · rw [if_neg (hbegun.capitalsMeet_iff.not.mpr hpair)]
        cases problem <;> simp [HasProblem, hbegun, hplain, hpair]
    · rw [if_pos (eq_true_of_ne_false (badBody_eq_false_iff.not.mpr hplain))]
      cases problem <;> simp [HasProblem, hbegun, hplain]
  · rw [if_pos (eq_true_of_ne_false (badStart_eq_false_iff.not.mpr hbegun))]
    cases problem <;> simp [HasProblem, hbegun]

/-! ### What the rule reports -/

/-- The violation at the keyword `i` whose name has this problem. -/
def nameViolation (u : SourceUnit) (i : Nat) (keyword : Token) (name : String)
    (problem : NameProblem) : Violation :=
  camelId.violation u i problem.severity
    s!"{Text.capitalize keyword.text} \"{name}\" {problem.message}"

/-- The rule on names reports the problem of the name that a keyword declares. -/
theorem checkCamel_of_named {u : SourceUnit} {i : Nat} {keyword : Token} {name : String}
    (hkeyword : u.tokens.get? i = some keyword) (hname : name? u.tokens i = some name) :
    checkCamel u i =
      .ok { violations :=
        (nameProblem? name.toList).toList.map (nameViolation u i keyword name) } := by
  rcases nameToken?_cases u.tokens i with ⟨-, hnone⟩ | ⟨j, t, htoken, ht, hsome⟩
  · rw [hname] at hnone
    cases hnone
  obtain rfl := Option.some.inj (hname.symm.trans hsome)
  unfold checkCamel
  simp only [htoken, TokenSeq.read_eq_ok_iff.mpr ht, TokenSeq.read_eq_ok_iff.mpr hkeyword,
    bind, Except.bind]
  rcases nameProblem? t.text.toList with _ | problem
  · rfl
  · rfl

/-- **What the rule on names reports on a declaration.** There is a result with at most one
violation, which has its place at the keyword. It is the error on the missing capital exactly if the
name starts with none of the small prefixes and with no capital. Otherwise it is the error on camel
caps exactly if some character behind the first one is no letter or digit. Otherwise it is the
warning on two capitals exactly if two stand side by side in the name. -/
theorem camel_reports_problem (u : SourceUnit) (i : Nat) (name : String)
    (h : Declares u.tokens i name) :
    ∃ keyword found, u.tokens.get? i = some keyword ∧ camelRule.check u i = .ok found ∧
      found.violations.length ≤ 1 ∧
      let report (severity : Severity) (problem : String) : Violation :=
        camelId.violation u i severity s!"{Text.capitalize keyword.text} \"{name}\" {problem}"
      ∀ v, v ∈ found.violations ↔
        ¬ WellBegun name.toList ∧ v = report .error "does not start with a capital letter" ∨
        WellBegun name.toList ∧ ¬ PlainBody name.toList ∧
          v = report .error "is not in camel caps format" ∨
        WellBegun name.toList ∧ PlainBody name.toList ∧ CapitalPair name.toList ∧
          v = report .warning "contains two following capital letters" := by
  obtain ⟨hkind, hname⟩ := declares_iff.mp h
  obtain ⟨keyword, hkeyword⟩ := TokenSeq.exists_get? (TokenSeq.lt_size_of_kindAt hkind)
  refine ⟨keyword, _, hkeyword, checkCamel_of_named hkeyword hname, ?_, ?_⟩
  · rw [List.length_map]
    exact Option.length_toList_le
  · intro report v
    simp only [List.mem_map, Option.mem_toList, nameProblem?_eq_some_iff]
    constructor
    · rintro ⟨problem, hproblem, rfl⟩
      cases problem with
      | noCapital => exact Or.inl ⟨hproblem, rfl⟩
      | notCamel => exact Or.inr (Or.inl ⟨hproblem.1, hproblem.2, rfl⟩)
      | twoCapitals => exact Or.inr (Or.inr ⟨hproblem.1, hproblem.2.1, hproblem.2.2, rfl⟩)
    · rintro (⟨hbegun, rfl⟩ | ⟨hbegun, hplain, rfl⟩ | ⟨hbegun, hplain, hpair, rfl⟩)
      · exact ⟨.noCapital, hbegun, rfl⟩
      · exact ⟨.notCamel, ⟨hbegun, hplain⟩, rfl⟩
      · exact ⟨.twoCapitals, ⟨hbegun, hplain, hpair⟩, rfl⟩

/-- A class whose name starts with a small prefix and has three capitals in a row. -/
def parserUnit : SourceUnit where
  path := "stubXMLParser.php"
  tokens := .ofPairs [(.kwClass, "class"), (.whitespace, " "), (.identifier, "stubXMLParser")]
  comments := fun _ => .ok {}

/-- The rule gives the warning and nothing else. -/
theorem camel_reports_problem_parserUnit :
    Declares parserUnit.tokens 0 "stubXMLParser" ∧
      ∃ found, camelRule.check parserUnit 0 = .ok found ∧ found.violations.length ≤ 1 ∧
        camelId.violation parserUnit 0 .warning
          "Class \"stubXMLParser\" contains two following capital letters" ∈ found.violations := by
  have hdeclares : Declares parserUnit.tokens 0 "stubXMLParser" := by
    rw [declares_iff]
    decide +kernel
  have hbegun : WellBegun "stubXMLParser".toList := Or.inl ⟨"XMLParser".toList, by decide⟩
  have hplain : PlainBody "stubXMLParser".toList := badBody_eq_false_iff.mp (by decide)
  have hpair : CapitalPair "stubXMLParser".toList :=
    ⟨'X', 'M', by decide, by decide, "stub".toList, "LParser".toList, by decide⟩
  obtain ⟨keyword, found, hkeyword, hcheck, hlength, hviolations⟩ :=
    camel_reports_problem parserUnit 0 "stubXMLParser" hdeclares
  have hclass : (parserUnit.tokens.get? 0).map (fun t => Text.capitalize t.text) =
      some "Class" := by decide +kernel
  rw [hkeyword, Option.map_some, Option.some.injEq] at hclass
  refine ⟨hdeclares, found, hcheck, hlength, ?_⟩
  refine (hviolations _).mpr (Or.inr (Or.inr ⟨hbegun, hplain, hpair, ?_⟩))
  rw [hclass]
  rfl

end PhpStyle.Declaration
