import PhpStyle.Glob
import PhpStyle.Rule.Basic
import PhpStyle.Text.Case

/-!
# Rules on the declarations of classes and interfaces

* `Exemption` — the class names that two of the rules leave alone, given by patterns. How patterns
  are read and what they stand for is an argument (`PatternReader`), glob patterns unless another
  one is given.
* `nameToken?` — the name that a keyword declares; a keyword without a name, as in a class
  constant, declares nothing.
* `singleRule` — at most one declaration in a file.
* `camelRule` — names in camel caps.
* `fileNameRule` — the declared name is the name of the file.
-/

namespace PhpStyle

/-- A way to read patterns: the names that a pattern stands for, or why it cannot be read. -/
abbrev PatternReader := String → Except GlobError (String → Bool)

/-- Patterns in the style of a shell. -/
def PatternReader.glob : PatternReader := fun pattern => Glob.covers <$> Glob.parse pattern

/-- Class names that a rule leaves alone. -/
structure Exemption where
  /-- For each pattern, the names that it stands for. -/
  patterns : List (String → Bool)

namespace Exemption

/-- Reads the patterns. The first one that cannot be read is given with the error. -/
def ofPatterns (patterns : List String) (read : PatternReader := .glob) :
    Except (String × GlobError) Exemption :=
  Exemption.mk <$> patterns.mapM fun p => (read p).mapError (p, ·)

/-- The patterns that are in force unless others are chosen. -/
def standardPatterns : List String :=
  ["Binford", "*ClassLoader", "*ClassNotFoundException", "*TestSuite", "Stubbles_Sniffs*"]

/-- The exemption that is in force unless another is chosen. -/
def standard (read : PatternReader := .glob) : Exemption :=
  ⟨standardPatterns.filterMap fun p => (read p).toOption⟩

/-- Whether a name is left alone. -/
def covers (e : Exemption) (name : String) : Bool := e.patterns.any (· name)

end Exemption

namespace Declaration

/-- The kinds of the keywords that declare a class or an interface. -/
def keywords : List Kind := [.kwClass, .kwInterface]

/-- The token of the name that the keyword `i` declares. -/
def nameToken? (tokens : TokenSeq) (i : Nat) : Checked (Option Nat) := do
  match tokens.nextNot [.whitespace] (i + 1) none with
  | none => return none
  | some j => return if (← tokens.read j).kind == .identifier then some j else none

/-! ## One declaration in a file -/

/-- The name and code of the rule on single declarations. -/
def singleId : RuleId := ⟨"single-declaration", "SL012"⟩

/-- The first keyword among `candidates` that declares a name, with the name. -/
def firstNamed (tokens : TokenSeq) : List Nat → Checked (Option (Nat × String))
  | [] => .ok none
  | i :: rest => do
    match ← nameToken? tokens i with
    | some j => return some (i, (← tokens.read j).text)
    | none => firstNamed tokens rest

/-- The keywords behind the token `i`. -/
def keywordsAfter (tokens : TokenSeq) (i : Nat) : List Nat :=
  (List.range' (i + 1) (tokens.size - (i + 1))).filter (tokens.kindAt keywords.contains)

/-- What is wrong behind the keyword `i`: the next declaration is one too many, unless its name is
exempt. -/
def checkSingle (exempt : Exemption) (u : SourceUnit) (i : Nat) : Checked Inspection := do
  if (← nameToken? u.tokens i).isNone then return {}
  match ← firstNamed u.tokens (keywordsAfter u.tokens i) with
  | none => return {}
  | some (next, name) =>
    return if exempt.covers name then {}
      else singleId.oneError u next "Only one interface or class is allowed in a file"

/-- The rule on single declarations. -/
def singleRule (exempt : Exemption) : Rule where
  toRuleId := singleId
  description := "Allows only one class or interface per file"
  triggers := keywords
  check := checkSingle exempt

/-! ## Camel caps -/

/-- The name and code of the rule on names. -/
def camelId : RuleId := ⟨"valid-class-name", "SL013"⟩

/-- What can be wrong with a name. -/
inductive NameProblem where
  /-- It starts with no capital letter. -/
  | noCapital
  /-- It has a character that is no letter or digit. -/
  | notCamel
  /-- It has two capital letters in a row. -/
  | twoCapitals
  deriving DecidableEq, Repr

/-- How grave the problem is. -/
def NameProblem.severity : NameProblem → Severity
  | noCapital | notCamel => .error
  | twoCapitals => .warning

/-- The wording of the problem, behind the name. -/
def NameProblem.message : NameProblem → String
  | noCapital => "does not start with a capital letter"
  | notCamel => "is not in camel caps format"
  | twoCapitals => "contains two following capital letters"

/-- Whether a capital follows a capital, where `capital` says whether a capital stands before. -/
def capitalsMeet (capital : Bool) : List Char → Bool
  | [] => false
  | c :: cs => c.isUpper && capital || capitalsMeet c.isUpper cs

/-- Whether a name starts with one of the small prefixes that stand for a project. -/
def isPrefixed (name : List Char) : Bool :=
  "stub".toList.isPrefixOf name || "vfs".toList.isPrefixOf name

/-- What is wrong with a name. Its first character counts as a capital. -/
def nameProblem? (name : List Char) : Option NameProblem :=
  if !isPrefixed name && !name.head?.any Char.isUpper then some .noCapital
  else if (name.drop 1).any (!·.isAlphanum) then some .notCamel
  else if capitalsMeet true (name.drop 1) then some .twoCapitals
  else none

/-- What is wrong with the name that the keyword `i` declares. -/
def checkCamel (u : SourceUnit) (i : Nat) : Checked Inspection := do
  match ← nameToken? u.tokens i with
  | none => return {}
  | some j =>
    let name := (← u.tokens.read j).text
    let sort := Text.capitalize (← u.tokens.read i).text
    match nameProblem? name.toList with
    | none => return {}
    | some problem =>
      let message := s!"{sort} \"{name}\" {problem.message}"
      return { violations := [camelId.violation u i problem.severity message] }

/-- The rule on names. -/
def camelRule : Rule where
  toRuleId := camelId
  description := "Requires camel-caps class and interface names"
  triggers := keywords
  check := checkCamel

/-! ## The name of the file -/

/-- The name and code of the rule on file names. -/
def fileNameId : RuleId := ⟨"class-file-name", "SL014"⟩

/-- What is wrong with the name that the keyword `i` declares: it is not that of the file. -/
def checkFileName (exempt : Exemption) (u : SourceUnit) (i : Nat) : Checked Inspection := do
  match ← nameToken? u.tokens i with
  | none => return {}
  | some j =>
    let name := (← u.tokens.read j).text
    let stem := u.stem?.getD ""
    if name == stem || exempt.covers name then return {}
    let keyword := (← u.tokens.read i).text
    let sort := Text.capitalize keyword
    return fileNameId.oneError u i
      s!"{sort} name ({name}) doesn't match filename. Expected \"{keyword} {stem}\"."

/-- The rule on file names. -/
def fileNameRule (exempt : Exemption) : Rule where
  toRuleId := fileNameId
  description := "Requires class and interface names to match the file name"
  triggers := keywords
  check := checkFileName exempt

end Declaration

end PhpStyle
