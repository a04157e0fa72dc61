import PhpStyle.Preset
import PhpStyle.Proofs.Safety.DocBlock
import PhpStyle.Proofs.Scope.Enclosing
import PhpStyle.Proofs.Switch.Checks

/-!
# The rules meet no fault

Every rule that a preset can choose, with any options, looks at any token of a linked sequence
without a fault (`BuiltIn.check_completes`). `BuiltIn` lists these rules with their options, and
`BuiltIn.Fits` says for each of them which sums have to fit in a word; for six of the nine there are
none.

Each rule is followed step by step, as it is written (`Ends.bind`). A step can fail in one of a few
ways: a token is read, one is taken from an index, a part of a list is cut off, or a sum is formed.
What makes it succeed is nearly always known from a step before it, and so the lemmas on the parts
of a rule say what they find: a search finds tokens that exist, a block ends where a token is
(`FileComment.ends_blockEnd`), a member has a token in front of it (`MemberComment.ends_isMember`).
Two facts come from elsewhere. The owner of a scope is a token because the sequence is linked
(`TokenSeq.owner_lt_size`), and comments and switches have modules of their own.

Nothing is said here about what the rules find, which is the subject of the other modules, and
nothing about how long it takes.
-/

namespace PhpStyle

variable {fits : Prop} {tokens : TokenSeq} {u : SourceUnit} {i : Nat}

/-! ### Declarations -/

namespace Declaration

/-- The name that a keyword declares, if there is one, is a token. -/
theorem ends_nameToken? :
    Ends fits (nameToken? tokens i) fun name? => ∀ j, name? = some j → j < tokens.size := by
  rw [nameToken?]
  split
  · exact Ends.pure fun j hj => by cases hj
  · next j hj =>
      have hlt := (TokenSeq.next_eq_some hj).2.1
      refine (TokenSeq.ends_read hlt).bind fun t _ => Ends.pure fun j' hj' => ?_
      split at hj'
      · cases hj'
        exact hlt
      · cases hj'

/-- The search for a declaration with a name. -/
theorem ends_firstNamed (candidates : List Nat) :
    Ends fits (firstNamed tokens candidates) fun _ => True := by
  induction candidates with
  | nil => exact Ends.ok trivial
  | cons i rest ih =>
      rw [firstNamed]
      refine ends_nameToken?.bind fun name? hname => ?_
      cases name? with
      | none => exact ih
      | some j => exact (TokenSeq.ends_read (hname j rfl)).bind fun _ _ => Ends.pure trivial

/-- The rule on single declarations. -/
theorem ends_checkSingle {exempt : Exemption} :
    Ends fits (checkSingle exempt u i) fun _ => True := by
  rw [checkSingle]
  refine ends_nameToken?.bind fun name? _ => ?_
  split
  · exact Ends.pure trivial
  refine (ends_firstNamed _).bind fun found _ => ?_
  cases found with
  | none => exact Ends.pure trivial
  | some next => exact Ends.pure trivial

/-- The rule on names. -/
theorem ends_checkCamel (hi : i < u.tokens.size) : Ends fits (checkCamel u i) fun _ => True := by
  rw [checkCamel]
  refine ends_nameToken?.bind fun name? hname => ?_
  cases name? with
  | none => exact Ends.pure trivial
  | some j =>
      refine (TokenSeq.ends_read (hname j rfl)).bind fun name _ => ?_
      refine (TokenSeq.ends_read hi).bind fun keyword _ => ?_
      dsimp only
      split
      · exact Ends.pure trivial
      · exact Ends.pure trivial

/-- The rule on file names. -/
theorem ends_checkFileName {exempt : Exemption} (hi : i < u.tokens.size) :
    Ends fits (checkFileName exempt u i) fun _ => True := by
  rw [checkFileName]
  refine ends_nameToken?.bind fun name? hname => ?_
  cases name? with
  | none => exact Ends.pure trivial
  | some j =>
      refine (TokenSeq.ends_read (hname j rfl)).bind fun name _ => ?_
      dsimp only
      split
      · exact Ends.pure trivial
      · exact (TokenSeq.ends_read hi).bind fun keyword _ => Ends.pure trivial

end Declaration

/-! ### Spaces -/

namespace Spacing

/-- The whitespace in front of a line end. -/
theorem ends_gapTrails {t : Token} (hi : i < tokens.size) :
    Ends fits (gapTrails tokens i t) fun _ => True := by
  rw [gapTrails]
  split
  · exact Ends.pure trivial
  split
  · exact Ends.pure trivial
  · exact Ends.pure trivial
  split
  · exact Ends.pure trivial
  · refine (ends_minus (by omega)).bind fun j hj => ?_
    exact (TokenSeq.ends_read (by omega)).bind fun before _ => Ends.pure trivial

/-- The rule on trailing whitespace. -/
theorem ends_checkTrailing (hi : i < u.tokens.size) :
    Ends fits (checkTrailing u i) fun _ => True := by
  have htrails : Ends fits (trails u.tokens i) fun _ => True := by
    rw [trails]
    refine (TokenSeq.ends_read hi).bind fun t _ => ?_
    split
    · exact Ends.pure trivial
    · exact Ends.pure trivial
    · exact ends_gapTrails hi
    · exact Ends.pure trivial
  exact htrails.bind fun _ _ => Ends.pure trivial

/-- The rule on type casts. -/
theorem ends_checkCast : Ends fits (checkCast u i) fun _ => True := by
  rw [checkCast]
  split
  · exact Ends.ok trivial
  · exact Ends.ok trivial

end Spacing

/-- The rule on repeated blocks. -/
theorem RepeatedBlock.ends_check (hi : i < u.tokens.size) :
    Ends fits (RepeatedBlock.check u i) fun _ => True := by
  rw [RepeatedBlock.check]
  split
  · exact Ends.pure trivial
  · refine (ends_firstOf ?_).bind fun before _ => Ends.pure trivial
    rw [Array.length_toList]
    exact hi.le

/-! ### Comments -/

namespace FileComment

/-- An opening tag in front of the token. -/
theorem ends_hasEarlierTag : Ends fits (hasEarlierTag tokens i) fun _ => True := by
  rw [hasEarlierTag]
  split
  · exact Ends.pure trivial
  · exact (ends_minus (by omega)).bind fun _ _ => Ends.pure trivial

/-- What stands behind an opening tag is a token. -/
theorem ends_candidate? :
    Ends fits (candidate? tokens i) fun found => ∀ j, found = some j → j < tokens.size := by
  rw [candidate?]
  split
  · exact Ends.pure fun j hj => by cases hj
  · next j hj =>
      have hlt := (TokenSeq.next_eq_some hj).2.1
      refine (TokenSeq.ends_read hlt).bind fun t _ => Ends.pure fun j' hj' => ?_
      split at hj'
      · exact (TokenSeq.next_eq_some hj').2.1
      · cases hj'
        exact hlt

/-- A block that starts at a token of a documentation comment ends at a token. -/
theorem ends_blockEnd {start : Nat} {t : Token} (ht : tokens.get? start = some t)
    (hkind : t.kind = .docComment) :
    Ends fits (blockEnd tokens start) fun last => start ≤ last ∧ last < tokens.size := by
  have hsize := TokenSeq.lt_size_of_get? ht
  rw [blockEnd]
  split
  · next j hj =>
      obtain ⟨hstart, hlt, -, hnot⟩ := TokenSeq.next_eq_some hj
      -- the first token that is no part of the comment is another one
      have hne : j ≠ start := by
        rintro rfl
        rw [TokenSeq.kindAt, ht] at hnot
        simp [hkind] at hnot
      exact (ends_minus (by omega)).mono fun last hlast => by omega
  · exact (ends_minus (by omega)).mono fun last hlast => by omega

/-- The declaration behind a block. -/
theorem ends_belongsToDeclaration {last : Nat} :
    Ends fits (belongsToDeclaration tokens last) fun _ => True := by
  rw [belongsToDeclaration]
  split
  · exact Ends.pure trivial
  · next j hj =>
      have hlt := (TokenSeq.next_eq_some hj).2.1
      refine (TokenSeq.ends_read hlt).bind fun t _ => ?_
      split
      · exact Ends.pure trivial
      · exact (TokenSeq.ends_readRange hlt.le).bind fun _ _ => Ends.pure trivial

/-- The rule on the comment of a file. -/
theorem ends_check {schema : DocSchema} :
    Ends (schema.Fits u) (check schema u i) fun _ => True := by
  rw [check]
  refine ends_hasEarlierTag.bind fun earlier _ => ?_
  split
  · exact Ends.pure trivial
  refine ends_candidate?.bind fun found hfound => ?_
  cases found with
  | none => exact Ends.pure trivial
  | some start =>
      have hstart := hfound start rfl
      refine (TokenSeq.ends_read hstart).bind fun t ht => ?_
      split
      · exact Ends.pure trivial
      · exact Ends.pure trivial
      · next hkind =>
          refine (ends_blockEnd ht hkind).bind fun last _ => ?_
          refine ends_belongsToDeclaration.bind fun belongs _ => ?_
          split
          · exact Ends.pure trivial
          · exact schema.ends_inspect hstart.le
      · exact Ends.pure trivial

end FileComment

namespace MemberComment

/-- The scope around a token. -/
theorem ends_inTypeBody (howner : ∀ k, tokens.owner i = some k → k < tokens.size) :
    Ends fits (inTypeBody tokens i) fun _ => True := by
  rw [inTypeBody]
  split
  · exact Ends.pure trivial
  · next k hk => exact (TokenSeq.ends_read (howner k hk)).bind fun _ _ => Ends.pure trivial

/-- The start of the statement of a comma. -/
theorem ends_continuesDeclaration : Ends fits (continuesDeclaration tokens i) fun _ => True := by
  rw [continuesDeclaration]
  split
  · exact Ends.pure trivial
  split
  · exact Ends.pure trivial
  · next j hj =>
      exact (TokenSeq.ends_read (TokenSeq.next_eq_some hj).2.1).bind fun _ _ => Ends.pure trivial

/-- A member has a token in front of it. -/
theorem ends_isMember (howner : ∀ k, tokens.owner i = some k → k < tokens.size) :
    Ends fits (isMember tokens i) fun member => member = true → 0 < i := by
  rw [isMember]
  refine (ends_inTypeBody howner).bind fun inside _ => ?_
  split
  · exact Ends.pure fun h => by cases h
  · next hfirst =>
      -- the first token was sorted out before one is taken from the index
      have hpos : 0 < i := by
        by_contra hzero
        exact hfirst (by simp [show i = 0 by omega])
      refine (ends_minus hpos).bind fun start _ => ?_
      split
      · exact Ends.pure fun _ => hpos
      · next j hj =>
          refine (TokenSeq.ends_read (TokenSeq.prev_eq_some hj).2.2.1).bind fun t _ => ?_
          split
          · exact Ends.pure fun _ => hpos
          · exact ends_continuesDeclaration.mono fun _ _ _ => hpos
          · exact Ends.pure fun _ => hpos

/-- A block starts at a token, or behind the last one. -/
theorem blockStart_le {last : Nat} : blockStart tokens last ≤ tokens.size := by
  rw [blockStart]
  split
  · next j hj => exact (TokenSeq.prev_eq_some hj).2.2.1
  · exact Nat.zero_le _

/-- The rule on the comments of member variables. -/
theorem ends_check {schema : DocSchema}
    (howner : ∀ k, u.tokens.owner i = some k → k < u.tokens.size) :
    Ends (schema.Fits u) (check schema u i) fun _ => True := by
  rw [check]
  refine (ends_isMember howner).bind fun member hmember => ?_
  split
  · exact Ends.pure trivial
  · next hnot =>
      have hpos : 0 < i := hmember (by simpa using hnot)
      refine (ends_minus hpos).bind fun start _ => ?_
      split
      · exact Ends.pure trivial
      · next last hlast =>
          have hsize := (TokenSeq.prev_eq_some hlast).2.2.1
          split
          · exact Ends.pure trivial
          refine (TokenSeq.ends_read hsize).bind fun t _ => ?_
          split
          · exact Ends.pure trivial
          · exact schema.ends_inspect blockStart_le

end MemberComment

/-! ### All rules -/

/-- The rules that a preset can choose, with their options. -/
inductive BuiltIn where
  /-- The comment of a file. -/
  | fileComment (schema : DocSchema)
  /-- The comments of member variables. -/
  | memberComment (schema : DocSchema)
  /-- The layout of switches. -/
  | switchLayout (style : SwitchStyle)
  /-- Trailing whitespace. -/
  | trailing
  /-- Spaces behind casts. -/
  | cast
  /-- One declaration in a file. -/
  | single (exempt : Exemption)
  /-- Names in camel caps. -/
  | camel
  /-- The name of the file. -/
  | fileName (exempt : Exemption)
  /-- The class block repeats the file block. -/
  | repeatedBlock

namespace BuiltIn

/-- The rule. -/
def rule : BuiltIn → Rule
  | fileComment schema => FileComment.rule schema
  | memberComment schema => MemberComment.rule schema
  | switchLayout style => SwitchLayout.rule style
  | trailing => Spacing.trailingRule
  | cast => Spacing.castRule
  | single exempt => Declaration.singleRule exempt
  | camel => Declaration.camelRule
  | fileName exempt => Declaration.fileNameRule exempt
  | repeatedBlock => RepeatedBlock.rule

/-- The sums that the rule forms fit in a word. -/
def Fits (u : SourceUnit) : BuiltIn → Prop
  | fileComment schema | memberComment schema => schema.Fits u
  | switchLayout style => style.Fits u.tokens
  | _ => True

end BuiltIn

/-- All rules with the given options. -/
def RuleOptions.builtIns (o : RuleOptions) : List BuiltIn :=
  [.fileComment o.file, .memberComment .memberVariable, .switchLayout o.switch, .trailing, .cast,
    .single o.single, .camel, .fileName o.fileName, .repeatedBlock]

/-- Every rule of a preset is one of these, with the options of the preset. -/
theorem RuleOptions.exists_builtIn {p : Preset} {o : RuleOptions} {r : Rule} (h : r ∈ p.rules o) :
    ∃ b ∈ o.builtIns, b.rule = r := by
  -- the smaller preset is part of the larger one
  have hall : r ∈ Preset.structuralRules o ++ Preset.furtherRules o := by
    cases p with
    | full => exact h
    | structural => exact List.mem_append_left _ h
  have hrules : o.builtIns.map BuiltIn.rule = Preset.structuralRules o ++ Preset.furtherRules o :=
    rfl
  rw [← hrules] at hall
  exact List.mem_map.mp hall

namespace BuiltIn

/-- Looking at a token of a linked sequence, rule by rule. -/
theorem ends_check {kinds : List Kind} (b : BuiltIn) (hlinks : Links kinds kinds.length u.tokens)
    (howner : ∀ k, u.tokens.owner i = some k → k < u.tokens.size) (hi : i < u.tokens.size) :
    Ends (b.Fits u) (b.rule.check u i) fun _ => True := by
  cases b with
  | fileComment schema => exact FileComment.ends_check
  | memberComment schema => exact MemberComment.ends_check howner
  | switchLayout style =>
      exact (SwitchStyle.ends_remarks hlinks hi).bind fun _ _ => Ends.pure trivial
  | trailing => exact Spacing.ends_checkTrailing hi
  | cast => exact Spacing.ends_checkCast
  | single exempt => exact Declaration.ends_checkSingle
  | camel => exact Declaration.ends_checkCamel hi
  | fileName exempt => exact Declaration.ends_checkFileName hi
  | repeatedBlock => exact RepeatedBlock.ends_check hi

/-- **Every rule looks at every token without a fault.** Whatever pairs a sequence is made of,
however its comments are read and whatever the options of a rule are: looking at any token, not
only at one that the rule listens to, gives a result, unless a sum does not fit in a word. No
token is read that does not exist, nothing is taken from a list or a number that is too small, and
no search turns back. The searches look at tokens that exist, and bytes are cut off a text only
where a character ends. -/
theorem check_completes (b : BuiltIn) (pairs : List (Kind × String)) (path : String)
    (comments : CommentReader) (i : Nat) (hi : i < pairs.length) :
    let u : SourceUnit := { path, tokens := TokenSeq.ofPairs pairs, comments }
    ((∃ found, b.rule.check u i = .ok found) ∨
      b.rule.check u i = .error .overflow ∧ ¬ b.Fits u) ∧
    (∀ start stop, ∀ j ∈ u.tokens.ahead start stop, j < u.tokens.size) ∧
    (∀ start floor, ∀ j ∈ u.tokens.behind start floor, j < u.tokens.size) ∧
    (∀ n line rest, Text.dropBytes? n line = some rest →
      ∃ lead, line = lead ++ rest ∧ (String.ofList lead).utf8ByteSize = n) ∧
    ∀ (p : Preset) (o : RuleOptions), ∀ r ∈ p.rules o, ∃ b : BuiltIn, b.rule = r := by
  intro u
  have hsize : i < u.tokens.size := by
    rw [TokenSeq.size_ofPairs]
    exact hi
  have howner : ∀ k, u.tokens.owner i = some k → k < u.tokens.size := by
    exact fun k => TokenSeq.owner_lt_size hsize
  refine ⟨?_, ?_, ?_, ?_, ?_⟩
  · exact (b.ends_check (TokenSeq.links_ofPairs pairs) howner hsize).result_or_overflow
  · exact fun start stop j hj => (TokenSeq.mem_ahead hj).2.1
  · exact fun start floor j hj => (TokenSeq.mem_behind hj).2.2
  · exact fun n line rest h => Text.exists_lead_of_dropBytes? h
  · intro p o r hr
    obtain ⟨b, -, hb⟩ := RuleOptions.exists_builtIn hr
    exact ⟨b, hb⟩

/-- A brace that closes nothing, and a switch with one case. -/
def switchBehindBrace : List (Kind × String) :=
  [(.closeBrace, "\x7d"), (.kwSwitch, "switch"), (.openBrace, "\x7b"), (.kwCase, "case"),
    (.colon, ":"), (.kwBreak, "break"), (.semicolon, ";"), (.closeBrace, "\x7d")]

/-- The switch behind the brace is looked at, and there is a result. -/
theorem check_completes_switchBehindBrace :
    1 < switchBehindBrace.length ∧
      ∃ found, (switchLayout {}).rule.check
        { path := "switch.php", tokens := TokenSeq.ofPairs switchBehindBrace,
          comments := fun _ => .ok {} } 1 = .ok found := by
  refine ⟨by decide, ?_⟩
  have hends := (check_completes (switchLayout {}) switchBehindBrace "switch.php"
    (fun _ => .ok {}) 1 (by decide)).1
  refine hends.resolve_right fun hover => hover.2 ?_
  intro i t ht
  have hcolumns : ∀ t ∈ (TokenSeq.ofPairs switchBehindBrace).tokens, t.column ≤ 30 := by decide
  have hcolumn := hcolumns t (Array.mem_of_getElem? ht)
  have hmax : 30 + 4 + 4 ≤ maxWord := by decide
  simp only
  omega

end BuiltIn

end PhpStyle
