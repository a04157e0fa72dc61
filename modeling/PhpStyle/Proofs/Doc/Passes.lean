import Mathlib.Tactic.SplitIfs
import PhpStyle.Proofs.Doc.Course
import PhpStyle.Proofs.Text.Lines

/-!
# Which part of a validation finds which problem

A validation is made of parts that look for different things, and no problem is found by two of
them. So what is reported about one thing can be picked out of all findings: the parts that look for
something else add nothing.

`DocProblem.foundBy` names the part that finds a problem, and `FoundBy` says of a list of findings
that one part made all of them. There is one lemma for each part that its findings are of this kind,
by the branches of its definition: `DocSchema.foundBy_descriptionFindings` for the first pass,
`TagPass.foundBy_numberFindings`, `TagPass.foundBy_placeFindings` and
`TagPass.foundBy_contentFindings` for the check of one tag, whose findings are put together in
`TagPass.findings_check`, and `DocSchema.foundBy_distanceFinding?` for the last pass. What is
concluded from it is always the same: if a property of problems implies that another part finds
them, then no finding of this part has it (`FoundBy.filter_eq_nil`). Proofs about one kind of
problem go through this lemma, and do not look into the other parts.

About the first pass a little more is known, that the gap in front of the tags is reported on one
line only (`DocSchema.allAbout_descriptionFindings`).

Violations carry messages and no problems. Two problems are known by their wording
(`DocProblem.message_eq_scattered_iff`, `DocProblem.message_eq_gapBeforeTags_iff`): names and labels
may be any texts, so the messages are told apart by their first words, which are fixed, or by their
last letter.
-/

namespace PhpStyle

/-- The parts of a validation. -/
inductive DocCheck where
  /-- The descriptions, and tags that are refused. -/
  | description
  /-- Whether a tag may occur, and must. -/
  | presence
  /-- How often a tag occurs, and whether side by side. -/
  | number
  /-- Where a tag first stands. -/
  | place
  /-- What a tag says. -/
  | content
  /-- How far a content stands from the name. -/
  | indentation
  deriving DecidableEq, Repr

/-- Whether a part belongs to the second pass, which goes through the tags of the schema. -/
def DocCheck.ofTags : DocCheck → Bool
  | description | indentation => false
  | presence | number | place | content => true

/-- The part that finds a problem. -/
def DocProblem.foundBy : DocProblem → DocCheck
  | emptyBlock | noShort | leadingNewlines _ | gapBetween | gapBeforeTags => .description
  | severalLines | foreignTag _ => .description
  | missingTag _ | discouragedTag _ | repeatedFirstTag _ => .presence
  | scatteredTag _ | repeatedTag _ => .number
  | wrongOrder .. | notFirst _ => .place
  | noPackageName _ | noVersion | badVersion _ | noType => .content
  | misaligned .. | misindented .. => .indentation

/-- All findings are made by one part. -/
def FoundBy (check : DocCheck) (found : List Finding) : Prop :=
  ∀ finding ∈ found, finding.problem.foundBy = check

variable {schema : DocSchema} {doc : DocBlock} {check : DocCheck} {found more : List Finding}

namespace FoundBy

/-- Nothing is found. -/
@[simp] theorem nil : FoundBy check [] := by simp [FoundBy]

/-- One thing is found. -/
theorem single {finding : Finding} (h : finding.problem.foundBy = check) :
    FoundBy check [finding] := by
  simpa [FoundBy] using h

/-- **What another part looks for is not among the findings.** -/
theorem filter_eq_nil (h : FoundBy check found) {p : DocProblem → Bool}
    (hp : ∀ problem, p problem = true → problem.foundBy ≠ check) :
    found.filter (p ·.problem) = [] := by
  rw [List.filter_eq_nil_iff]
  intro finding hmem hfound
  exact hp finding.problem hfound (h finding hmem)

end FoundBy

/-! ### Descriptions -/

/-- What the first pass can find: a gap in front of the tags on its line, or another problem
of the descriptions. -/
def Finding.AboutDescription (doc : DocBlock) (finding : Finding) : Prop :=
  finding = ⟨.gapBeforeTags, .line doc.gapLine⟩ ∨
    finding.problem.foundBy = .description ∧ finding.problem ≠ .gapBeforeTags

/-- All findings are such. -/
def AllAboutDescription (doc : DocBlock) (found : List Finding) : Prop :=
  ∀ finding ∈ found, finding.AboutDescription doc

namespace AllAboutDescription

/-- Nothing is found. -/
theorem nil : AllAboutDescription doc [] := by simp [AllAboutDescription]

/-- The gap is found. -/
theorem gap : AllAboutDescription doc [⟨.gapBeforeTags, .line doc.gapLine⟩] := by
  simp [AllAboutDescription, Finding.AboutDescription]

/-- Another problem is found. -/
theorem other {finding : Finding} (h : finding.problem.foundBy = .description)
    (hne : finding.problem ≠ .gapBeforeTags) : AllAboutDescription doc [finding] := by
  simp [AllAboutDescription, Finding.AboutDescription, h, hne]

/-- Two lists of findings. -/
theorem append (h : AllAboutDescription doc found) (h' : AllAboutDescription doc more) :
    AllAboutDescription doc (found ++ more) := by
  unfold AllAboutDescription at h h' ⊢
  rw [List.forall_mem_append]
  exact ⟨h, h'⟩

end AllAboutDescription

/-- What is found on the lines of the descriptions. -/
theorem DocSchema.allAbout_lineFindings (schema : DocSchema) (doc : DocBlock) :
    AllAboutDescription doc (schema.lineFindings doc) := by
  have hlead : AllAboutDescription doc doc.leadFindings := by
    rw [DocBlock.leadFindings]
    split
    · exact AllAboutDescription.nil
    · exact AllAboutDescription.other rfl (by simp)
  have hbetween : AllAboutDescription doc doc.betweenFindings := by
    unfold DocBlock.betweenFindings
    split
    · exact AllAboutDescription.nil
    · exact AllAboutDescription.other rfl (by simp)
  have hgap : AllAboutDescription doc doc.gapFindings := by
    unfold DocBlock.gapFindings
    split
    · exact AllAboutDescription.gap
    · exact AllAboutDescription.nil
  have hseveral : AllAboutDescription doc doc.severalFindings := by
    unfold DocBlock.severalFindings
    extract_lets short body
    split
    · exact AllAboutDescription.other rfl (by simp)
    · exact AllAboutDescription.nil
  apply ((hlead.append hbetween).append hgap).append
  split
  · exact hseveral
  · exact AllAboutDescription.nil

/-- **What the first pass can find.** -/
theorem DocSchema.allAbout_descriptionFindings {final : Bool}
    (h : schema.descriptionFindings doc = .ok (found, final)) : AllAboutDescription doc found := by
  obtain ⟨-, hdescribed⟩ := (schema.ends_describes doc).of_eq_ok h
  cases hdescribed with
  | empty => exact AllAboutDescription.other rfl (by simp)
  | noShort => exact AllAboutDescription.other rfl (by simp)
  | refused =>
      exact (schema.allAbout_lineFindings doc).append (AllAboutDescription.other rfl (by simp))
  | through => exact schema.allAbout_lineFindings doc

/-- **The first pass** finds problems of the descriptions only. -/
theorem DocSchema.foundBy_descriptionFindings {final : Bool}
    (h : schema.descriptionFindings doc = .ok (found, final)) : FoundBy .description found := by
  intro finding hmem
  rcases allAbout_descriptionFindings h finding hmem with rfl | ⟨hcheck, -⟩
  · rfl
  · exact hcheck

/-! ### Tags -/

namespace TagPass

variable {spec : TagSpec} {tag : DocTag} {first : Nat} {occurrences : List (DocTag × Nat)}
  {checked : List DocTag}

/-- **What the check of a tag adds**, part by part. -/
theorem findings_check (schema : DocSchema) (pass : TagPass) (spec : TagSpec)
    (tag : DocTag) (first : Nat) (occurrences : List (DocTag × Nat)) (checked : List DocTag) :
    (pass.check schema spec tag first occurrences checked).findings =
      pass.findings ++ numberFindings spec tag first occurrences ++
        placeFindings pass.reached spec tag first ++ contentFindings schema checked :=
  rfl

/-- Occurrences that stand apart are a matter of number. -/
theorem foundBy_scattered : FoundBy .number (scattered spec first occurrences) := by
  intro finding hmem
  unfold scattered at hmem
  obtain ⟨⟨⟨tag, position⟩, expected⟩, -, heq⟩ := List.mem_filterMap.mp hmem
  simp only at heq
  split_ifs at heq
  cases heq
  rfl

/-- The number of occurrences. -/
theorem foundBy_numberFindings : FoundBy .number (numberFindings spec tag first occurrences) := by
  unfold numberFindings
  split_ifs
  · exact FoundBy.nil
  · exact foundBy_scattered
  · exact FoundBy.single rfl

/-- The first occurrence. -/
theorem foundBy_placeFindings {reached : Nat} :
    FoundBy .place (placeFindings reached spec tag first) := by
  unfold placeFindings
  split
  · split
    · exact FoundBy.nil
    · exact FoundBy.single rfl
  · split
    · exact FoundBy.nil
    · exact FoundBy.single rfl

/-- The contents. -/
theorem foundBy_contentFindings : FoundBy .content (contentFindings schema checked) := by
  intro finding hmem
  obtain ⟨tag, -, heq⟩ := List.mem_filterMap.mp hmem
  obtain ⟨problem, hproblem, rfl⟩ := Option.map_eq_some_iff.mp heq
  unfold DocSchema.contentProblem? at hproblem
  extract_lets content at hproblem
  split_ifs at hproblem
  all_goals
    cases hproblem
    rfl

end TagPass

/-! ### Indentation -/

/-- **The third pass** finds problems of the indentation only. -/
theorem DocSchema.foundBy_distanceFinding? (schema : DocSchema) (longest : Nat) (tag : DocTag) :
    FoundBy .indentation (schema.distanceFinding? longest tag).toList := by
  intro finding hmem
  obtain ⟨-, ⟨expected, hproblem⟩ | ⟨expected, hproblem⟩⟩ :=
    distanceFinding?_eq_some (Option.mem_toList.mp hmem)
  · rw [hproblem]
    rfl
  · rw [hproblem]
    rfl

/-! ### Wording -/

namespace DocProblem

variable {problem : DocProblem} {name : String}

/-- **A tag that stands apart is known by its message.** Other messages begin with another word, or
end with another letter. -/
theorem message_eq_scattered_iff :
    problem.message schema = s!"@{name} tags must be grouped together" ↔
      problem = .scatteredTag name := by
  constructor
  · intro h
    -- the last letter tells it from messages that start with a name or a label
    have hlast :
        ∀ c, c ≠ 'r' → (s!"@{name} tags must be grouped together").toList.getLast? ≠ some c := by
      intro c hc hlast
      rw [String.toList_append, List.getLast?_append] at hlast
      exact hc (Option.some.inj hlast).symm
    cases problem with
    | scatteredTag other =>
        have hname := (String.append_right_inj _).mp ((String.append_left_inj _).mp h)
        exact congrArg scatteredTag hname
    | emptyBlock => exact absurd h (append_ne_of_getLast? rfl (hlast 'y' (by decide)))
    | severalLines | noPackageName =>
        exact absurd h (append_ne_of_getLast? rfl (hlast 'e' (by decide)))
    | foreignTag => exact absurd h (append_ne_of_getLast? rfl (hlast 't' (by decide)))
    | misaligned | misindented => exact absurd h (append_ne_of_getLast? rfl (hlast '.' (by decide)))
    | _ =>
        unfold message at h
        simp only [String.append_assoc] at h
        exact absurd h (append_ne_of_beginnings (by decide) (by decide))
  · rintro rfl
    rfl

/-- **The gap in front of the tags is known by its message.** -/
theorem message_eq_gapBeforeTags_iff :
    problem.message schema =
        s!"There must be exactly one blank line before the tags in {schema.label} comment" ↔
      problem = .gapBeforeTags := by
  constructor
  · intro h
    have hlast : ∀ c, c ≠ 't' →
        (s!"There must be exactly one blank line before the tags in {schema.label} comment"
          ).toList.getLast? ≠ some c := by
      intro c hc hlast
      rw [String.toList_append, List.getLast?_append] at hlast
      exact hc (Option.some.inj hlast).symm
    cases problem with
    | gapBeforeTags => rfl
    | emptyBlock => exact absurd h (append_ne_of_getLast? rfl (hlast 'y' (by decide)))
    | severalLines => exact absurd h (append_ne_of_getLast? rfl (hlast 'e' (by decide)))
    | _ =>
        unfold message at h
        simp only [String.append_assoc] at h
        exact absurd h (append_ne_of_beginnings (by decide) (by decide))
  · rintro rfl
    rfl

end DocProblem

end PhpStyle
