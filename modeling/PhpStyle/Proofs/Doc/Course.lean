import PhpStyle.Doc.Validation
import PhpStyle.Proofs.Safety.Basic

/-!
# The course of a validation

A validation goes through three passes. What each of them can do is said here once, and what is
proved about the validation of a block rests on these statements, not on the text of the passes.

* The first pass ends in one of four ways (`DocSchema.Described`). Two of them are reached before
  any line is counted (`DocSchema.ReadsLines` fails); the others differ in whether a tag is
  refused. `DocSchema.ends_describes` says that the pass ends in one of these ways exactly if the
  lines of the descriptions can be added up (`DocSchema.LinesFit`). The proof follows the two
  sums that the pass takes: the line in front of the long description (`DocBlock.ends_reached`),
  and the line of the gap in front of the tags (`DocBlock.ends_beforeTagsFindings`), which is
  taken only to report it.
* The second pass does one of five things with a tag of the schema (`TagPass.Step`). It always has a
  result (`TagPass.exists_step`), since the occurrences whose content is looked at are there.
* The third pass compares a distance (`DocSchema.distanceFinding?`), and has a result exactly if
  that can be added up (`DocSchema.ends_distance`).

Each of the three is an exact statement: the sums that are assumed to fit are part of the result.
-/

namespace PhpStyle

variable {schema : DocSchema} {doc : DocBlock}

/-! ### Descriptions -/

/-- Whether a text is blank. -/
theorem Text.allBlank_iff {text : String} :
    Text.allBlank text = true ↔ ∀ c ∈ text.toList, Text.isBlank c = true := by
  rw [Text.allBlank, List.all_eq_true]

namespace DocBlock

/-- **A block is empty** if it has no tag, and every character of its descriptions is blank. -/
theorem isEmpty_iff : doc.isEmpty = true ↔
    (∀ c ∈ doc.short.toList ++ doc.long.toList, Text.isBlank c = true) ∧ doc.tags = [] := by
  rw [isEmpty, Bool.and_eq_true, Bool.and_eq_true, Text.allBlank_iff, Text.allBlank_iff,
    List.isEmpty_iff, List.forall_mem_append]

/-- The line on which a gap in front of the tags is reported. -/
def gapLine (doc : DocBlock) : Nat :=
  if doc.long.isEmpty then doc.shortLines
  else doc.shortLines + doc.newlinesBetween + Text.newlines doc.long + 1 - doc.newlinesBeforeTags

/-- The gap in front of the tags, on its line. -/
def gapFindings (doc : DocBlock) : List Finding :=
  if doc.isTight then [⟨.gapBeforeTags, .line doc.gapLine⟩] else []

end DocBlock

namespace DocSchema

/-- A validation goes on to the lines of the block: it is not empty, and a short description that is
asked for is there. -/
def ReadsLines (schema : DocSchema) (doc : DocBlock) : Prop :=
  doc.isEmpty = false ∧ ¬ (schema.short = .singleLine ∧ Text.allBlank doc.short = true)

/-- A validation goes on to the tags: none of them is refused. -/
def ReachesTags (schema : DocSchema) (doc : DocBlock) : Prop :=
  schema.ReadsLines doc ∧ ∀ tag ∈ doc.tags, schema.accepts tag.name = true

/-- The lines in front of a long description can be added up, and so can those in front of the tags
where the gap is reported. -/
def LinesFit (schema : DocSchema) (doc : DocBlock) : Prop :=
  schema.ReadsLines doc → doc.long ≠ "" →
    doc.shortLines + doc.newlinesBetween ≤ maxWord ∧
      (doc.isTight = true →
        doc.shortLines + doc.newlinesBetween + Text.newlines doc.long + 1 ≤ maxWord)

/-- What is found on the lines of the descriptions. -/
def lineFindings (schema : DocSchema) (doc : DocBlock) : List Finding :=
  doc.leadFindings ++ doc.betweenFindings ++ doc.gapFindings ++
    if schema.short = .singleLine then doc.severalFindings else []

/-- The ways in which the first pass can end: what it finds, and whether the validation ends. -/
inductive Described (schema : DocSchema) (doc : DocBlock) : List Finding × Bool → Prop
  /-- The block is empty. -/
  | empty (h : doc.isEmpty = true) : Described schema doc ([⟨.emptyBlock, .start⟩], true)
  /-- The short description that is asked for is missing. -/
  | noShort (h : doc.isEmpty = false) (hsingle : schema.short = .singleLine)
      (hblank : Text.allBlank doc.short = true) : Described schema doc ([⟨.noShort, .start⟩], true)
  /-- The first tag that is refused. -/
  | refused {tag : DocTag} (h : schema.ReadsLines doc)
      (hfind : (doc.tags.find? fun tag => !schema.accepts tag.name) = some tag) :
      Described schema doc
        (schema.lineFindings doc ++ [⟨.foreignTag tag.name, .line tag.line⟩], true)
  /-- The validation goes on. -/
  | through (h : schema.ReachesTags doc) : Described schema doc (schema.lineFindings doc, false)

end DocSchema

namespace DocBlock

/-- The line in front of the long description, which is a sum only if there is one. -/
theorem ends_reached (doc : DocBlock) :
    Ends (doc.long ≠ "" → doc.shortLines + doc.newlinesBetween ≤ maxWord) doc.reached fun reached =>
      (doc.long ≠ "" → doc.shortLines + doc.newlinesBetween ≤ maxWord) ∧
        reached = if doc.long.isEmpty then doc.shortLines
          else doc.shortLines + doc.newlinesBetween := by
  unfold reached
  by_cases hlong : doc.long = ""
  · rw [if_pos (by simp [hlong]), if_pos (by simp [hlong])]
    exact Ends.ok ⟨fun hne => absurd hlong hne, rfl⟩
  · rw [if_neg (by simpa using hlong), if_neg (by simpa using hlong)]
    refine (ends_plus_exact.weaken fun hfits => hfits hlong).mono ?_
    rintro reached ⟨hfits, rfl⟩
    exact ⟨fun _ => hfits, rfl⟩

/-- The gap in front of the tags, behind the line `reached`. -/
theorem ends_beforeTagsFindings {reached : Nat} (h : reached =
    if doc.long.isEmpty then doc.shortLines else doc.shortLines + doc.newlinesBetween) :
    Ends (doc.long ≠ "" → doc.isTight = true →
        doc.shortLines + doc.newlinesBetween + Text.newlines doc.long + 1 ≤ maxWord)
      (doc.beforeTagsFindings reached) fun found =>
        (doc.long ≠ "" → doc.isTight = true →
          doc.shortLines + doc.newlinesBetween + Text.newlines doc.long + 1 ≤ maxWord) ∧
        found = doc.gapFindings := by
  unfold beforeTagsFindings gapFindings gapLine
  cases htight : doc.isTight with
  | false =>
      refine Ends.pure ⟨fun _ htight => ?_, rfl⟩
      cases htight
  | true =>
      rw [if_neg (by simp)]
      by_cases hlong : doc.long = ""
      · -- without a long description the line is known already
        rw [if_pos (by simp [hlong])] at h ⊢
        subst h
        exact Ends.pure ⟨fun hne => absurd hlong hne, by simp [hlong]⟩
      · rw [if_neg (by simpa using hlong)] at h ⊢
        subst h
        refine (ends_plus fun hfits => ?_).bind fun behind hbehind => ?_
        · have := hfits hlong rfl
          omega
        subst hbehind
        refine (ends_plus_exact.weaken fun hfits => hfits hlong rfl).bind ?_
        rintro behind ⟨hfits, rfl⟩
        exact Ends.pure ⟨fun _ _ => hfits, by simp [hlong]⟩

end DocBlock

/-- **What the first pass does.** It has a result exactly if the lines of the descriptions can be
added up, and that is one of the four ways in which it can end. -/
theorem DocSchema.ends_describes (schema : DocSchema) (doc : DocBlock) :
    Ends (schema.LinesFit doc) (schema.descriptionFindings doc) fun found =>
      schema.LinesFit doc ∧ schema.Described doc found := by
  -- where the validation ends at once there are no sums
  have hstop : ¬ schema.ReadsLines doc → schema.LinesFit doc :=
    fun hnot hreads => absurd hreads hnot
  unfold descriptionFindings
  split
  · next hempty =>
      refine Ends.pure ⟨hstop fun hreads => ?_, .empty hempty⟩
      rw [hreads.1] at hempty
      cases hempty
  next hempty =>
  rw [Bool.not_eq_true] at hempty
  extract_lets single
  have hsingle : single = true ↔ schema.short = .singleLine := beq_iff_eq
  split
  · next hblank =>
      rw [Bool.and_eq_true, hsingle] at hblank
      exact Ends.pure ⟨hstop fun hreads => hreads.2 hblank, .noShort hempty hblank.1 hblank.2⟩
  next hblank =>
  have hreads : schema.ReadsLines doc := ⟨hempty, by rwa [Bool.and_eq_true, hsingle] at hblank⟩
  refine (doc.ends_reached.weaken fun hfits hlong => (hfits hreads hlong).1).bind ?_
  rintro reached ⟨hfront, hreached⟩
  refine ((DocBlock.ends_beforeTagsFindings hreached).weaken
    fun hfits hlong => (hfits hreads hlong).2).bind ?_
  rintro before ⟨hbehind, rfl⟩
  have hfits : schema.LinesFit doc := fun _ hlong => ⟨hfront hlong, hbehind hlong⟩
  have hfound : doc.leadFindings ++ doc.betweenFindings ++ doc.gapFindings ++
      (if single then doc.severalFindings else []) = schema.lineFindings doc := by
    rw [lineFindings]
    simp only [hsingle]
  rw [hfound]
  split
  · next tag hfind => exact Ends.pure ⟨hfits, .refused hreads hfind⟩
  · next hfind =>
      refine Ends.pure ⟨hfits, .through ⟨hreads, fun tag htag => ?_⟩⟩
      simpa using List.find?_eq_none.mp hfind tag htag

/-- The refused tag is a tag of the block. -/
theorem DocSchema.refused_of_find? {tag : DocTag}
    (h : (doc.tags.find? fun tag => !schema.accepts tag.name) = some tag) :
    tag ∈ doc.tags ∧ schema.accepts tag.name = false := by
  have hrefused := List.find?_some h
  exact ⟨List.mem_of_find?_eq_some h, by simpa using hrefused⟩

/-! ### Tags -/

namespace TagPass

variable {pass next : TagPass} {spec : TagSpec} {tag : DocTag} {first : Nat}
  {occurrences others : List (DocTag × Nat)} {checked : List DocTag}

/-- The occurrences whose content is looked at. -/
def checkedTags (doc : DocBlock) (spec : TagSpec) : List DocTag :=
  ((doc.occurrences spec.name).take (checkedCount spec (doc.occurrences spec.name))).map (·.1)

/-- What the second pass can do with one tag of the schema. -/
inductive Step (schema : DocSchema) (doc : DocBlock) (pass : TagPass) (spec : TagSpec) :
    TagPass → Prop
  /-- The tag does not occur, and need not. -/
  | absent (hocc : doc.occurrences spec.name = []) (hrequired : spec.required = false) :
      Step schema doc pass spec pass
  /-- The tag does not occur, but must. -/
  | missing (hocc : doc.occurrences spec.name = []) (hrequired : spec.required = true) :
      Step schema doc pass spec (pass.note ⟨.missingTag spec.name, .stop⟩)
  /-- The tag occurs, but should not. -/
  | discouraged {tag : DocTag} {first : Nat} {others : List (DocTag × Nat)}
      (hocc : doc.occurrences spec.name = (tag, first) :: others)
      (hdiscouraged : spec.discouraged = true) :
      Step schema doc pass spec (pass.note ⟨.discouragedTag spec.name, .stop⟩)
  /-- A single tag that must come first occurs several times. -/
  | repeated {tag : DocTag} {first : Nat} {others : List (DocTag × Nat)}
      (hocc : doc.occurrences spec.name = (tag, first) :: others)
      (hdiscouraged : spec.discouraged = false) (hothers : others ≠ [])
      (hsingle : spec.multiple = false) (hfirst : spec.placement = .first) :
      Step schema doc pass spec (pass.note ⟨.repeatedFirstTag spec.name, .line tag.line⟩)
  /-- The tag is checked. -/
  | checked {tag : DocTag} {first : Nat} {others : List (DocTag × Nat)}
      (hocc : doc.occurrences spec.name = (tag, first) :: others)
      (hdiscouraged : spec.discouraged = false)
      (hnot : ¬ (others ≠ [] ∧ spec.multiple = false ∧ spec.placement = .first)) :
      Step schema doc pass spec (pass.check schema spec tag first (doc.occurrences spec.name)
        (checkedTags doc spec))

/-- A tag that occurs has as many occurrences as are looked at. -/
theorem checkedCount_le {entry : DocTag × Nat} (h : entry ∈ occurrences) :
    checkedCount spec occurrences ≤ occurrences.length := by
  have := List.length_pos_of_mem h
  rw [checkedCount]
  split <;> omega

/-- **What the second pass does with one tag of the schema.** It always has a result. -/
theorem exists_step (schema : DocSchema) (doc : DocBlock) (pass : TagPass) (spec : TagSpec) :
    ∃ next, step schema doc pass spec = .ok next ∧ Step schema doc pass spec next := by
  unfold step
  rcases hocc : doc.occurrences spec.name with _ | ⟨⟨tag, first⟩, others⟩
  · cases hrequired : spec.required with
    | false => exact ⟨pass, rfl, .absent hocc hrequired⟩
    | true => exact ⟨_, rfl, .missing hocc hrequired⟩
  cases hdiscouraged : spec.discouraged with
  | true => exact ⟨_, rfl, .discouraged hocc hdiscouraged⟩
  | false =>
      by_cases hrepeated : others ≠ [] ∧ spec.multiple = false ∧ spec.placement = .first
      · refine ⟨_, ?_, .repeated hocc hdiscouraged hrepeated.1 hrepeated.2.1 hrepeated.2.2⟩
        simp only
        rw [if_neg (by simp), if_pos (by simpa [and_assoc] using hrepeated)]
        rfl
      · refine ⟨_, ?_, .checked hocc hdiscouraged hrepeated⟩
        simp only
        rw [if_neg (by simp), if_neg (by simpa [and_assoc] using hrepeated), firstOf,
          if_pos (checkedCount_le List.mem_cons_self), checkedTags, hocc]
        rfl

/-- A property that every way to go on leaves behind. -/
theorem ends_step_of {fits : Prop} {P : TagPass → Prop}
    (h : ∀ next, Step schema doc pass spec next → P next) :
    Ends fits (step schema doc pass spec) P := by
  obtain ⟨next, heq, hstep⟩ := exists_step schema doc pass spec
  rw [heq]
  exact Ends.ok (h next hstep)

end TagPass

/-! ### Indentation -/

/-- The distance of a content from a name of `length` bytes, if the longest name has `longest`. -/
def Indentation.distance (longest length : Nat) : Indentation → Nat
  | aligned padding => longest - length + padding
  | fixed width => width

/-- The distance of aligned contents from a name of `length` bytes fits in a word. -/
def Indentation.Fits (longest length : Nat) : Indentation → Prop
  | aligned padding => longest - length + padding ≤ maxWord
  | fixed _ => True

namespace DocSchema

/-- What the third pass finds at a tag, where `longest` is the length of the longest name. -/
def distanceFinding? (schema : DocSchema) (longest : Nat) (tag : DocTag) : Option Finding :=
  let expected := schema.indentation.distance longest tag.name.utf8ByteSize
  if tag.spacing = expected then none
  else
    match schema.indentation with
    | .aligned _ => some ⟨.misaligned tag.name expected tag.spacing, .line tag.line⟩
    | .fixed _ => some ⟨.misindented tag.name expected tag.spacing, .line tag.line⟩

variable {longest : Nat} {tag : DocTag}

/-- **What the third pass does with one tag.** It has a result exactly if the distance of an aligned
content can be added up. -/
theorem ends_distance (h : tag.name.utf8ByteSize ≤ longest) :
    Ends (schema.indentation.Fits longest tag.name.utf8ByteSize)
      (schema.indentationFinding longest tag) fun finding? =>
        schema.indentation.Fits longest tag.name.utf8ByteSize ∧
          finding? = schema.distanceFinding? longest tag := by
  unfold indentationFinding distanceFinding?
  cases schema.indentation with
  | aligned padding =>
      refine (ends_minus h).bind fun distance hdistance => ?_
      subst hdistance
      refine ends_plus_exact.bind fun expected ⟨hfits, hexpected⟩ => ?_
      subst hexpected
      exact Ends.pure ⟨hfits, rfl⟩
  | fixed width => exact Ends.pure ⟨trivial, rfl⟩

/-- Nothing is found exactly if the distance is the one that is asked for. -/
theorem distanceFinding?_eq_none_iff : schema.distanceFinding? longest tag = none ↔
    tag.spacing = schema.indentation.distance longest tag.name.utf8ByteSize := by
  unfold distanceFinding?
  cases schema.indentation <;> simp

/-- What is found is a distance, on the line of the tag. -/
theorem distanceFinding?_eq_some {finding : Finding}
    (h : schema.distanceFinding? longest tag = some finding) :
    finding.place = .line tag.line ∧
      ((∃ expected, finding.problem = .misaligned tag.name expected tag.spacing) ∨
        ∃ expected, finding.problem = .misindented tag.name expected tag.spacing) := by
  unfold distanceFinding? at h
  extract_lets expected at h
  split at h
  · cases h
  split at h
  · cases h
    exact ⟨rfl, Or.inl ⟨expected, rfl⟩⟩
  · cases h
    exact ⟨rfl, Or.inr ⟨expected, rfl⟩⟩

/-- The distance can be added up if the longest name leaves room for the padding. -/
theorem indentation_fits
    (h : ∀ padding, schema.indentation = .aligned padding → longest + padding ≤ maxWord)
    (length : Nat) : schema.indentation.Fits longest length := by
  unfold Indentation.Fits
  split
  · next padding heq =>
      have := h padding heq
      omega
  · trivial

end DocSchema

end PhpStyle
