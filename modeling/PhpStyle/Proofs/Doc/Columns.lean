import PhpStyle.Proofs.Doc.Order

/-!
# Which contents are compared, and with which column

The third pass over a block compares the distances of the contents that the second pass kept. Both
what it kept and the longest name are described here from the schema and the block alone: the
longest name among the tags of the schema that were checked (`DocBlock.longestRanked`), and the
occurrences whose content was looked at and is not blank (`DocBlock.columnTags`).

The second pass carries both along, from one tag of the schema to the next. `TagPass.Measured` says
that it knows them after some tags, whatever it found there; `Measured.step` and `Measured.run` are
one tag more, and all of them. That no content that is compared has a longer name than the longest
one is then a fact about the two descriptions (`DocBlock.length_le_longestRanked`), and it is what
the third pass needs to subtract. So it has a result exactly if the distances can be added up
(`DocSchema.ends_distances`).

`DocSchema.ends_findings_of_reaches` puts the three passes together. To take them apart again, it
must be known which pass a finding comes from: `TagPass.AboutTags` says that the second pass looks
for nothing that is a matter of the others, and `DocSchema.mem_descriptionFindings` uses this for
findings about the descriptions.
-/

namespace PhpStyle

/-! ### What is compared -/

/-- The length in bytes of the longest name among the tags that take part in the order. -/
def DocBlock.longestRanked (doc : DocBlock) (specs : List TagSpec) : Nat :=
  ((specs.filter fun spec => spec.Ranked doc).map (·.name.utf8ByteSize)).foldl max 0

/-- The occurrences of these tags whose content is looked at, and is not blank. -/
def DocBlock.columnTags (doc : DocBlock) (specs : List TagSpec) : List DocTag :=
  (specs.filter fun spec => spec.Ranked doc).flatMap fun spec =>
    (TagPass.checkedTags doc spec).filter fun tag => !Text.allBlank tag.content

variable {schema : DocSchema} {doc : DocBlock} {specs done : List TagSpec} {spec : TagSpec}
  {tag : DocTag}

namespace DocBlock

/-- A tag more that takes part. -/
theorem longestRanked_concat_of_ranked (h : spec.Ranked doc) :
    doc.longestRanked (specs ++ [spec]) = max (doc.longestRanked specs) spec.name.utf8ByteSize := by
  simp [longestRanked, h]

/-- A tag more that does not take part. -/
theorem longestRanked_concat_of_not (h : ¬ spec.Ranked doc) :
    doc.longestRanked (specs ++ [spec]) = doc.longestRanked specs := by
  simp [longestRanked, h]

/-- The contents of a tag more that takes part. -/
theorem columnTags_concat_of_ranked (h : spec.Ranked doc) :
    doc.columnTags (specs ++ [spec]) = doc.columnTags specs ++
      (TagPass.checkedTags doc spec).filter fun tag => !Text.allBlank tag.content := by
  simp [columnTags, h]

/-- The contents of a tag more that does not take part. -/
theorem columnTags_concat_of_not (h : ¬ spec.Ranked doc) :
    doc.columnTags (specs ++ [spec]) = doc.columnTags specs := by
  simp [columnTags, h]

/-- No name of a content that is compared is longer than the longest one, by induction on the
schema from its end. -/
theorem length_le_longestRanked (h : tag ∈ doc.columnTags specs) :
    tag.name.utf8ByteSize ≤ doc.longestRanked specs := by
  induction specs using List.reverseRecOn with
  | nil => simp [columnTags] at h
  | append_singleton specs spec ih =>
      by_cases hranked : spec.Ranked doc
      · rw [columnTags_concat_of_ranked hranked, List.mem_append, List.mem_filter] at h
        rw [longestRanked_concat_of_ranked hranked]
        rcases h with h | ⟨h, -⟩
        · exact (ih h).trans (le_max_left _ _)
        · obtain ⟨p, htag⟩ := TagPass.exists_tagAt_of_mem_checkedTags h
          rw [htag.2]
          exact le_max_right _ _
      · rw [columnTags_concat_of_not hranked] at h
        rw [longestRanked_concat_of_not hranked]
        exact ih h

end DocBlock

/-! ### The second pass -/

namespace TagPass

variable {pass : TagPass}

/-- What the second pass knows about the columns after the tags `done` of the schema. -/
structure Measured (doc : DocBlock) (done : List TagSpec) (pass : TagPass) : Prop where
  /-- The longest name. -/
  longest_eq : pass.longest = doc.longestRanked done
  /-- The contents that are to be compared. -/
  indented_eq : pass.indented = doc.columnTags done

namespace Measured

/-- Before the first tag. -/
theorem start (doc : DocBlock) : Measured doc [] {} := ⟨rfl, rfl⟩

/-- **One tag of the schema more.** -/
theorem step (h : Measured doc done pass) (spec : TagSpec) :
    Ends True (TagPass.step schema doc pass spec) (Measured doc (done ++ [spec])) := by
  rcases step_cases schema doc pass spec with
    ⟨hnot, found, -, heq⟩ | ⟨hranked, tag, first, others, -, heq⟩
  · rw [heq]
    apply Ends.ok
    constructor
    · rw [DocBlock.longestRanked_concat_of_not hnot]
      exact h.longest_eq
    · rw [DocBlock.columnTags_concat_of_not hnot]
      exact h.indented_eq
  · rw [heq]
    apply Ends.ok
    constructor
    · rw [DocBlock.longestRanked_concat_of_ranked hranked, ← h.longest_eq]
      rfl
    · rw [DocBlock.columnTags_concat_of_ranked hranked, ← h.indented_eq]
      rfl

/-- **All tags of the schema.** -/
theorem run (h : Measured doc done pass) (rest : List TagSpec) :
    Ends True (rest.foldlM (TagPass.step schema doc) pass) (Measured doc (done ++ rest)) :=
  Ends.foldlM_done (fun _ _ spec hpass => hpass.step spec) h rest

end Measured

/-- The second pass has a result, which knows the columns of all tags of the schema. -/
theorem exists_measured_run (schema : DocSchema) (doc : DocBlock) :
    ∃ pass, run schema doc = .ok pass ∧ Measured doc schema.tags pass :=
  ((Measured.start doc).run schema.tags).exists_of_fits trivial

/-- The second pass has found only what its own parts look for. -/
def AboutTags (pass : TagPass) : Prop :=
  ∀ finding ∈ pass.findings, finding.problem.foundBy.ofTags = true

namespace AboutTags

/-- No finding is made by a part of another pass. -/
theorem foundBy_ne (h : AboutTags pass) {check : DocCheck} (hcheck : check.ofTags = false)
    {finding : Finding} (hmem : finding ∈ pass.findings) : finding.problem.foundBy ≠ check := by
  rintro rfl
  rw [h finding hmem] at hcheck
  cases hcheck

/-- One tag of the schema. -/
theorem step (h : AboutTags pass) (spec : TagSpec) :
    Ends True (TagPass.step schema doc pass spec) AboutTags := by
  rcases step_cases schema doc pass spec with
    ⟨-, found, hfound, heq⟩ | ⟨-, tag, first, others, -, heq⟩
  · rw [heq]
    apply Ends.ok
    intro finding hmem
    rcases List.mem_append.mp hmem with hmem | hmem
    · exact h finding hmem
    · rw [hfound finding hmem]
      rfl
  · rw [heq]
    apply Ends.ok
    intro finding hmem
    rw [findings_check] at hmem
    simp only [List.mem_append] at hmem
    rcases hmem with ((hmem | hmem) | hmem) | hmem
    · exact h finding hmem
    · rw [foundBy_numberFindings finding hmem]
      rfl
    · rw [foundBy_placeFindings finding hmem]
      rfl
    · rw [foundBy_contentFindings finding hmem]
      rfl

/-- All tags of the schema. -/
theorem run (schema : DocSchema) (doc : DocBlock) :
    Ends True (TagPass.run schema doc) AboutTags := by
  have hstart : AboutTags {} := by simp [AboutTags]
  exact Ends.foldlM hstart fun pass hpass spec _ => hpass.step spec

end AboutTags

end TagPass

/-! ### The third pass -/

namespace DocSchema

/-- **The distances of all contents that are compared.** The third pass has a result exactly if they
can be added up, and then it finds the contents with another distance. -/
theorem ends_distances (schema : DocSchema) (doc : DocBlock) (specs : List TagSpec) :
    let fits := ∀ tag ∈ doc.columnTags specs,
      schema.indentation.Fits (doc.longestRanked specs) tag.name.utf8ByteSize
    Ends fits ((doc.columnTags specs).mapM (schema.indentationFinding (doc.longestRanked specs)))
      fun found => fits ∧
        found = (doc.columnTags specs).map (schema.distanceFinding? (doc.longestRanked specs)) :=
  Ends.mapM_exact fun _ htag => ends_distance (DocBlock.length_le_longestRanked htag)

/-! ### All passes -/

/-- The distances of the contents that are compared can be added up. -/
def ContentsFit (schema : DocSchema) (doc : DocBlock) : Prop :=
  ∀ tag ∈ doc.columnTags schema.tags,
    schema.indentation.Fits (doc.longestRanked schema.tags) tag.name.utf8ByteSize

/-- What the third pass finds in a block. -/
def distanceFindings (schema : DocSchema) (doc : DocBlock) : List Finding :=
  (doc.columnTags schema.tags).filterMap (schema.distanceFinding? (doc.longestRanked schema.tags))

/-- **What a validation finds that comes to the tags**: what the three passes find, one after the
other. It has a result exactly if the distances can be added up. -/
theorem ends_findings_of_reaches {found : List Finding} {pass : TagPass}
    (h : schema.descriptionFindings doc = .ok (found, false))
    (hrun : TagPass.run schema doc = .ok pass) :
    Ends (schema.ContentsFit doc) (schema.findings doc) fun all =>
      schema.ContentsFit doc ∧ all = found ++ pass.findings ++ schema.distanceFindings doc := by
  obtain ⟨pass', hrun', hmeasured⟩ := TagPass.exists_measured_run schema doc
  obtain rfl : pass = pass' := by
    rw [hrun, Except.ok.injEq] at hrun'
    exact hrun'
  unfold findings
  rw [h]
  change Ends _ (TagPass.run schema doc >>= _) _
  rw [hrun]
  change Ends _ (pass.indented.mapM (schema.indentationFinding pass.longest) >>= _) _
  rw [hmeasured.longest_eq, hmeasured.indented_eq]
  apply (schema.ends_distances doc schema.tags).bind
  rintro indentation ⟨hfits, rfl⟩
  apply Ends.pure
  refine ⟨hfits, ?_⟩
  rw [List.filterMap_map]
  rfl

/-- The third pass finds problems of the indentation only. -/
theorem foundBy_distanceFindings (schema : DocSchema) (doc : DocBlock) :
    FoundBy .indentation (schema.distanceFindings doc) := by
  intro finding hmem
  obtain ⟨tag, -, heq⟩ := List.mem_filterMap.mp hmem
  exact schema.foundBy_distanceFinding? _ tag finding (Option.mem_toList.mpr heq)

/-- **What is found about the descriptions is found by the first pass.** -/
theorem mem_descriptionFindings {all : List Finding} {finding : Finding}
    (h : schema.findings doc = .ok all) (hmem : finding ∈ all)
    (hcheck : finding.problem.foundBy = .description) :
    ∃ found final, schema.descriptionFindings doc = .ok (found, final) ∧ finding ∈ found := by
  rcases hfirst : schema.descriptionFindings doc with fault | ⟨found, _ | _⟩
  · unfold findings at h
    rw [hfirst] at h
    cases h
  · obtain ⟨pass, hrun, htags⟩ := (TagPass.AboutTags.run schema doc).exists_of_fits trivial
    obtain ⟨-, rfl⟩ := (ends_findings_of_reaches hfirst hrun).of_eq_ok h
    simp only [List.mem_append] at hmem
    rcases hmem with (hmem | hmem) | hmem
    · exact ⟨found, false, rfl, hmem⟩
    · exact absurd hcheck (htags.foundBy_ne rfl hmem)
    · rw [schema.foundBy_distanceFindings doc finding hmem] at hcheck
      cases hcheck
  · unfold findings at h
    rw [hfirst] at h
    cases h
    exact ⟨all, true, rfl, hmem⟩

end DocSchema

end PhpStyle
