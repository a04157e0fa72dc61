import PhpStyle.Proofs.Doc.Columns

/-!
# Contents that start in one column

Where contents are aligned, they all start in the column `padding` places behind the longest name.
The distance that is asked of one content depends on that name, which is known only when all tags of
the schema have been looked at. Here the report is described from the schema and the block alone
(`DocSchema.misaligned_findings`).

The third pass asks for a number of spaces: what the name lacks to be as long as the longest one,
and the padding. For a name that is not longer this is the same as to start in a certain column
(`DocTag.column`, `DocSchema.distanceFinding?_of_aligned`), so the pass finds the contents that
start in another one (`DocSchema.distanceFindings_of_aligned`).

What it is given has been described before, in terms of the second pass. Here it is put in terms of
the block: the greatest length of a name among the tags that take part (`DocBlock.IsLongest`,
`DocBlock.isLongest_longestRanked`), and the occurrences that are looked at, all of them or the
first one, and have a content (`DocBlock.lookedAt`, `DocBlock.comparedTags`).

Lengths are counted in bytes and distances in spaces. If the gap is made of spaces, the column is
the length in bytes of what stands in front of the content (`DocTag.column_eq_utf8ByteSize`); a tab
in the gap is not counted at all.
-/

namespace PhpStyle

/-! ### The report -/

/-- The column in which the content of a tag starts, counted from the start of the name: the bytes
of the name, and the spaces behind it. -/
def DocTag.column (tag : DocTag) : Nat := tag.name.utf8ByteSize + tag.spacing

namespace DocBlock

/-- The greatest length of a name among the tags of the schema that take part, whether or not they
have a content; zero if there are none. -/
structure IsLongest (doc : DocBlock) (specs : List TagSpec) (longest : Nat) : Prop where
  /-- No name is longer. -/
  bound : ∀ spec ∈ specs, spec.Ranked doc → spec.name.utf8ByteSize ≤ longest
  /-- One name is as long. -/
  attained : longest = 0 ∨ ∃ spec ∈ specs, spec.Ranked doc ∧ spec.name.utf8ByteSize = longest

/-- The occurrences of a tag whose content is looked at: all those of a tag that may occur several
times, and the first one of any other tag. -/
def lookedAt (doc : DocBlock) (spec : TagSpec) : List DocTag :=
  if spec.multiple then doc.tags.filter (·.name == spec.name)
  else (doc.tags.find? (·.name == spec.name)).toList

/-- The occurrences whose columns are compared: those that are looked at and have a content, of the
tags of the schema that take part. -/
def comparedTags (doc : DocBlock) (specs : List TagSpec) : List DocTag :=
  (specs.filter fun spec => spec.Ranked doc).flatMap fun spec =>
    (doc.lookedAt spec).filter fun tag => !Text.allBlank tag.content

end DocBlock

/-- What is to be reported about contents that do not start in the column `padding` places behind
the longest name: each one on its own line, with the number of spaces that would bring it there. -/
def misalignedFindings (longest padding : Nat) (contents : List DocTag) : List Finding :=
  (contents.filter fun tag => tag.column ≠ longest + padding).map fun tag =>
    ⟨.misaligned tag.name (longest - tag.name.utf8ByteSize + padding) tag.spacing, .line tag.line⟩

variable {schema : DocSchema} {doc : DocBlock} {specs done : List TagSpec} {spec : TagSpec}
  {tag : DocTag} {longest padding : Nat} {contents : List DocTag}

/-! ### Columns -/

/-- A text of spaces has as many bytes as spaces. -/
theorem utf8ByteSize_ofList_replicate (n : Nat) :
    (String.ofList (List.replicate n ' ')).utf8ByteSize = n := by
  induction n with
  | zero => rfl
  | succ n ih =>
      rw [List.replicate_succ', String.ofList_append, String.utf8ByteSize_append, ih]
      rfl

/-- **Columns are counted in bytes** where the gap is made of spaces. -/
theorem DocTag.column_eq_utf8ByteSize (h : ∀ c ∈ tag.gap.toList, c = ' ') :
    tag.column = (tag.name ++ tag.gap).utf8ByteSize := by
  have hgap : tag.gap = String.ofList (List.replicate tag.spacing ' ') := by
    have hall : tag.gap.toList = List.replicate tag.gap.toList.length ' ' :=
      List.eq_replicate_of_mem h
    rw [DocTag.spacing, hall, List.count_replicate_self, ← hall, String.ofList_toList]
  rw [column, String.utf8ByteSize_append]
  conv_rhs => rw [hgap, utf8ByteSize_ofList_replicate]

namespace DocBlock

/-- **The length in use is that of the longest name**, by induction on the schema from its end. -/
theorem isLongest_longestRanked (doc : DocBlock) (specs : List TagSpec) :
    doc.IsLongest specs (doc.longestRanked specs) := by
  induction specs using List.reverseRecOn with
  | nil => exact ⟨by simp, Or.inl rfl⟩
  | append_singleton specs spec ih =>
      by_cases hranked : spec.Ranked doc
      · -- the new name is the longest one, or the one so far is
        rw [longestRanked_concat_of_ranked hranked]
        constructor
        · intro other hmem hother
          rcases List.mem_append.mp hmem with hmem | hmem
          · exact (ih.bound other hmem hother).trans (le_max_left _ _)
          · rw [List.mem_singleton.mp hmem]
            exact le_max_right _ _
        · rcases le_total (doc.longestRanked specs) spec.name.utf8ByteSize with hle | hle
          · exact Or.inr ⟨spec, by simp, hranked, (max_eq_right hle).symm⟩
          · rw [max_eq_left hle]
            refine ih.attained.imp id ?_
            rintro ⟨other, hmem, hother⟩
            exact ⟨other, List.mem_append_left _ hmem, hother⟩
      · -- a tag that takes no part changes nothing
        rw [longestRanked_concat_of_not hranked]
        constructor
        · intro other hmem hother
          rcases List.mem_append.mp hmem with hmem | hmem
          · exact ih.bound other hmem hother
          · rw [List.mem_singleton.mp hmem] at hother
            exact absurd hother hranked
        · refine ih.attained.imp id ?_
          rintro ⟨other, hmem, hother⟩
          exact ⟨other, List.mem_append_left _ hmem, hother⟩

/-- The occurrences of a name, without their positions, are the tags that have it. -/
theorem map_fst_occurrences (doc : DocBlock) (name : String) :
    (doc.occurrences name).map (·.1) = doc.tags.filter (·.name == name) := by
  unfold occurrences
  conv_rhs => rw [← List.zipIdx_map_fst 1 doc.tags, List.filter_map]
  rfl

/-- The occurrences whose content is looked at. -/
theorem checkedTags_eq_lookedAt (doc : DocBlock) (spec : TagSpec) :
    TagPass.checkedTags doc spec = doc.lookedAt spec := by
  unfold TagPass.checkedTags TagPass.checkedCount lookedAt
  cases spec.multiple with
  | true => simp [map_fst_occurrences]
  | false =>
      simp only [Bool.false_eq_true, if_false]
      rw [List.map_take, map_fst_occurrences, List.take_one, List.head?_filter]

/-- **The columns that are compared.** -/
theorem columnTags_eq_comparedTags (doc : DocBlock) (specs : List TagSpec) :
    doc.columnTags specs = doc.comparedTags specs := by
  simp only [columnTags, comparedTags, checkedTags_eq_lookedAt]

end DocBlock

/-! ### The third pass -/

/-- What is found at a content: it has another distance than the one that is asked for exactly if it
starts in another column. -/
theorem DocSchema.distanceFinding?_of_aligned (halign : schema.indentation = .aligned padding)
    (h : tag.name.utf8ByteSize ≤ longest) :
    schema.distanceFinding? longest tag =
      if tag.column ≠ longest + padding then
        some ⟨.misaligned tag.name (longest - tag.name.utf8ByteSize + padding) tag.spacing,
          .line tag.line⟩
      else none := by
  have hiff : tag.spacing = longest - tag.name.utf8ByteSize + padding ↔
      tag.column = longest + padding := by
    unfold DocTag.column
    omega
  unfold distanceFinding?
  rw [halign]
  simp only [Indentation.distance, hiff, ite_not]

/-- **What the third pass finds** are the contents that start in another column. -/
theorem DocSchema.distanceFindings_of_aligned (halign : schema.indentation = .aligned padding)
    (doc : DocBlock) : schema.distanceFindings doc =
      misalignedFindings (doc.longestRanked schema.tags) padding
        (doc.comparedTags schema.tags) := by
  unfold distanceFindings misalignedFindings
  rw [← List.filterMap_eq_map, List.filterMap_filter, ← DocBlock.columnTags_eq_comparedTags]
  apply List.filterMap_congr
  intro tag hmem
  rw [distanceFinding?_of_aligned halign (DocBlock.length_le_longestRanked hmem)]
  simp

/-- Nothing is reported exactly if all contents start in the common column. -/
theorem misalignedFindings_eq_nil_iff :
    misalignedFindings longest padding contents = [] ↔
      ∀ tag ∈ contents, tag.column = longest + padding := by
  simp [misalignedFindings]

/-- The distances can be added up if there is room behind the longest name. -/
theorem DocSchema.contentsFit_of_le (halign : schema.indentation = .aligned padding)
    (hroom : doc.longestRanked schema.tags + padding ≤ maxWord) : schema.ContentsFit doc := by
  intro tag _
  rw [halign]
  unfold Indentation.Fits
  omega

/-! ### All passes -/

namespace DocSchema

/-- **What a validation reports about the common column**, for every block and every schema that
aligns contents, if it comes to the tags and the column behind the longest name fits in a word. No
name of a content that is compared is longer than the longest one, so the validation has a result;
behind everything else that it finds, it reports the contents that start in another column, and
those only. None is reported exactly if all start in that column. -/
theorem misaligned_findings (schema : DocSchema) (doc : DocBlock) {padding : Nat}
    {found : List Finding} (halign : schema.indentation = .aligned padding)
    (h : schema.descriptionFindings doc = .ok (found, false))
    (hroom : doc.longestRanked schema.tags + padding ≤ maxWord) :
    let longest := doc.longestRanked schema.tags
    let contents := doc.comparedTags schema.tags
    let report := misalignedFindings longest padding contents
    doc.IsLongest schema.tags longest ∧
    (∀ tag ∈ contents, tag.name.utf8ByteSize ≤ longest) ∧
    (∃ pass, TagPass.run schema doc = .ok pass ∧
      schema.findings doc = .ok (found ++ pass.findings ++ report) ∧
      ∀ finding ∈ found ++ pass.findings, finding.problem.foundBy ≠ .indentation) ∧
    (report = [] ↔ ∀ tag ∈ contents, tag.column = longest + padding) ∧
    (∀ tag ∈ contents, (∀ c ∈ tag.gap.toList, c = ' ') →
      tag.column = (tag.name ++ tag.gap).utf8ByteSize) := by
  intro longest contents report
  obtain ⟨pass, hrun, htags⟩ := (TagPass.AboutTags.run schema doc).exists_of_fits trivial
  obtain ⟨all, hall, -, rfl⟩ :=
    (ends_findings_of_reaches h hrun).exists_of_fits (contentsFit_of_le halign hroom)
  refine ⟨doc.isLongest_longestRanked schema.tags, ?_, ⟨pass, hrun, ?_, ?_⟩,
    misalignedFindings_eq_nil_iff, fun tag _ => DocTag.column_eq_utf8ByteSize⟩
  · intro tag hmem
    apply DocBlock.length_le_longestRanked
    rwa [DocBlock.columnTags_eq_comparedTags]
  · rw [hall, distanceFindings_of_aligned halign]
  · intro finding hmem
    rcases List.mem_append.mp hmem with hmem | hmem
    · simp [foundBy_descriptionFindings h finding hmem]
    · exact htags.foundBy_ne rfl hmem

/-- A block whose longest name has no content. -/
def raggedBlock : DocBlock where
  short := "Loads the settings."
  newlinesBeforeTags := 2
  tags :=
    [{ name := "package", content := "net", gap := "     ", line := 3 },
      { name := "link", content := "store", gap := "        ", line := 4 },
      { name := "see", content := "loader", gap := "   ", line := 5 },
      { name := "deprecated", line := 6 }]

/-- The content that starts too early is reported. -/
theorem misaligned_findings_raggedBlock :
    file.indentation = .aligned 2 ∧ file.descriptionFindings raggedBlock = .ok ([], false) ∧
      raggedBlock.longestRanked file.tags = 10 ∧
      ∃ pass, TagPass.run file raggedBlock = .ok pass ∧
        file.findings raggedBlock = .ok (pass.findings ++ [⟨.misaligned "see" 9 3, .line 5⟩]) := by
  have hreach : file.descriptionFindings raggedBlock = .ok ([], false) := by decide +kernel
  have hlongest : raggedBlock.longestRanked file.tags = 10 := by decide +kernel
  have hreport : misalignedFindings 10 2 (raggedBlock.comparedTags file.tags) =
      [⟨.misaligned "see" 9 3, .line 5⟩] := by decide +kernel
  obtain ⟨-, -, ⟨pass, hrun, hall, -⟩, -⟩ :=
    misaligned_findings file raggedBlock rfl hreach (by rw [hlongest]; decide)
  refine ⟨rfl, hreach, hlongest, pass, hrun, ?_⟩
  rw [hall, hlongest, hreport]
  rfl

end DocSchema

end PhpStyle
