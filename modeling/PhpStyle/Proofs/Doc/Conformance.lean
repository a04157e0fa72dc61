import Mathlib.Data.List.TakeWhile
import PhpStyle.Proofs.Doc.Passes
import PhpStyle.Proofs.Doc.Tags

/-!
# Which documentation blocks conform to a schema

A validation ends early in three places, keeps a running order and a running length while it goes
through the tags of the schema, and puts off the indentation to a last pass. What it accepts is
described here without any of this (`DocSchema.Conforms`): by the descriptions, by what each tag of
the schema asks for, by the order of first positions, and by the length of the longest name in use.
Nothing is found exactly if the block conforms (`DocSchema.findings_eq_nil_iff_conforms`).

The first pass has four ways to end, and three of them end with a finding
(`DocSchema.Described.eq_nil_iff`). In the fourth, each part of it has one condition under which it
finds nothing.

The second pass is a fold over the tags of the schema. The invariant is `TagPass.Reflects`: nothing
was found so far exactly if the tags so far get what they ask for and are in order. To go on, it
must say what the running order and the running length are. But this is true only as long as nothing
was found, because a tag that is not accepted is not counted; and it needs to be true only then,
because a finding is never taken back. Each way to go on with a tag is a lemma of its own
(`Reflects.note`, `absent`, `check`), and `Reflects.step`, `Reflects.run` are one tag more and all
of them.

The third pass compares numbers that the second one kept (`DocSchema.ends_indentation_iff`). If
there was no finding, these are the contents and the longest name that conforming speaks of. That
its sums fit does not depend on that: no name that was kept is longer than the longest one.
-/

namespace PhpStyle

/-! ### Conforming -/

/-- The descriptions of a block conform, and it has no tag that is refused. -/
structure DocSchema.TextConforms (schema : DocSchema) (doc : DocBlock) : Prop where
  /-- The block is not empty. -/
  nonempty : doc.isEmpty = false
  /-- A short description that is asked for is there, on one line. -/
  single_line : schema.short = .singleLine →
    Text.trim doc.short.toList ≠ [] ∧ '\n' ∉ Text.trim doc.short.toList
  /-- The short description does not start with a newline. -/
  lead : doc.short.toList.head? ≠ some '\n'
  /-- One blank line separates the descriptions. -/
  between : doc.long ≠ "" → doc.newlinesBetween = 2
  /-- One blank line separates the tags from the descriptions. -/
  before_tags : doc.tags ≠ [] → doc.newlinesBeforeTags = 2
  /-- Other tags than those of the schema are permitted. -/
  foreign : ∀ permitted, schema.foreign = .refusedExcept permitted → ∀ tag ∈ doc.tags,
    (∃ spec ∈ schema.tags, spec.name = tag.name) ∨ tag.name ∈ permitted

/-- A block has what is asked of one tag, its order and its indentation apart. -/
structure TagSpec.Meets (spec : TagSpec) (schema : DocSchema) (doc : DocBlock) : Prop where
  /-- A required tag occurs. -/
  required : spec.required = true → doc.has spec.name = true
  /-- A discouraged tag does not. -/
  discouraged : spec.discouraged = true → doc.has spec.name = false
  /-- A single tag occurs once at most. -/
  single : spec.multiple = false → doc.OnlyOnce spec.name
  /-- The occurrences of a multiple tag stand side by side. -/
  grouped : spec.multiple = true → doc.Grouped spec.name
  /-- A tag that must come first does. -/
  first : spec.placement = .first → ∀ p, doc.FirstAt spec.name p → p = 1
  /-- The contents are fine. -/
  content : ∀ p tag, doc.TagAt spec.name p tag → schema.contentProblem? tag = none

/-- An ordered tag stands behind one that precedes it in the schema. -/
def TagSpec.InOrder (doc : DocBlock) (earlier later : TagSpec) : Prop :=
  later.placement = .ordered → ∀ p q, doc.FirstAt earlier.name p → doc.FirstAt later.name q → p < q

/-- The length in bytes of the longest name among those that occur. -/
def DocBlock.longestName (doc : DocBlock) (specs : List TagSpec) : Nat :=
  ((specs.filter (doc.has ·.name)).map (·.name.utf8ByteSize)).foldl max 0

/-- A block conforms to a schema. -/
structure DocSchema.Conforms (schema : DocSchema) (doc : DocBlock) : Prop where
  /-- The descriptions conform. -/
  text : schema.TextConforms doc
  /-- Each tag of the schema gets what it asks for. -/
  tags : ∀ spec ∈ schema.tags, spec.Meets schema doc
  /-- The tags are in the order of the schema. -/
  order : schema.tags.Pairwise (TagSpec.InOrder doc)
  /-- Contents that are not blank have their distance. -/
  indentation : ∀ spec ∈ schema.tags, ∀ p tag, doc.TagAt spec.name p tag →
    Text.allBlank tag.content = false →
    tag.spacing =
      schema.indentation.distance (doc.longestName schema.tags) tag.name.utf8ByteSize

variable {schema : DocSchema} {doc : DocBlock} {fits : Prop}

/-! ### Descriptions -/

/-- Nothing is left of a text exactly if it is blank. -/
theorem Text.trim_eq_nil_iff {cs : List Char} : Text.trim cs = [] ↔ cs.all Text.isBlank = true := by
  unfold Text.trim Text.trimEnd Text.dropEndWhile Text.trimStart
  rw [List.reverse_eq_nil_iff, List.dropWhile_eq_nil_iff, List.all_eq_true]
  constructor
  · intro h c hc
    -- what is dropped is blank, and so is what is left
    rw [← List.takeWhile_append_dropWhile (p := Text.isBlank) (l := cs), List.mem_append] at hc
    rcases hc with hc | hc
    · exact List.mem_takeWhile_imp hc
    · exact h c (List.mem_reverse.mpr hc)
  · intro h c hc
    exact h c ((List.dropWhile_sublist _).subset (List.mem_reverse.mp hc))

namespace DocBlock

/-- Newlines in front of the short description. -/
theorem leadFindings_eq_nil_iff : doc.leadFindings = [] ↔ doc.short.toList.head? ≠ some '\n' := by
  unfold leadFindings
  rcases doc.short.toList with _ | ⟨c, cs⟩
  · simp
  · by_cases hc : c = '\n' <;> simp [hc]

/-- The gap between the descriptions. -/
theorem betweenFindings_eq_nil_iff :
    doc.betweenFindings = [] ↔ (doc.long ≠ "" → doc.newlinesBetween = 2) := by
  unfold betweenFindings
  by_cases hlong : doc.long = ""
  · simp [hlong]
  · simp [hlong]

/-- Whether the tags are separated. -/
theorem isTight_eq_false_iff :
    doc.isTight = false ↔ (doc.tags ≠ [] → doc.newlinesBeforeTags = 2) := by
  unfold isTight
  rcases doc.tags with _ | ⟨tag, tags⟩ <;> simp

/-- The gap in front of the tags. -/
theorem gapFindings_eq_nil_iff : doc.gapFindings = [] ↔ doc.isTight = false := by
  unfold gapFindings
  cases doc.isTight <;> simp

/-- A short description with several lines, where the tags are separated. -/
theorem severalFindings_eq_nil_iff (h : doc.isTight = false) :
    doc.severalFindings = [] ↔ '\n' ∉ Text.trim doc.short.toList := by
  unfold severalFindings
  rw [h]
  by_cases hmem : '\n' ∈ Text.trim doc.short.toList <;> simp [hmem]

end DocBlock

namespace DocSchema

/-- The tags that a block may have. -/
theorem accepts_iff {name : String} : schema.accepts name = true ↔
    ∀ permitted, schema.foreign = .refusedExcept permitted →
      (∃ spec ∈ schema.tags, spec.name = name) ∨ name ∈ permitted := by
  unfold accepts tag?
  cases schema.foreign with
  | ignored => simp
  | refusedExcept permitted => simp

/-- What is found on the lines of the descriptions, one condition for each part. The end of a short
description with several lines is looked at only where no gap is reported, so the two are settled
together. -/
theorem lineFindings_eq_nil_iff : schema.lineFindings doc = [] ↔
    doc.short.toList.head? ≠ some '\n' ∧ (doc.long ≠ "" → doc.newlinesBetween = 2) ∧
      (doc.tags ≠ [] → doc.newlinesBeforeTags = 2) ∧
      (schema.short = .singleLine → '\n' ∉ Text.trim doc.short.toList) := by
  simp only [lineFindings, List.append_eq_nil_iff, DocBlock.leadFindings_eq_nil_iff,
    DocBlock.betweenFindings_eq_nil_iff, DocBlock.gapFindings_eq_nil_iff]
  rw [← DocBlock.isTight_eq_false_iff]
  by_cases htight : doc.isTight = false
  · by_cases hsingle : schema.short = .singleLine
    · simp [htight, hsingle, DocBlock.severalFindings_eq_nil_iff htight, and_assoc]
    · simp [htight, hsingle]
  · simp [htight]

/-- Where the validation goes on to the tags, the descriptions conform exactly if nothing is
found on their lines. -/
theorem textConforms_iff (h : schema.ReachesTags doc) :
    schema.TextConforms doc ↔ schema.lineFindings doc = [] := by
  rw [lineFindings_eq_nil_iff]
  obtain ⟨⟨hempty, hblank⟩, haccepts⟩ := h
  constructor
  · intro hconforms
    exact ⟨hconforms.lead, hconforms.between, hconforms.before_tags,
      fun hsingle => (hconforms.single_line hsingle).2⟩
  · rintro ⟨hlead, hbetween, hbefore, hline⟩
    refine ⟨hempty, fun hsingle => ⟨fun htrim => ?_, hline hsingle⟩, hlead, hbetween, hbefore,
      fun permitted hp tag htag => accepts_iff.mp (haccepts tag htag) permitted hp⟩
    exact hblank ⟨hsingle, Text.trim_eq_nil_iff.mp htrim⟩

/-- **The first pass finds nothing exactly if the descriptions conform**, and it ends the validation
only with a finding. -/
theorem Described.eq_nil_iff {found : List Finding × Bool} (h : schema.Described doc found) :
    (found.1 = [] ↔ schema.TextConforms doc) ∧ (found.2 = true → found.1 ≠ []) := by
  cases h with
  | empty hempty =>
      refine ⟨iff_of_false (by simp) fun hconforms => ?_, fun _ => by simp⟩
      rw [hconforms.nonempty] at hempty
      cases hempty
  | noShort _ hsingle hblank =>
      refine ⟨iff_of_false (by simp) fun hconforms => ?_, fun _ => by simp⟩
      exact (hconforms.single_line hsingle).1 (Text.trim_eq_nil_iff.mpr hblank)
  | refused _ hfind =>
      obtain ⟨hmem, hrefused⟩ := refused_of_find? hfind
      refine ⟨iff_of_false (by simp) fun hconforms => ?_, fun _ => by simp⟩
      rw [accepts_iff.mpr fun permitted hp => hconforms.foreign permitted hp _ hmem] at hrefused
      cases hrefused
  | through hreaches =>
      refine ⟨(textConforms_iff hreaches).symm, fun hfinal => ?_⟩
      cases hfinal

end DocSchema

/-! ### Tags -/

/-- A name more that occurs. -/
theorem DocBlock.longestName_concat_of_has {specs : List TagSpec} {spec : TagSpec}
    (h : doc.has spec.name = true) : doc.longestName (specs ++ [spec]) =
      max (doc.longestName specs) spec.name.utf8ByteSize := by
  unfold longestName
  rw [List.filter_append, List.filter_singleton, h, List.map_append, List.foldl_append]
  rfl

/-- A name more that does not occur. -/
theorem DocBlock.longestName_concat_of_not {specs : List TagSpec} {spec : TagSpec}
    (h : doc.has spec.name = false) :
    doc.longestName (specs ++ [spec]) = doc.longestName specs := by
  unfold longestName
  rw [List.filter_append, List.filter_singleton, h]
  simp

/-- One tag stands side by side with itself. -/
theorem DocBlock.OnlyOnce.grouped {name : String} (h : doc.OnlyOnce name) : doc.Grouped name := by
  intro p q r hp hr hpq hqr
  have heq := h p r hp hr
  have : q = p := by omega
  rwa [this]

namespace TagPass

variable {pass : TagPass} {spec : TagSpec} {done : List TagSpec} {tag : DocTag} {first : Nat}
  {others : List (DocTag × Nat)}

/-- The tags whose content is looked at are occurrences. -/
theorem exists_tagAt_of_mem_checkedTags (h : tag ∈ checkedTags doc spec) :
    ∃ p, doc.TagAt spec.name p tag := by
  obtain ⟨⟨tag, p⟩, hmem, rfl⟩ := List.mem_map.mp h
  exact ⟨p, DocBlock.mem_occurrences_iff.mp (List.mem_of_mem_take hmem)⟩

/-- If a single tag occurs once, all occurrences are looked at. -/
theorem mem_checkedTags_iff (h : spec.multiple = false → doc.OnlyOnce spec.name) :
    tag ∈ checkedTags doc spec ↔ ∃ p, doc.TagAt spec.name p tag := by
  refine ⟨exists_tagAt_of_mem_checkedTags, ?_⟩
  rintro ⟨p, htag⟩
  have hall : (doc.occurrences spec.name).take (checkedCount spec (doc.occurrences spec.name)) =
      doc.occurrences spec.name := by
    apply List.take_of_length_le
    unfold checkedCount
    cases hmultiple : spec.multiple with
    | true => exact le_rfl
    | false => exact DocBlock.length_occurrences_le_one_iff.mpr (h hmultiple)
  unfold checkedTags
  rw [hall]
  exact List.mem_map.mpr ⟨(tag, p), DocBlock.mem_occurrences_iff.mpr htag, rfl⟩

/-- The number of occurrences. -/
theorem numberFindings_eq_nil_iff (hocc : doc.occurrences spec.name = (tag, first) :: others) :
    numberFindings spec tag first (doc.occurrences spec.name) = [] ↔
      (spec.multiple = false → doc.OnlyOnce spec.name) ∧
        (spec.multiple = true → doc.Grouped spec.name) := by
  unfold numberFindings
  by_cases honce : doc.OnlyOnce spec.name
  · rw [if_pos (DocBlock.length_occurrences_le_one_iff.mpr honce)]
    exact ⟨fun _ => ⟨fun _ => honce, fun _ => honce.grouped⟩, fun _ => rfl⟩
  · rw [if_neg (mt DocBlock.length_occurrences_le_one_iff.mp honce)]
    cases spec.multiple with
    | true => simp [scattered_eq_nil_iff hocc]
    | false => simp [honce]

/-- The place of the first occurrence. -/
theorem placeFindings_eq_nil_iff {reached : Nat} : placeFindings reached spec tag first = [] ↔
    (spec.placement = .ordered → reached < first) ∧ (spec.placement = .first → first = 1) := by
  unfold placeFindings
  cases spec.placement <;> simp

/-- **A tag that occurs is found fine** exactly if it gets what it asks for and stands
behind what was reached. -/
theorem check_findings_eq_nil_iff (hocc : doc.occurrences spec.name = (tag, first) :: others)
    (hdiscouraged : spec.discouraged = false) :
    (pass.check schema spec tag first (doc.occurrences spec.name) (checkedTags doc spec)).findings =
        [] ↔
      pass.findings = [] ∧ spec.Meets schema doc ∧
        (spec.placement = .ordered → pass.reached < first) := by
  rw [findings_check]
  simp only [List.append_eq_nil_iff, numberFindings_eq_nil_iff hocc, placeFindings_eq_nil_iff,
    contentFindings, List.filterMap_eq_nil_iff, Option.map_eq_none_iff]
  constructor
  · rintro ⟨⟨⟨hpass, hsingle, hgrouped⟩, hordered, hfirst⟩, hcontent⟩
    refine ⟨hpass, ⟨fun _ => DocBlock.has_of_occurrences hocc, fun h => ?_, hsingle, hgrouped,
      fun hplacement p hp => ?_, fun p tag htag => ?_⟩, hordered⟩
    · rw [hdiscouraged] at h
      cases h
    · rw [(DocBlock.firstAt_iff hocc).mp hp]
      exact hfirst hplacement
    · exact hcontent tag ((mem_checkedTags_iff hsingle).mpr ⟨p, htag⟩)
  · rintro ⟨hpass, hmeets, hordered⟩
    refine ⟨⟨⟨hpass, hmeets.single, hmeets.grouped⟩, hordered, fun hplacement => ?_⟩,
      fun tag htag => ?_⟩
    · exact hmeets.first hplacement first ((DocBlock.firstAt_iff hocc).mpr rfl)
    · obtain ⟨p, hp⟩ := exists_tagAt_of_mem_checkedTags htag
      exact hmeets.content p tag hp

/-- What the second pass knows after the tags `done` of the schema. As long as nothing was found it
has the first positions, the longest name and the tags with content of all of them; in any case no
tag that it kept is longer than the longest name. -/
structure Reflects (schema : DocSchema) (doc : DocBlock) (done : List TagSpec) (pass : TagPass) :
    Prop where
  /-- Nothing was found exactly if each tag gets what it asks for, and they are in order. -/
  clean_iff : pass.findings = [] ↔
    (∀ spec ∈ done, spec.Meets schema doc) ∧ done.Pairwise (TagSpec.InOrder doc)
  /-- What was reached is the largest first position. -/
  reached_lt_iff : pass.findings = [] → ∀ n, 0 < n →
    (pass.reached < n ↔ ∀ spec ∈ done, ∀ p, doc.FirstAt spec.name p → p < n)
  /-- The longest name is that of a tag that occurs. -/
  longest_eq : pass.findings = [] → pass.longest = doc.longestName done
  /-- The tags whose indentation is to be checked are those that have content. -/
  mem_indented_iff : pass.findings = [] → ∀ tag, tag ∈ pass.indented ↔
    (∃ spec ∈ done, ∃ p, doc.TagAt spec.name p tag) ∧ Text.allBlank tag.content = false
  /-- None of them has a longer name. -/
  bounded : ∀ tag ∈ pass.indented, tag.name.utf8ByteSize ≤ pass.longest
  /-- The longest name is one of the schema. -/
  longest_le : ∀ n, (∀ spec ∈ done, spec.name.utf8ByteSize ≤ n) → pass.longest ≤ n

namespace Reflects

/-- Before the first tag. -/
theorem start : Reflects schema doc [] {} where
  clean_iff := by simp
  reached_lt_iff := by
    intro _ n hn
    simpa using hn
  longest_eq _ := rfl
  mem_indented_iff := by simp
  bounded := by simp
  longest_le n _ := Nat.zero_le n

/-- A finding on a tag that does not get what it asks for. -/
theorem note {finding : Finding} (h : Reflects schema doc done pass)
    (hnot : ¬ spec.Meets schema doc) :
    Reflects schema doc (done ++ [spec]) (pass.note finding) where
  clean_iff := by
    refine ⟨fun hnil => absurd hnil (by simp [TagPass.note]), fun hall => ?_⟩
    exact absurd (hall.1 spec (by simp)) hnot
  reached_lt_iff hnil := absurd hnil (by simp [TagPass.note])
  longest_eq hnil := absurd hnil (by simp [TagPass.note])
  mem_indented_iff hnil := absurd hnil (by simp [TagPass.note])
  bounded := h.bounded
  longest_le n hn := h.longest_le n fun spec hspec => hn spec (List.mem_append_left _ hspec)

/-- A tag that does not occur, and need not. -/
theorem absent (h : Reflects schema doc done pass) (habsent : doc.has spec.name = false)
    (hrequired : spec.required = false) : Reflects schema doc (done ++ [spec]) pass where
  clean_iff := by
    have hnowhere : ∀ p, ¬ doc.StandsAt spec.name p := fun p => DocBlock.not_standsAt habsent
    have hmeets : spec.Meets schema doc :=
      { required := fun hreq => by rw [hrequired] at hreq; cases hreq
        discouraged := fun _ => habsent
        single := fun _ p q hp => absurd hp (hnowhere p)
        grouped := fun _ p q r hp => absurd hp (hnowhere p)
        first := fun _ p hp => absurd hp.1 (hnowhere p)
        content := fun p tag htag => absurd ⟨tag, htag⟩ (hnowhere p) }
    have horder : ∀ earlier ∈ done, TagSpec.InOrder doc earlier spec :=
      fun earlier _ _ p q _ hq => absurd hq.1 (hnowhere q)
    rw [h.clean_iff, List.forall_mem_append, List.pairwise_append]
    simp only [List.forall_mem_singleton, List.pairwise_singleton]
    exact ⟨fun hall => ⟨⟨hall.1, hmeets⟩, hall.2, trivial, horder⟩,
      fun hall => ⟨hall.1.1, hall.2.1⟩⟩
  reached_lt_iff hnil n hn := by
    rw [h.reached_lt_iff hnil n hn, List.forall_mem_append, List.forall_mem_singleton]
    exact ⟨fun hall => ⟨hall, fun p hp => absurd hp.1 (DocBlock.not_standsAt habsent)⟩, And.left⟩
  longest_eq hnil := by rw [h.longest_eq hnil, DocBlock.longestName_concat_of_not habsent]
  mem_indented_iff hnil tag := by
    rw [h.mem_indented_iff hnil tag]
    refine and_congr_left fun _ => ⟨?_, ?_⟩
    · rintro ⟨spec', hspec', hp⟩
      exact ⟨spec', List.mem_append_left _ hspec', hp⟩
    · rintro ⟨spec', hspec', p, hp⟩
      rcases List.mem_append.mp hspec' with hspec' | hspec'
      · exact ⟨spec', hspec', p, hp⟩
      · rw [List.mem_singleton.mp hspec'] at hp
        exact absurd ⟨tag, hp⟩ (DocBlock.not_standsAt habsent)
  bounded := h.bounded
  longest_le n hn := h.longest_le n fun spec hspec => hn spec (List.mem_append_left _ hspec)

/-- A tag that occurs and is checked. -/
theorem check (h : Reflects schema doc done pass)
    (hocc : doc.occurrences spec.name = (tag, first) :: others)
    (hdiscouraged : spec.discouraged = false) :
    Reflects schema doc (done ++ [spec])
      (pass.check schema spec tag first (doc.occurrences spec.name) (checkedTags doc spec)) := by
  have hfirstAt : ∀ p, doc.FirstAt spec.name p ↔ p = first := fun p => DocBlock.firstAt_iff hocc
  have htag : doc.TagAt spec.name first tag := by
    rw [← DocBlock.mem_occurrences_iff, hocc]
    exact List.mem_cons_self
  have hiff : (pass.check schema spec tag first (doc.occurrences spec.name)
      (checkedTags doc spec)).findings = [] ↔ _ := check_findings_eq_nil_iff hocc hdiscouraged
  have hname : ∀ tag ∈ checkedTags doc spec, tag.name = spec.name := by
    intro tag htag
    obtain ⟨p, hp⟩ := exists_tagAt_of_mem_checkedTags htag
    exact hp.2
  refine ⟨?_, ?_, ?_, ?_, ?_, ?_⟩
  · -- clean: the new tag gets what it asks for, and stands behind the earlier ones
    rw [hiff, List.forall_mem_append, List.pairwise_append]
    simp only [List.forall_mem_singleton, List.pairwise_singleton]
    -- while nothing was found, what was reached says where the earlier tags stand
    have horder : pass.findings = [] → ((spec.placement = .ordered → pass.reached < first) ↔
        ∀ earlier ∈ done, TagSpec.InOrder doc earlier spec) := by
      intro hnil
      rw [h.reached_lt_iff hnil first htag.1.1]
      constructor
      · intro hlt earlier hearlier hordered p q hp hq
        rw [(hfirstAt q).mp hq]
        exact hlt hordered earlier hearlier p hp
      · intro hall hordered earlier hearlier p hp
        exact hall earlier hearlier hordered p first hp ((hfirstAt first).mpr rfl)
    constructor
    · rintro ⟨hnil, hmeets, hordered⟩
      obtain ⟨hdone, hpairs⟩ := h.clean_iff.mp hnil
      exact ⟨⟨hdone, hmeets⟩, hpairs, trivial, (horder hnil).mp hordered⟩
    · rintro ⟨⟨hdone, hmeets⟩, hpairs, -, hlast⟩
      have hnil := h.clean_iff.mpr ⟨hdone, hpairs⟩
      exact ⟨hnil, hmeets, (horder hnil).mpr hlast⟩
  · -- reached: the largest first position, with the new one
    intro hnil n hn
    rw [List.forall_mem_append, List.forall_mem_singleton,
      ← h.reached_lt_iff (hiff.mp hnil).1 n hn]
    simp only [hfirstAt, forall_eq]
    exact max_lt_iff
  · -- the longest name, with the new one
    intro hnil
    rw [DocBlock.longestName_concat_of_has (DocBlock.has_of_occurrences hocc),
      ← h.longest_eq (hiff.mp hnil).1]
    rfl
  · -- the contents to compare: all occurrences are looked at, since the tag meets what it asks for
    intro hnil tag
    obtain ⟨hold, hmeets, -⟩ := hiff.mp hnil
    refine List.mem_append.trans ?_
    rw [h.mem_indented_iff hold tag, List.mem_filter, mem_checkedTags_iff hmeets.single,
      Bool.not_eq_true', ← or_and_right]
    refine and_congr_left fun _ => ?_
    simp only [List.mem_append, List.mem_singleton, or_and_right, exists_or, exists_eq_left]
  · -- kept whether or not anything was found
    intro tag htag
    rcases List.mem_append.mp htag with htag | htag
    · exact (h.bounded tag htag).trans (le_max_left _ _)
    · rw [hname tag (List.mem_filter.mp htag).1]
      exact le_max_right _ _
  · intro n hn
    rw [List.forall_mem_append, List.forall_mem_singleton] at hn
    exact max_le (h.longest_le n hn.1) hn.2

/-- **One tag of the schema more.** What is noted in any way of going on is that a tag does not get
what it asks for. -/
theorem step {next : TagPass} (h : Reflects schema doc done pass)
    (hstep : Step schema doc pass spec next) : Reflects schema doc (done ++ [spec]) next := by
  cases hstep with
  | absent hocc hrequired => exact h.absent (DocBlock.occurrences_eq_nil_iff.mp hocc) hrequired
  | missing hocc hrequired =>
      refine h.note fun hmeets => ?_
      have hhas := hmeets.required hrequired
      rw [DocBlock.occurrences_eq_nil_iff.mp hocc] at hhas
      cases hhas
  | discouraged hocc hdiscouraged =>
      refine h.note fun hmeets => ?_
      have hhas := DocBlock.has_of_occurrences hocc
      rw [hmeets.discouraged hdiscouraged] at hhas
      cases hhas
  | repeated hocc _ hothers hsingle =>
      refine h.note fun hmeets => ?_
      have hlength := DocBlock.length_occurrences_le_one_iff.mpr (hmeets.single hsingle)
      have hpos := List.length_pos_iff.mpr hothers
      rw [hocc, List.length_cons] at hlength
      omega
  | checked hocc hdiscouraged => exact h.check hocc hdiscouraged

/-- **All tags of the schema.** -/
theorem run (h : Reflects schema doc done pass) (rest : List TagSpec) :
    Ends fits (rest.foldlM (TagPass.step schema doc) pass) (Reflects schema doc (done ++ rest)) :=
  Ends.foldlM_done (fun _ _ _ hpass => ends_step_of fun _ hstep => hpass.step hstep) h rest

/-- The longest name of all can be added to the padding, if every name of the schema can. -/
theorem room (h : Reflects schema doc schema.tags pass) (hcolumns : schema.ColumnsFit) :
    ∀ padding, schema.indentation = .aligned padding → pass.longest + padding ≤ maxWord := by
  intro padding hpadding
  obtain ⟨hpad, hnames⟩ := hcolumns padding hpadding
  have hlongest : pass.longest ≤ maxWord - padding := by
    apply h.longest_le
    intro spec hspec
    have := hnames spec hspec
    omega
  omega

end Reflects

end TagPass

/-! ### Indentation -/

namespace DocSchema

variable {longest : Nat} {tag : DocTag}

/-- The third pass compares the distance of a content with the one that is asked for. -/
theorem ends_indentationFinding_iff (hlength : tag.name.utf8ByteSize ≤ longest)
    (hroom : fits → ∀ padding, schema.indentation = .aligned padding →
      longest + padding ≤ maxWord) :
    Ends fits (schema.indentationFinding longest tag) fun finding? =>
      finding? = none ↔
        tag.spacing = schema.indentation.distance longest tag.name.utf8ByteSize := by
  refine ((ends_distance hlength).weaken fun hfits => indentation_fits (hroom hfits) _).mono ?_
  rintro finding? ⟨-, rfl⟩
  exact distanceFinding?_eq_none_iff

/-- The third pass for all tags. -/
theorem ends_indentation_iff {tags : List DocTag}
    (hlength : ∀ tag ∈ tags, tag.name.utf8ByteSize ≤ longest)
    (hroom : fits → ∀ padding, schema.indentation = .aligned padding →
      longest + padding ≤ maxWord) :
    Ends fits (tags.mapM (schema.indentationFinding longest)) fun found =>
      found.filterMap id = [] ↔ ∀ tag ∈ tags,
        tag.spacing = schema.indentation.distance longest tag.name.utf8ByteSize := by
  induction tags with
  | nil => exact Ends.pure (by simp)
  | cons tag tags ih =>
      rw [List.forall_mem_cons] at hlength
      rw [List.mapM_cons]
      refine (ends_indentationFinding_iff hlength.1 hroom).bind fun finding? hfinding => ?_
      refine (ih hlength.2).bind fun found hfound => Ends.pure ?_
      rw [List.forall_mem_cons, ← hfinding, ← hfound]
      cases finding? <;> simp

/-! ### All passes -/

/-- **Nothing is found exactly if the block conforms**, for every block and every schema, if the
lines of the descriptions and the columns of aligned contents can be added up. -/
theorem findings_eq_nil_iff_conforms (schema : DocSchema) (doc : DocBlock)
    (hlines : Text.newlines doc.short + doc.newlinesBetween + Text.newlines doc.long + 2 ≤ maxWord)
    (hcolumns : schema.ColumnsFit) :
    ∃ found, schema.findings doc = .ok found ∧ (found = [] ↔ schema.Conforms doc) := by
  have hends : Ends True (schema.findings doc) fun found => found = [] ↔ schema.Conforms doc := by
    rw [findings]
    have hfits : schema.LinesFit doc := by
      intro _ _
      unfold DocBlock.shortLines
      omega
    refine ((schema.ends_describes doc).weaken fun _ => hfits).bind ?_
    rintro ⟨found, final⟩ ⟨-, hdescribed⟩
    obtain ⟨htext, hfinal⟩ := hdescribed.eq_nil_iff
    simp only at htext hfinal ⊢
    split
    · next hstop =>
        -- what ends the validation early is a finding
        refine Ends.pure ⟨fun hnil => absurd hnil (hfinal hstop), fun hconforms => ?_⟩
        exact htext.mpr hconforms.text
    refine (TagPass.Reflects.start.run schema.tags).bind fun pass hpass => ?_
    rw [List.nil_append] at hpass
    refine (ends_indentation_iff hpass.bounded fun _ => hpass.room hcolumns).bind
      fun indentation hindentation => Ends.pure ?_
    rw [List.append_eq_nil_iff, List.append_eq_nil_iff, htext, hindentation]
    constructor
    · rintro ⟨⟨hdescriptions, hclean⟩, hspacing⟩
      obtain ⟨hmeets, horder⟩ := hpass.clean_iff.mp hclean
      refine ⟨hdescriptions, hmeets, horder, fun spec hspec p tag htag hcontent => ?_⟩
      rw [← hpass.longest_eq hclean]
      exact hspacing tag ((hpass.mem_indented_iff hclean tag).mpr
        ⟨⟨spec, hspec, p, htag⟩, hcontent⟩)
    · intro hconforms
      have hclean := hpass.clean_iff.mpr ⟨hconforms.tags, hconforms.order⟩
      refine ⟨⟨hconforms.text, hclean⟩, fun tag htag => ?_⟩
      obtain ⟨⟨spec, hspec, p, hp⟩, hcontent⟩ := (hpass.mem_indented_iff hclean tag).mp htag
      rw [hpass.longest_eq hclean]
      exact hconforms.indentation spec hspec p tag hp hcontent
  exact hends.exists_of_fits trivial

/-- A block with a package and two links, all contents in one column. -/
def tidyBlock : DocBlock where
  short := "Loads the settings."
  newlinesBeforeTags := 2
  tags :=
    [{ name := "package", content := "Core", gap := "  ", line := 3 },
      { name := "link", content := "first", gap := "     ", line := 4 },
      { name := "link", content := "second", gap := "     ", line := 5 }]

/-- Nothing is found there, and so the block conforms to the schema of files. -/
theorem findings_eq_nil_iff_conforms_tidyBlock :
    DocSchema.file.ColumnsFit ∧ DocSchema.file.Conforms tidyBlock := by
  have hcolumns : DocSchema.file.ColumnsFit := by
    rintro padding ⟨⟩
    decide
  have hfindings : DocSchema.file.findings tidyBlock = .ok [] := by decide +kernel
  obtain ⟨found, hfound, hiff⟩ :=
    findings_eq_nil_iff_conforms DocSchema.file tidyBlock (by decide) hcolumns
  rw [hfindings, Except.ok.injEq] at hfound
  exact ⟨hcolumns, hiff.mp hfound.symm⟩

end DocSchema

end PhpStyle
