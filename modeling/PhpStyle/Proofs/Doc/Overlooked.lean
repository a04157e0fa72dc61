import PhpStyle.Proofs.Checked
import PhpStyle.Proofs.Doc.Tags

/-!
# What a validation does not read

A validation reads the names of all tags, but the contents, gaps and lines of some of them only. A
tag is overlooked if the schema discourages it or does not list it, and so is a tag behind the first
one of its name, unless the schema lists the name as one that may occur several times. Which tags
these are follows from the names in the block (`DocSchema.Overlooks`). Two blocks with the same
names, which are the same where the schema reads them (`DocSchema.ReadsAlike`), are found to have
the same problems: `DocSchema.findings_eq_of_readsAlike`.

The proof follows the two validations side by side. As the names are the same, so are the positions
of each name (`DocBlock.positions_eq_of_names`), and the occurrences are what stands at these
positions (`DocBlock.occurrences_eq_filterMap`). It is left to see that the validations look only at
tags that are not overlooked.

The first pass looks at no tag but the first one that is refused. Its index follows from the names,
and it is not overlooked: the schema does not accept it, and a tag of the same name in front of it
would have been refused before (`not_overlooks_refused`).

The second pass goes through the tags of the schema (`ReadsAlike.step_eq`). Of a discouraged tag it
uses only that it occurs. Of a tag that may occur several times all occurrences are the same in both
blocks. Of a single one it uses the first occurrence and how many others there are. So the two
passes are in the same state after each tag (`ReadsAlike.run_eq`), and the third pass only reads
that state.
-/

namespace PhpStyle

/-! ### Blocks that are read alike -/

/-- The names of the tags, in order. -/
def DocBlock.names (doc : DocBlock) : List String := doc.tags.map (·.name)

namespace DocSchema

/-- No tag of the name is read: a block may have it, and whatever the schema lists under the name is
discouraged. -/
def ReadsNone (schema : DocSchema) (name : String) : Prop :=
  schema.accepts name = true ∧ ∀ spec ∈ schema.tags, spec.name = name → spec.discouraged = true

/-- Only the first tag of the name can be read: whatever the schema lists under the name is
discouraged or single. -/
def ReadsFirst (schema : DocSchema) (name : String) : Prop :=
  ∀ spec ∈ schema.tags, spec.name = name → spec.discouraged = false → spec.multiple = false

/-- In a block with these names the tag with the index `k` is not read. -/
def Overlooks (schema : DocSchema) (names : List String) (k : Nat) : Prop :=
  ∃ name ∈ names[k]?, schema.ReadsNone name ∨ schema.ReadsFirst name ∧ name ∈ names.take k

/-- Two blocks differ only in tags that the schema overlooks, and there not in the names. -/
@[mk_iff] structure ReadsAlike (schema : DocSchema) (doc other : DocBlock) : Prop where
  /-- They have the same short description. -/
  short : doc.short = other.short
  /-- They have the same long description. -/
  long : doc.long = other.long
  /-- They have the same gap between the descriptions. -/
  between : doc.newlinesBetween = other.newlinesBetween
  /-- They have the same gap in front of the tags. -/
  beforeTags : doc.newlinesBeforeTags = other.newlinesBeforeTags
  /-- Their tags have the same names. -/
  names : doc.names = other.names
  /-- Their tags are the same, unless they are overlooked. -/
  tags : ∀ k < doc.tags.length, schema.Overlooks doc.names k ∨ doc.tags[k]? = other.tags[k]?

instance (schema : DocSchema) (name : String) : Decidable (schema.ReadsNone name) :=
  inferInstanceAs (Decidable (_ ∧ ∀ spec ∈ schema.tags, _ → _))

instance (schema : DocSchema) (name : String) : Decidable (schema.ReadsFirst name) :=
  inferInstanceAs (Decidable (∀ spec ∈ schema.tags, _ → _ → _))

instance (schema : DocSchema) (names : List String) (k : Nat) :
    Decidable (schema.Overlooks names k) :=
  inferInstanceAs (Decidable (∃ name ∈ names[k]?, _ ∨ _ ∧ _))

instance (schema : DocSchema) (doc other : DocBlock) : Decidable (schema.ReadsAlike doc other) :=
  decidable_of_iff _ (readsAlike_iff schema doc other).symm

end DocSchema

variable {schema : DocSchema} {doc other : DocBlock} {spec : TagSpec} {name : String}
  {p first k : Nat} {tag : DocTag}

/-! ### Positions and occurrences -/

namespace DocBlock

/-- The positions of a name follow from the names. -/
theorem positions_eq_of_names (h : doc.names = other.names) (name : String) :
    doc.positions name = other.positions name := by
  have hnames : ∀ d : DocBlock, d.positions name =
      ((d.names.zipIdx 1).filter (·.1 == name)).map (·.2) := by
    intro d
    unfold positions occurrences names
    rw [List.zipIdx_map, List.filter_map, List.map_map]
    rfl
  rw [hnames, hnames, h]

/-- The occurrences of a name are what stands at its positions. -/
theorem occurrences_eq_filterMap (doc : DocBlock) (name : String) :
    doc.occurrences name = (doc.positions name).filterMap fun p => doc.tags[p - 1]?.map (·, p) := by
  unfold positions
  rw [List.filterMap_map]
  conv_lhs => rw [← List.filterMap_some (l := doc.occurrences name)]
  refine List.filterMap_congr fun entry hentry => ?_
  obtain ⟨⟨-, hget⟩, -⟩ := mem_occurrences_iff.mp hentry
  rw [Function.comp_apply, hget]
  rfl

/-- A name with an occurrence is among the names, and its first occurrence has none of
them in front of it. -/
theorem names_of_occurrences {others : List (DocTag × Nat)}
    (h : doc.occurrences name = (tag, first) :: others) :
    doc.names[first - 1]? = some name ∧ name ∉ doc.names.take (first - 1) := by
  obtain ⟨⟨hpos, hget⟩, hname⟩ :=
    mem_occurrences_iff.mp (h ▸ List.mem_cons_self : (tag, first) ∈ doc.occurrences name)
  refine ⟨by rw [names, List.getElem?_map, hget, Option.map_some, hname], fun hmem => ?_⟩
  -- an earlier tag of the name would be at an earlier position
  obtain ⟨k, hk⟩ := List.mem_iff_getElem?.mp hmem
  rw [List.getElem?_take, names, List.getElem?_map] at hk
  split at hk
  · next hlt =>
      obtain ⟨earlier, hearlier, heq⟩ := Option.map_eq_some_iff.mp hk
      have hle := ((firstAt_iff h).mpr rfl).2 (k + 1) ⟨earlier, ⟨Nat.succ_pos k, hearlier⟩, heq⟩
      omega
  · cases hk

end DocBlock

namespace DocSchema

/-- Whether a tag is overlooked, by its name. -/
theorem overlooks_iff {names : List String} (hname : names[k]? = some name) :
    schema.Overlooks names k ↔
      schema.ReadsNone name ∨ schema.ReadsFirst name ∧ name ∈ names.take k := by
  unfold Overlooks
  simp [hname]

/-- A name that the schema lists without discouraging it is not overlooked as a whole. -/
theorem not_readsNone (hspec : spec ∈ schema.tags) (hdiscouraged : spec.discouraged = false) :
    ¬ schema.ReadsNone spec.name := by
  intro hnone
  have hwarned := hnone.2 spec hspec rfl
  rw [hdiscouraged] at hwarned
  cases hwarned

/-- A listed tag that is not discouraged is read where it first stands. -/
theorem not_overlooks_first (hspec : spec ∈ schema.tags) (hdiscouraged : spec.discouraged = false)
    {others : List (DocTag × Nat)} (h : doc.occurrences spec.name = (tag, first) :: others) :
    ¬ schema.Overlooks doc.names (first - 1) := by
  obtain ⟨hname, hfirst⟩ := DocBlock.names_of_occurrences h
  rw [overlooks_iff hname]
  rintro (hnone | ⟨-, hearlier⟩)
  · exact not_readsNone hspec hdiscouraged hnone
  · exact hfirst hearlier

/-- A listed tag that may occur several times is read wherever it stands. -/
theorem not_overlooks_multiple (hspec : spec ∈ schema.tags)
    (hdiscouraged : spec.discouraged = false) (hmultiple : spec.multiple = true)
    (hname : doc.names[k]? = some spec.name) : ¬ schema.Overlooks doc.names k := by
  rw [overlooks_iff hname]
  rintro (hnone | ⟨honce, -⟩)
  · exact not_readsNone hspec hdiscouraged hnone
  · have hsingle := honce spec hspec rfl hdiscouraged
    rw [hmultiple] at hsingle
    cases hsingle

/-- The first tag that is refused is read. -/
theorem not_overlooks_refused (h : doc.names.findIdx? (fun name => !schema.accepts name) = some k) :
    ¬ schema.Overlooks doc.names k := by
  obtain ⟨hk, hrefused, hbefore⟩ := List.findIdx?_eq_some_iff_getElem.mp h
  rw [overlooks_iff (List.getElem?_eq_getElem hk)]
  rintro (hnone | ⟨-, hearlier⟩)
  · rw [hnone.1] at hrefused
    cases hrefused
  · -- an earlier tag of the same name would be refused as well
    obtain ⟨j, hj, heq⟩ := List.mem_take_iff_getElem.mp hearlier
    exact hbefore j (by omega) (heq ▸ hrefused)

namespace ReadsAlike

variable (h : schema.ReadsAlike doc other)
include h

/-- There are as many tags in both blocks. -/
theorem length_eq : doc.tags.length = other.tags.length := by
  have hlength := congrArg List.length h.names
  simpa [DocBlock.names] using hlength

/-- A tag that is not overlooked is the same in both blocks. -/
theorem getElem?_eq (hread : ¬ schema.Overlooks doc.names k) : doc.tags[k]? = other.tags[k]? := by
  by_cases hk : k < doc.tags.length
  · exact (h.tags k hk).resolve_left hread
  · have hlength := h.length_eq
    rw [List.getElem?_eq_none (by omega), List.getElem?_eq_none (by omega)]

/-! ### The first pass -/

/-- The tag that ends the validation because it is refused. -/
theorem find?_eq : (doc.tags.find? fun tag => !schema.accepts tag.name) =
    other.tags.find? fun tag => !schema.accepts tag.name := by
  -- the tag is found by its index, and that by the names
  have hindex : ∀ d : DocBlock, (d.tags.findIdx? fun tag => !schema.accepts tag.name) =
      d.names.findIdx? fun name => !schema.accepts name := by
    intro d
    rw [DocBlock.names, List.findIdx?_map]
    rfl
  rw [List.find?_eq_bind_findIdx?_getElem?, List.find?_eq_bind_findIdx?_getElem?, hindex,
    hindex, ← h.names]
  rcases hfound : doc.names.findIdx? fun name => !schema.accepts name with _ | k
  · rfl
  · exact h.getElem?_eq (not_overlooks_refused hfound)

/-- **The first pass** finds the same. -/
theorem descriptionFindings_eq :
    schema.descriptionFindings doc = schema.descriptionFindings other := by
  have hnil : doc.tags.isEmpty = other.tags.isEmpty := by
    rw [Bool.eq_iff_iff, List.isEmpty_iff_length_eq_zero, List.isEmpty_iff_length_eq_zero,
      h.length_eq]
  have hempty : doc.isEmpty = other.isEmpty := by
    simp only [DocBlock.isEmpty, h.short, h.long, hnil]
  have htight : doc.isTight = other.isTight := by
    simp only [DocBlock.isTight, h.beforeTags, hnil]
  have hreached : doc.reached = other.reached := by
    simp only [DocBlock.reached, DocBlock.shortLines, h.short, h.long, h.between]
  have hlead : doc.leadFindings = other.leadFindings := by
    simp only [DocBlock.leadFindings, h.short]
  have hbetween : doc.betweenFindings = other.betweenFindings := by
    simp only [DocBlock.betweenFindings, DocBlock.shortLines, h.short, h.long, h.between]
  have hbefore : ∀ reached, doc.beforeTagsFindings reached = other.beforeTagsFindings reached := by
    intro reached
    simp only [DocBlock.beforeTagsFindings, htight, h.long, h.beforeTags]
  have hseveral : doc.severalFindings = other.severalFindings := by
    simp only [DocBlock.severalFindings, htight, h.short]
  simp only [descriptionFindings, hempty, h.short, hreached, hlead, hbetween, hbefore,
    hseveral, h.find?_eq]

/-! ### The second pass -/

/-- The occurrences of a name that may occur several times. -/
theorem occurrences_eq_of_multiple (hspec : spec ∈ schema.tags)
    (hdiscouraged : spec.discouraged = false) (hmultiple : spec.multiple = true) :
    doc.occurrences spec.name = other.occurrences spec.name := by
  rw [doc.occurrences_eq_filterMap, other.occurrences_eq_filterMap,
    ← DocBlock.positions_eq_of_names h.names]
  refine List.filterMap_congr fun p hp => ?_
  obtain ⟨tag, ⟨-, hget⟩, hname⟩ := DocBlock.mem_positions_iff.mp hp
  -- each of these positions is read
  have hread : ¬ schema.Overlooks doc.names (p - 1) := by
    refine not_overlooks_multiple hspec hdiscouraged hmultiple ?_
    rw [DocBlock.names, List.getElem?_map, hget, Option.map_some, hname]
  rw [h.getElem?_eq hread]

/-- The occurrences of a name start at the same position in both blocks, and are as many. -/
theorem exists_occurrences {others : List (DocTag × Nat)}
    (hocc : doc.occurrences name = (tag, first) :: others) :
    ∃ tag' others', other.occurrences name = (tag', first) :: others' ∧
      others'.length = others.length := by
  have hpositions := DocBlock.positions_eq_of_names h.names name
  unfold DocBlock.positions at hpositions
  rw [hocc] at hpositions
  rcases hocc' : other.occurrences name with _ | ⟨⟨tag', first'⟩, others'⟩
  · rw [hocc'] at hpositions
    cases hpositions
  · rw [hocc', List.map_cons, List.map_cons, List.cons.injEq] at hpositions
    obtain ⟨rfl, hothers⟩ := hpositions
    refine ⟨tag', others', rfl, ?_⟩
    simpa using (congrArg List.length hothers).symm

/-- The first occurrence of a listed tag that is not discouraged is the same in both blocks. -/
theorem first_eq (hspec : spec ∈ schema.tags) (hdiscouraged : spec.discouraged = false)
    {tag' : DocTag} {others others' : List (DocTag × Nat)}
    (hocc : doc.occurrences spec.name = (tag, first) :: others)
    (hocc' : other.occurrences spec.name = (tag', first) :: others') : tag = tag' := by
  have hmem : (tag, first) ∈ doc.occurrences spec.name := hocc ▸ List.mem_cons_self
  have hmem' : (tag', first) ∈ other.occurrences spec.name := hocc' ▸ List.mem_cons_self
  obtain ⟨⟨-, hget⟩, -⟩ := DocBlock.mem_occurrences_iff.mp hmem
  obtain ⟨⟨-, hget'⟩, -⟩ := DocBlock.mem_occurrences_iff.mp hmem'
  rw [h.getElem?_eq (not_overlooks_first hspec hdiscouraged hocc), hget'] at hget
  exact (Option.some.inj hget).symm

/-- **One tag of the schema** is taken in alike. Of a discouraged tag it matters that it occurs,
of a single one the first occurrence and whether there are others, and a multiple one is the
same in both blocks. -/
theorem step_eq (hspec : spec ∈ schema.tags) (pass : TagPass) :
    TagPass.step schema doc pass spec = TagPass.step schema other pass spec := by
  unfold TagPass.step
  rcases hocc : doc.occurrences spec.name with _ | ⟨⟨tag, first⟩, others⟩
  · -- the name does not occur
    have hnone : other.occurrences spec.name = [] := by
      rw [other.occurrences_eq_filterMap, ← DocBlock.positions_eq_of_names h.names,
        DocBlock.positions, hocc]
      rfl
    rw [hnone]
  obtain ⟨tag', others', hocc', hlength⟩ := h.exists_occurrences hocc
  rw [hocc']
  cases hdiscouraged : spec.discouraged with
  | true => rfl
  | false =>
      obtain rfl := h.first_eq hspec hdiscouraged hocc hocc'
      cases hmultiple : spec.multiple with
      | true =>
          have heq := h.occurrences_eq_of_multiple hspec hdiscouraged hmultiple
          rw [hocc, hocc', List.cons.injEq] at heq
          rw [heq.2]
      | false =>
          have hempty : others'.isEmpty = others.isEmpty := by
            rw [Bool.eq_iff_iff, List.isEmpty_iff_length_eq_zero, List.isEmpty_iff_length_eq_zero,
              hlength]
          simp [TagPass.checkedCount, TagPass.check, TagPass.numberFindings, firstOf,
            hmultiple, hempty, hlength]

/-- **The second pass** ends in the same state. -/
theorem run_eq : TagPass.run schema doc = TagPass.run schema other := by
  -- for a part of the tags of the schema, from any state on
  have hfold : ∀ specs pass, (∀ spec ∈ specs, spec ∈ schema.tags) →
      List.foldlM (TagPass.step schema doc) pass specs =
        List.foldlM (TagPass.step schema other) pass specs := by
    intro specs
    induction specs with
    | nil => exact fun _ _ => rfl
    | cons spec specs ih =>
        intro pass hspecs
        rw [List.forall_mem_cons] at hspecs
        rw [List.foldlM_cons, List.foldlM_cons, h.step_eq hspecs.1]
        exact bind_congr fun next => ih next hspecs.2
  exact hfold schema.tags {} fun _ hspec => hspec

end ReadsAlike

/-- **What a schema overlooks does not matter.** Two blocks with the same descriptions, the
same gaps and the same names of tags are found to have the same problems, in the same order and
at the same places, if their tags differ only in what is overlooked: contents, gaps and lines
of tags that the schema accepts and does not list, or discourages, and of tags behind the first
one of a name that the schema lists as single only. A sum that does not fit in a word is met in
both or in neither. -/
theorem findings_eq_of_readsAlike (schema : DocSchema) (doc other : DocBlock)
    (h : schema.ReadsAlike doc other) : schema.findings doc = schema.findings other := by
  unfold findings
  rw [h.descriptionFindings_eq, h.run_eq]

/-- A block with discouraged, repeated and unknown tags. -/
def loadedBlock : DocBlock where
  short := "Does."
  newlinesBeforeTags := 2
  tags := [⟨"author", "A", " ", 3⟩, ⟨"see", "B", "  ", 4⟩, ⟨"package", "p", "  ", 5⟩,
    ⟨"todo", "", "", 6⟩, ⟨"package", "q", " ", 7⟩]

/-- The same block with other contents, gaps and lines, where the schema of files does not look. -/
def reloadedBlock : DocBlock where
  short := "Does."
  newlinesBeforeTags := 2
  tags := [⟨"author", "", "\t", 8⟩, ⟨"see", "B", "  ", 4⟩, ⟨"package", "p", "  ", 5⟩,
    ⟨"todo", "later", "   ", 2⟩, ⟨"package", "", "", 5⟩]

/-- Both blocks have the same four problems. -/
theorem findings_eq_of_readsAlike_loadedBlock :
    file.ReadsAlike loadedBlock reloadedBlock ∧ file.findings reloadedBlock = .ok
      [⟨.discouragedTag "author", .stop⟩, ⟨.repeatedTag "package", .line 5⟩,
        ⟨.wrongOrder "see" "follows @see", .line 4⟩, ⟨.misaligned "see" 6 2, .line 4⟩] := by
  have halike : file.ReadsAlike loadedBlock reloadedBlock := by decide +kernel
  refine ⟨halike, ?_⟩
  rw [← findings_eq_of_readsAlike file loadedBlock reloadedBlock halike]
  decide +kernel

end DocSchema

end PhpStyle
