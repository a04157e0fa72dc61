import PhpStyle.Proofs.Checked
import PhpStyle.Proofs.Doc.Columns

/-!
# Which tags are reported to stand apart

A tag that may occur several times should do so side by side. The second pass over a block compares
the position of each occurrence with the position of the first one and the number of occurrences in
between. Here the report is described without counting: an occurrence stands apart if a tag of
another name stands between it and the first one (`DocBlock.Apart`). What a validation reports is
`DocSchema.scattered_findings`.

Counting and standing apart are compared for one occurrence at a time
(`TagPass.scattered_eq_apartFindings`). Its position is the expected one exactly if all positions up
to it are occurrences, and this says that no other tag is in between (`DocBlock.not_apart_iff`).
What stands apart does so all the more further behind, so the occurrences that are reported are the
last ones (`DocBlock.apartTags_suffix`).

Then it is followed through the second pass which findings are of this sort. Findings are told apart
by the part of the validation that looks for them, and only one part looks for tags that stand apart
(`FoundBy.scatterings_eq_nil`). `TagPass.Gathers` is the invariant: each listing of a name that asks
for it has added the report on this name once. `Gathers.step` and `Gathers.run` are one tag of the
schema more, and all of them. A listing that is passed over adds nothing, because the name does not
occur then, or it is not of the sort that asks for it.

A schema may list a name several times, and so the report is repeated. What is reported is known by
its wording (`DocSchema.worded`).
-/

namespace PhpStyle

/-! ### The report -/

namespace DocBlock

/-- A tag of another name stands between the first tag of the given name and the position `p`. -/
def Apart (doc : DocBlock) (name : String) (p : Nat) : Prop :=
  ∃ entry ∈ doc.first? name, ∃ q < p, entry.2 < q ∧ ∃ other ∈ doc.tags[q - 1]?, other.name ≠ name

instance (doc : DocBlock) (name : String) (p : Nat) : Decidable (doc.Apart name p) :=
  inferInstanceAs (Decidable (∃ entry ∈ doc.first? name, ∃ q < p, _ ∧ _))

/-- The occurrences of a name that stand apart from the first one. -/
def apartTags (doc : DocBlock) (name : String) : List (DocTag × Nat) :=
  (doc.occurrences name).filter fun entry => doc.Apart name entry.2

/-- What is to be reported about them: each one, on its own line. -/
def apartFindings (doc : DocBlock) (name : String) : List Finding :=
  (doc.apartTags name).map fun entry => ⟨.scatteredTag name, .line entry.1.line⟩

end DocBlock

/-- A tag of the schema has the given name and asks that its occurrences stand side by side: it may
occur several times, and is not discouraged. -/
def TagSpec.gathers (name : String) (spec : TagSpec) : Bool :=
  spec.name == name && spec.multiple && !spec.discouraged

/-- How often tags that ask this of the given name are listed. -/
def gatherings (specs : List TagSpec) (name : String) : Nat := specs.countP (TagSpec.gathers name)

/-- The findings about tags of the given name that stand apart. -/
def scatterings (name : String) (found : List Finding) : List Finding :=
  found.filter (·.problem == .scatteredTag name)

/-- The findings with the given wording. -/
def DocSchema.worded (schema : DocSchema) (text : String) (found : List Finding) : List Finding :=
  found.filter (·.problem.message schema == text)

variable {schema : DocSchema} {doc : DocBlock} {name : String} {p q first : Nat} {tag : DocTag}
  {spec : TagSpec} {others : List (DocTag × Nat)} {done : List TagSpec} {found : List Finding}

/-! ### Occurrences that stand apart -/

/-- What holds of an element and so of all behind it holds of an end of the list. -/
theorem filter_suffix_of_pairwise {α : Type} {P : α → Bool} {xs : List α}
    (h : xs.Pairwise fun a b => P a = true → P b = true) : xs.filter P <:+ xs := by
  induction xs with
  | nil => exact List.suffix_rfl
  | cons a xs ih =>
      obtain ⟨ha, hxs⟩ := List.pairwise_cons.mp h
      by_cases hP : P a = true
      · have hall : xs.filter P = xs := List.filter_eq_self.mpr fun b hb => ha b hb hP
        rw [List.filter_cons_of_pos hP, hall]
      · rw [List.filter_cons_of_neg hP]
        exact (ih hxs).trans (List.suffix_cons a xs)

namespace DocBlock

/-- What stands apart does so all the more further behind. -/
theorem Apart.mono (h : doc.Apart name p) (hle : p ≤ q) : doc.Apart name q := by
  obtain ⟨entry, hentry, r, hr, hbehind⟩ := h
  exact ⟨entry, hentry, r, by omega, hbehind⟩

/-- **The occurrences that stand apart are the last ones.** -/
theorem apartTags_suffix (doc : DocBlock) (name : String) :
    doc.apartTags name <:+ doc.occurrences name := by
  apply filter_suffix_of_pairwise
  have hsorted := doc.positions_sorted name
  unfold positions at hsorted
  rw [List.pairwise_map] at hsorted
  refine hsorted.imp fun hlt hapart => ?_
  rw [decide_eq_true_eq] at hapart ⊢
  exact hapart.mono hlt.le

/-- What stands apart, if the first tag of the name is known. -/
theorem apart_iff (h : doc.first? name = some (tag, first)) :
    doc.Apart name p ↔ ∃ q < p, first < q ∧ ∃ other, doc.tags[q - 1]? = some other ∧
      other.name ≠ name := by
  simp [Apart, h]

/-- An occurrence does not stand apart exactly if there are only tags of its name between
it and the first one. -/
theorem not_apart_iff (h : doc.occurrences name = (tag, first) :: others)
    (hp : doc.StandsAt name p) :
    ¬ doc.Apart name p ↔ ∀ q, first ≤ q → q ≤ p → doc.StandsAt name q := by
  have hfirst : doc.first? name = some (tag, first) := by
    rw [first?_eq_head?, h]
    rfl
  have hpos := pos_of_occurrences h
  have hstands : doc.StandsAt name first := ((firstAt_iff h).mpr rfl).1
  have hlength : p - 1 < doc.tags.length := by
    obtain ⟨last, ⟨-, hlast⟩, -⟩ := hp
    exact (List.getElem?_eq_some_iff.mp hlast).1
  have hget : ∀ q, q ≤ p → 0 < q → ∃ other, doc.tags[q - 1]? = some other := by
    intro q hq hq'
    exact ⟨_, List.getElem?_eq_getElem (by omega)⟩
  -- up to `p` every position has a tag, and the question is whether it has the name
  rw [apart_iff hfirst]
  push Not
  constructor
  · intro hall q hq hqp
    rcases Nat.eq_or_lt_of_le hq with rfl | hq
    · exact hstands
    rcases Nat.eq_or_lt_of_le hqp with rfl | hqp
    · exact hp
    · obtain ⟨other, hother⟩ := hget q hqp.le (by omega)
      exact ⟨other, ⟨by omega, hother⟩, hall q hqp hq other hother⟩
  · intro hall q hqp hq other hother
    obtain ⟨tag', ⟨-, htag'⟩, hname⟩ := hall q hq.le hqp.le
    rw [hother, Option.some.injEq] at htag'
    rwa [htag']

/-- There is nothing to report about a name that does not occur. -/
theorem apartFindings_of_not_has (h : doc.has name = false) : doc.apartFindings name = [] := by
  unfold apartFindings apartTags
  rw [occurrences_eq_nil_iff.mpr h]
  rfl

end DocBlock

namespace TagPass

/-- **What is found by counting** are the occurrences that stand apart. -/
theorem scattered_eq_apartFindings (h : doc.occurrences spec.name = (tag, first) :: others) :
    scattered spec first (doc.occurrences spec.name) = doc.apartFindings spec.name := by
  have hmap : doc.apartFindings spec.name = (doc.occurrences spec.name).filterMap fun entry =>
      if doc.Apart spec.name entry.2 then some ⟨.scatteredTag spec.name, .line entry.1.line⟩
      else none := by
    unfold DocBlock.apartFindings DocBlock.apartTags
    rw [← List.filterMap_eq_map, List.filterMap_filter]
    simp
  rw [hmap]
  conv_rhs => rw [← List.zipIdx_map_fst first (doc.occurrences spec.name), List.filterMap_map]
  unfold scattered
  apply List.filterMap_congr
  rintro ⟨⟨tag', p⟩, expected⟩ hmem
  -- the position is the expected one exactly if there is no gap up to it
  have hiff : p = expected ↔ ¬ doc.Apart spec.name p := by
    rw [DocBlock.position_eq_iff h hmem,
      DocBlock.not_apart_iff h (DocBlock.standsAt_of_mem_zipIdx hmem)]
  simp only [Function.comp_apply]
  by_cases hapart : doc.Apart spec.name p
  · rw [if_pos hapart, if_neg (mt hiff.mp (not_not_intro hapart))]
  · rw [if_neg hapart, if_pos (hiff.mpr hapart)]

end TagPass

/-- **Nothing stands apart exactly if the occurrences are one block.** -/
theorem DocBlock.apartTags_eq_nil_iff (doc : DocBlock) (name : String) :
    doc.apartTags name = [] ↔ doc.Grouped name := by
  rcases h : doc.occurrences name with _ | ⟨⟨tag, first⟩, others⟩
  · have habsent := occurrences_eq_nil_iff.mp h
    refine ⟨fun _ p q r hp => absurd hp (not_standsAt habsent), fun _ => ?_⟩
    rw [apartTags, h]
    rfl
  · let spec : TagSpec := { name }
    have hscattered : TagPass.scattered spec first (doc.occurrences name) =
        doc.apartFindings name :=
      TagPass.scattered_eq_apartFindings h
    have hgrouped : TagPass.scattered spec first (doc.occurrences name) = [] ↔ doc.Grouped name :=
      TagPass.scattered_eq_nil_iff h
    rw [← hgrouped, hscattered, apartFindings, List.map_eq_nil_iff]

/-! ### Findings about tags that stand apart -/

/-- The findings of two parts of a list. -/
theorem scatterings_append (name : String) (found more : List Finding) :
    scatterings name (found ++ more) = scatterings name found ++ scatterings name more :=
  List.filter_append ..

/-- A part of the validation that does not look at numbers finds nothing that stands apart. -/
theorem FoundBy.scatterings_eq_nil {check : DocCheck} (h : FoundBy check found)
    (hne : check ≠ .number) (name : String) : scatterings name found = [] := by
  apply h.filter_eq_nil (p := (· == .scatteredTag name))
  intro problem hproblem
  rw [beq_iff_eq.mp hproblem]
  exact hne.symm

/-- The findings about tags that stand apart are known by their wording. -/
theorem DocSchema.worded_eq_scatterings (schema : DocSchema) (name : String)
    (found : List Finding) :
    schema.worded s!"@{name} tags must be grouped together" found = scatterings name found := by
  apply List.filter_congr
  intro finding _
  rw [Bool.eq_iff_iff, beq_iff_eq, beq_iff_eq]
  exact DocProblem.message_eq_scattered_iff

/-- The report on one name is about this name. -/
theorem scatterings_apartFindings (doc : DocBlock) (name other : String) :
    scatterings name (doc.apartFindings other) =
      if other = name then doc.apartFindings name else [] := by
  unfold scatterings DocBlock.apartFindings
  rw [List.filter_map]
  split
  · next h =>
      subst h
      simp [Function.comp_def]
  · next h => simp [Function.comp_def, h]

/-! ### The second pass -/

namespace TagPass

variable {pass : TagPass}

/-- What is found about the number of occurrences of a tag, as far as they stand apart. -/
theorem scatterings_numberFindings (name : String)
    (h : doc.occurrences spec.name = (tag, first) :: others) :
    scatterings name (numberFindings spec tag first (doc.occurrences spec.name)) =
      if spec.name = name ∧ spec.multiple = true then doc.apartFindings name else [] := by
  unfold numberFindings
  cases hmultiple : spec.multiple with
  | false =>
      split
      · simp [scatterings]
      · simp [scatterings]
  | true =>
      rw [if_pos rfl, scattered_eq_apartFindings h]
      split
      · next hlength =>
          -- one occurrence does not stand apart from itself
          have hone : doc.apartFindings spec.name = [] := by
            unfold DocBlock.apartFindings
            rw [List.map_eq_nil_iff, DocBlock.apartTags_eq_nil_iff]
            exact (DocBlock.length_occurrences_le_one_iff.mp hlength).grouped
          split
          · next heq => rw [← heq.1, hone]; rfl
          · rfl
      · rw [scatterings_apartFindings]
        simp

/-- What has been reported about tags that stand apart after the tags `done` of the schema: each
listing that asks that the occurrences stand side by side has added the report once. -/
def Gathers (doc : DocBlock) (done : List TagSpec) (pass : TagPass) : Prop :=
  ∀ name, scatterings name pass.findings =
    (List.replicate (gatherings done name) (doc.apartFindings name)).flatten

namespace Gathers

/-- Before the first tag. -/
theorem start (doc : DocBlock) : Gathers doc [] {} := by
  intro name
  rfl

/-- Some findings more, which hold the report once if the tag asks for it. -/
theorem add {found : List Finding} (h : Gathers doc done pass)
    (hfound : ∀ name, scatterings name found =
      if spec.gathers name then doc.apartFindings name else [])
    {pass' : TagPass} (hpass : pass'.findings = pass.findings ++ found) :
    Gathers doc (done ++ [spec]) pass' := by
  intro name
  rw [hpass, scatterings_append, h name, hfound name]
  unfold gatherings
  rw [List.countP_append]
  by_cases hgathers : spec.gathers name = true
  · simp [hgathers, List.replicate_succ']
  · simp [hgathers]

/-- **One tag of the schema more.** -/
theorem step (h : Gathers doc done pass) (spec : TagSpec) :
    Ends True (TagPass.step schema doc pass spec) (Gathers doc (done ++ [spec])) := by
  rcases step_cases schema doc pass spec with
    ⟨hnot, found, hfound, heq⟩ | ⟨hranked, tag, first, others, hocc, heq⟩
  · rw [heq]
    apply Ends.ok
    refine h.add (fun name => ?_) rfl
    rw [hfound.scatterings_eq_nil (by simp)]
    split
    · next hgathers =>
        -- a tag that asks for it and takes no part does not occur
        simp only [TagSpec.gathers, Bool.and_eq_true, beq_iff_eq, Bool.not_eq_true'] at hgathers
        obtain ⟨⟨rfl, hmultiple⟩, hdiscouraged⟩ := hgathers
        rw [DocBlock.apartFindings_of_not_has]
        by_contra hhas
        refine hnot ⟨by simpa using hhas, hdiscouraged, fun hrepeated => ?_⟩
        rw [hmultiple] at hrepeated
        cases hrepeated.2.1
    · rfl
  · rw [heq]
    apply Ends.ok
    refine h.add (fun name => ?_) (by rw [findings_check, List.append_assoc, List.append_assoc])
    rw [scatterings_append, scatterings_append, scatterings_numberFindings name hocc,
      foundBy_placeFindings.scatterings_eq_nil (by simp),
      foundBy_contentFindings.scatterings_eq_nil (by simp)]
    simp [TagSpec.gathers, hranked.2.1]

/-- **All tags of the schema.** -/
theorem run (h : Gathers doc done pass) (rest : List TagSpec) :
    Ends True (rest.foldlM (TagPass.step schema doc) pass) (Gathers doc (done ++ rest)) :=
  Ends.foldlM_done (fun _ _ spec hpass => hpass.step spec) h rest

end Gathers

/-- The second pass has a result, which has reported all tags that stand apart. -/
theorem exists_gathers_run (schema : DocSchema) (doc : DocBlock) :
    ∃ pass, run schema doc = .ok pass ∧ Gathers doc schema.tags pass :=
  ((Gathers.start doc).run schema.tags).exists_of_fits trivial

end TagPass

/-! ### All passes -/

namespace DocSchema

/-- **What a validation reports about tags that stand apart**, for every block and every schema, if
it comes to the tags. For every listing of a name that may occur several times and is not
discouraged, the occurrences that a tag of another name separates from the first one are reported,
each of them once and on its own line; for a name that is listed so once, this is the whole report.
The occurrences that are reported are the last ones, so with one of them all later ones are; and
none is reported exactly if the occurrences are one block. -/
theorem scattered_findings (schema : DocSchema) (doc : DocBlock) {found : List Finding}
    (h : schema.descriptionFindings doc = .ok (found, false)) (name : String) :
    let report := schema.worded s!"@{name} tags must be grouped together"
    let expected := (List.replicate (gatherings schema.tags name) (doc.apartFindings name)).flatten
    Ends (schema.ContentsFit doc) (schema.findings doc) (fun all => report all = expected) ∧
    (∃ pass, TagPass.run schema doc = .ok pass ∧ report pass.findings = expected) ∧
    (gatherings schema.tags name = 1 → expected = doc.apartFindings name) ∧
    doc.apartTags name <:+ doc.occurrences name ∧
    (doc.apartTags name = [] ↔ doc.Grouped name) := by
  intro report expected
  obtain ⟨pass, hrun, hgathers⟩ := TagPass.exists_gathers_run schema doc
  have hreport : ∀ all, report all = scatterings name all := schema.worded_eq_scatterings name
  refine ⟨?_, ⟨pass, hrun, ?_⟩, fun honce => ?_, doc.apartTags_suffix name,
    doc.apartTags_eq_nil_iff name⟩
  · apply (ends_findings_of_reaches h hrun).mono
    rintro all ⟨-, rfl⟩
    rw [hreport, scatterings_append, scatterings_append,
      (foundBy_descriptionFindings h).scatterings_eq_nil (by simp),
      (schema.foundBy_distanceFindings doc).scatterings_eq_nil (by simp), hgathers name]
    simp [expected]
  · rw [hreport, hgathers name]
  · simp [expected, honce]

/-- A block with links in two places. -/
def strewnBlock : DocBlock where
  short := "Loads the settings."
  newlinesBeforeTags := 2
  tags :=
    [{ name := "package", line := 3 }, { name := "link", line := 4 }, { name := "link", line := 5 },
      { name := "see", line := 6 }, { name := "link", line := 7 }, { name := "link", line := 8 }]

/-- The two links behind the other tag are reported. -/
theorem scattered_findings_strewnBlock :
    file.descriptionFindings strewnBlock = .ok ([], false) ∧
      ∃ all, file.findings strewnBlock = .ok all ∧
        file.worded "@link tags must be grouped together" all =
          [⟨.scatteredTag "link", .line 7⟩, ⟨.scatteredTag "link", .line 8⟩] := by
  have hreach : file.descriptionFindings strewnBlock = .ok ([], false) := by decide +kernel
  have hall : ∃ all, file.findings strewnBlock = .ok all ∧ all.length = 3 := by decide +kernel
  obtain ⟨all, hall, -⟩ := hall
  have hreport := (scattered_findings file strewnBlock hreach "link").1
  rw [hall] at hreport
  refine ⟨hreach, all, hall, hreport.trans ?_⟩
  decide +kernel

end DocSchema

end PhpStyle
