import PhpStyle.Proofs.Doc.Conformance

/-!
# Which tags are reported to be in the wrong order

The second pass over a block keeps one number for the order of the tags: the largest first position
among those that it has come to. A tag that was reported still counts there, a discouraged tag and a
repeated tag that must come first do not. Here the report is described without that number: a tag is
late if some tag before it in the schema, which takes part in the order (`TagSpec.Ranked`), first
stands at its own first position or behind it (`DocBlock.Passed`). `DocBlock.orderFindings` is the
report, from the schema and the first positions alone.

That the pass makes this report is shown along the tags of the schema. `TagPass.step_cases` says
what it does with one of them: a tag that takes part is checked, and any other one leaves findings
about its presence at most. The invariant is `TagPass.Tracks`, that the positions up to the number
are those that were passed, and that the late tags were reported. It holds whatever else was found,
unlike the invariant of blocks that conform. At a tag that is checked the number grows to the
maximum with a first position, and to be passed by one tag more is to be passed by it or by one of
those before (`DocBlock.passed_append`); so both sides grow alike.

The findings about the order are picked out of all findings. They belong to the part that looks at
places, so the other parts, and the passes before and behind this one, add nothing
(`FoundBy.wrongOrders_eq_nil`).

`DocSchema.wrongOrder_findings` also says that a late tag does no harm to those behind it: some tag
before it has passed whatever it passes itself, so the report on the others would be the same
without it (`DocBlock.orderFindings_drop`). It says nothing about blocks whose validation ends with
the descriptions.
-/

namespace PhpStyle

/-! ### The report -/

/-- The first tag of the given name, with its position. -/
def DocBlock.first? (doc : DocBlock) (name : String) : Option (DocTag × Nat) :=
  (doc.tags.zipIdx 1).find? fun (tag, _) => tag.name == name

/-- A tag of the schema takes part in the order: it occurs, it is not discouraged, and it is no
single tag that must come first but occurs several times. -/
def TagSpec.Ranked (doc : DocBlock) (spec : TagSpec) : Prop :=
  doc.has spec.name = true ∧ spec.discouraged = false ∧
    ¬ (spec.placement = .first ∧ spec.multiple = false ∧
      1 < doc.tags.countP fun tag => tag.name == spec.name)

instance (doc : DocBlock) (spec : TagSpec) : Decidable (spec.Ranked doc) :=
  inferInstanceAs (Decidable (_ ∧ _ ∧ ¬ (_ ∧ _ ∧ _)))

/-- A tag among `before` that takes part in the order first stands at position `p` or behind it. -/
def DocBlock.Passed (doc : DocBlock) (before : List TagSpec) (p : Nat) : Prop :=
  ∃ earlier ∈ before, earlier.Ranked doc ∧ ∃ entry ∈ doc.first? earlier.name, p ≤ entry.2

instance (doc : DocBlock) (before : List TagSpec) (p : Nat) : Decidable (doc.Passed before p) :=
  inferInstanceAs (Decidable (∃ earlier ∈ before, _ ∧ _))

/-- What is to be reported about the order of one tag, if `before` stands before it in the schema:
that an ordered tag is late, on the line of its first occurrence. -/
def DocBlock.orderFinding? (doc : DocBlock) (before : List TagSpec) (spec : TagSpec) :
    Option Finding :=
  match doc.first? spec.name with
  | none => none
  | some (tag, p) =>
    if spec.placement = .ordered ∧ spec.discouraged = false ∧ doc.Passed before p then
      some ⟨.wrongOrder spec.name spec.orderText, .line tag.line⟩
    else none

/-- What is to be reported about the order of the tags of a schema, of which `before` is the
part in front of them. -/
def DocBlock.orderFindings (doc : DocBlock) (before : List TagSpec) : List TagSpec → List Finding
  | [] => []
  | spec :: rest =>
    (doc.orderFinding? before spec).toList ++ doc.orderFindings (before ++ [spec]) rest

/-- Whether a problem is one of order. -/
def DocProblem.isWrongOrder : DocProblem → Bool
  | wrongOrder .. => true
  | _ => false

/-- The findings about the order. -/
def wrongOrders (found : List Finding) : List Finding := found.filter (·.problem.isWrongOrder)

variable {schema : DocSchema} {doc : DocBlock} {fits : Prop} {name : String} {p first : Nat}
  {tag : DocTag} {others : List (DocTag × Nat)} {spec : TagSpec} {before done : List TagSpec}

/-! ### First positions -/

namespace DocBlock

/-- The first tag of a name is the head of its occurrences. -/
theorem first?_eq_head? (doc : DocBlock) (name : String) :
    doc.first? name = (doc.occurrences name).head? := by
  unfold first? occurrences
  rw [List.head?_filter]

/-- The occurrences of a name are counted among the tags. -/
theorem countP_eq_length_occurrences (doc : DocBlock) (name : String) :
    (doc.tags.countP fun tag => tag.name == name) = (doc.occurrences name).length := by
  unfold occurrences
  rw [← List.countP_eq_length_filter]
  conv_lhs => rw [← List.zipIdx_map_fst 1 doc.tags, List.countP_map]
  rfl

/-- The first occurrence has a position behind the descriptions. -/
theorem pos_of_occurrences (h : doc.occurrences name = (tag, first) :: others) : 0 < first := by
  have hmem : (tag, first) ∈ doc.occurrences name := by simp [h]
  exact (mem_occurrences_iff.mp hmem).1.1

/-! ### What passes a position -/

/-- Nothing has passed a position before the first tag of the schema. -/
@[simp] theorem not_passed_nil : ¬ doc.Passed [] p := by
  rintro ⟨earlier, hmem, -⟩
  simp at hmem

/-- Two parts of a schema. -/
theorem passed_append {more : List TagSpec} :
    doc.Passed (before ++ more) p ↔ doc.Passed before p ∨ doc.Passed more p := by
  unfold Passed
  simp only [List.mem_append, or_and_right, exists_or]

/-- A tag that takes part passes the positions up to its first one. -/
theorem passed_singleton_iff (hranked : spec.Ranked doc)
    (hfirst : doc.first? spec.name = some (tag, first)) : doc.Passed [spec] p ↔ p ≤ first := by
  unfold Passed
  simp [hranked, hfirst]

/-- A tag that does not take part passes no position. -/
theorem not_passed_singleton (hnot : ¬ spec.Ranked doc) : ¬ doc.Passed [spec] p := by
  unfold Passed
  simp [hnot]

/-- What has passed a position has passed those in front of it. -/
theorem Passed.mono {q : Nat} (h : doc.Passed before p) (hle : q ≤ p) : doc.Passed before q := by
  obtain ⟨earlier, hmem, hranked, entry, hentry, hp⟩ := h
  exact ⟨earlier, hmem, hranked, entry, hentry, hle.trans hp⟩

/-! ### The report, part by part -/

/-- The report on two parts of a schema. -/
theorem orderFindings_append (doc : DocBlock) (before specs more : List TagSpec) :
    doc.orderFindings before (specs ++ more) =
      doc.orderFindings before specs ++ doc.orderFindings (before ++ specs) more := by
  induction specs generalizing before with
  | nil => simp [orderFindings]
  | cons spec specs ih => simp [orderFindings, ih]

/-- The report on one tag depends only on which positions were passed. -/
theorem orderFinding?_congr {other : List TagSpec}
    (h : ∀ p, doc.Passed before p ↔ doc.Passed other p) (spec : TagSpec) :
    doc.orderFinding? before spec = doc.orderFinding? other spec := by
  unfold orderFinding?
  simp only [h]

/-- The report on a part of a schema depends only on which positions were passed in front of it. -/
theorem orderFindings_congr {other : List TagSpec}
    (h : ∀ p, doc.Passed before p ↔ doc.Passed other p) (rest : List TagSpec) :
    doc.orderFindings before rest = doc.orderFindings other rest := by
  -- along the schema: one tag more in front keeps what was passed the same in both
  induction rest generalizing before other with
  | nil => rfl
  | cons spec rest ih =>
      unfold orderFindings
      rw [orderFinding?_congr h spec, ih]
      intro p
      rw [passed_append, passed_append, h p]

/-- A tag that does not take part in the order is not reported. -/
theorem orderFinding?_eq_none (hnot : ¬ spec.Ranked doc) :
    doc.orderFinding? before spec = none := by
  unfold orderFinding?
  split
  · rfl
  · next tag p hfirst =>
      rw [if_neg]
      rintro ⟨hordered, hdiscouraged, -⟩
      rw [first?_eq_head?, List.head?_eq_some_iff] at hfirst
      obtain ⟨others, hocc⟩ := hfirst
      refine hnot ⟨has_of_occurrences hocc, hdiscouraged, fun hrepeated => ?_⟩
      rw [hordered] at hrepeated
      cases hrepeated.1

/-- A tag that is reported was passed by another one, which passes all that the tag itself would
pass. -/
theorem passed_concat_of_late {finding : Finding}
    (h : doc.orderFinding? before spec = some finding) :
    doc.Passed (before ++ [spec]) p ↔ doc.Passed before p := by
  rw [passed_append, or_iff_left_iff_imp]
  rintro ⟨earlier, hearlier, -, ⟨tag', q⟩, hentry, hle⟩
  rw [List.mem_singleton.mp hearlier] at hentry
  unfold orderFinding? at h
  simp only [Option.mem_def.mp hentry] at h
  split_ifs at h with hlate
  exact hlate.2.2.mono hle

/-- **A tag that is reported changes nothing for the tags behind it**: they are reported as if the
schema did not have it. -/
theorem orderFindings_drop {finding : Finding} (h : doc.orderFinding? before spec = some finding)
    (rest : List TagSpec) :
    doc.orderFindings (before ++ [spec]) rest = doc.orderFindings before rest :=
  orderFindings_congr (fun _ => passed_concat_of_late h) rest

end DocBlock

/-! ### Findings of other sorts -/

/-- The findings about the order, of two parts of a list. -/
theorem wrongOrders_append (found more : List Finding) :
    wrongOrders (found ++ more) = wrongOrders found ++ wrongOrders more :=
  List.filter_append ..

/-- A part of the validation that does not look at places finds nothing about the order. -/
theorem FoundBy.wrongOrders_eq_nil {check : DocCheck} {found : List Finding}
    (h : FoundBy check found) (hne : check ≠ .place) : wrongOrders found = [] := by
  apply h.filter_eq_nil
  intro problem hproblem
  cases problem <;> cases hproblem
  exact hne.symm

/-- The first pass finds nothing about the order. -/
theorem DocSchema.wrongOrders_descriptionFindings {found : List Finding} {final : Bool}
    (h : schema.descriptionFindings doc = .ok (found, final)) : wrongOrders found = [] := by
  apply (foundBy_descriptionFindings h).wrongOrders_eq_nil
  simp

/-- The third pass finds nothing about the order. -/
theorem DocSchema.ends_wrongOrders_indentation {longest : Nat} {tags : List DocTag}
    (hlength : ∀ tag ∈ tags, tag.name.utf8ByteSize ≤ longest)
    (hroom : fits → ∀ padding, schema.indentation = .aligned padding →
      longest + padding ≤ maxWord) :
    Ends fits (tags.mapM (schema.indentationFinding longest)) fun found =>
      wrongOrders (found.filterMap id) = [] := by
  have hone : ∀ tag ∈ tags, Ends fits (schema.indentationFinding longest tag) fun finding? =>
      FoundBy .indentation finding?.toList := by
    intro tag htag
    refine ((ends_distance (hlength tag htag)).weaken
      fun hfits => indentation_fits (hroom hfits) _).mono ?_
    rintro finding? ⟨-, rfl⟩
    exact schema.foundBy_distanceFinding? longest tag
  apply (Ends.mapM hone).mono
  intro found hfound
  have hall : FoundBy .indentation (found.filterMap id) := by
    intro finding hmem
    obtain ⟨finding?, hmem, heq⟩ := List.mem_filterMap.mp hmem
    apply hfound finding? hmem
    simpa using heq
  apply hall.wrongOrders_eq_nil
  simp

/-! ### The second pass -/

namespace TagPass

variable {pass : TagPass}

/-- **What one step can do.** A tag that does not take part in the order only leaves findings, about
its presence; a tag that does is checked. -/
theorem step_cases (schema : DocSchema) (doc : DocBlock) (pass : TagPass) (spec : TagSpec) :
    (¬ spec.Ranked doc ∧ ∃ found, FoundBy .presence found ∧
      step schema doc pass spec = .ok { pass with findings := pass.findings ++ found }) ∨
    (spec.Ranked doc ∧ ∃ tag first others, doc.occurrences spec.name = (tag, first) :: others ∧
      step schema doc pass spec = .ok
        (pass.check schema spec tag first (doc.occurrences spec.name) (checkedTags doc spec))) := by
  -- the pass counts occurrences, `Ranked` counts tags
  have hcount := doc.countP_eq_length_occurrences spec.name
  obtain ⟨next, heq, hstep⟩ := exists_step schema doc pass spec
  rw [heq]
  cases hstep with
  | absent hocc =>
      refine Or.inl ⟨fun hranked => ?_, [], FoundBy.nil, by rw [List.append_nil]⟩
      have hhas := hranked.1
      rw [DocBlock.occurrences_eq_nil_iff.mp hocc] at hhas
      cases hhas
  | missing hocc =>
      refine Or.inl ⟨fun hranked => ?_, [⟨.missingTag spec.name, .stop⟩], FoundBy.single rfl, rfl⟩
      have hhas := hranked.1
      rw [DocBlock.occurrences_eq_nil_iff.mp hocc] at hhas
      cases hhas
  | discouraged _ hdiscouraged =>
      refine Or.inl ⟨fun hranked => ?_, [⟨.discouragedTag spec.name, .stop⟩], FoundBy.single rfl,
        rfl⟩
      rw [hranked.2.1] at hdiscouraged
      cases hdiscouraged
  | repeated hocc _ hothers hsingle hfirst =>
      refine Or.inl ⟨fun hranked => hranked.2.2 ⟨hfirst, hsingle, ?_⟩,
        [⟨.repeatedFirstTag spec.name, .line _⟩], FoundBy.single rfl, rfl⟩
      rw [hcount, hocc, List.length_cons]
      have hpos := List.length_pos_iff.mpr hothers
      omega
  | checked hocc hdiscouraged hnot =>
      refine Or.inr ⟨⟨DocBlock.has_of_occurrences hocc, hdiscouraged, ?_⟩, _, _, _, hocc, rfl⟩
      rintro ⟨hfirst, hsingle, hmany⟩
      refine hnot ⟨fun hnil => ?_, hsingle, hfirst⟩
      rw [hcount, hocc, hnil] at hmany
      exact absurd hmany (by simp)

/-- What the second pass knows about the order after the tags `done` of the schema. Other than what
it knows of a block that conforms (`TagPass.Reflects`), this holds whatever was found. -/
structure Tracks (doc : DocBlock) (done : List TagSpec) (pass : TagPass) : Prop where
  /-- What was reached is the last position that was passed. -/
  le_reached_iff : ∀ p, 0 < p → (p ≤ pass.reached ↔ doc.Passed done p)
  /-- The tags that are late were reported. -/
  reported : wrongOrders pass.findings = doc.orderFindings [] done

namespace Tracks

/-- Before the first tag. -/
theorem start (doc : DocBlock) : Tracks doc [] {} where
  le_reached_iff := by
    intro p hp
    simp
    omega
  reported := rfl

/-- A tag that does not take part in the order, and is not reported. -/
theorem skip {found : List Finding} (h : Tracks doc done pass) (hnot : ¬ spec.Ranked doc)
    (hnone : doc.orderFinding? done spec = none) (hfound : wrongOrders found = []) :
    Tracks doc (done ++ [spec]) { pass with findings := pass.findings ++ found } where
  le_reached_iff := by
    intro p hp
    rw [DocBlock.passed_append, or_iff_left (DocBlock.not_passed_singleton hnot)]
    exact h.le_reached_iff p hp
  reported := by
    rw [wrongOrders_append, hfound, h.reported, DocBlock.orderFindings_append]
    simp [DocBlock.orderFindings, hnone]

/-- A tag that takes part in the order: it is reported if its first position was passed. -/
theorem check (h : Tracks doc done pass) (hranked : spec.Ranked doc)
    (hocc : doc.occurrences spec.name = (tag, first) :: others) (checked : List DocTag) :
    Tracks doc (done ++ [spec])
      (pass.check schema spec tag first (doc.occurrences spec.name) checked) := by
  have hpos := DocBlock.pos_of_occurrences hocc
  have hfirst : doc.first? spec.name = some (tag, first) := by
    rw [DocBlock.first?_eq_head?, hocc]
    rfl
  refine ⟨?_, ?_⟩
  · intro p hp
    rw [DocBlock.passed_append, DocBlock.passed_singleton_iff hranked hfirst,
      ← h.le_reached_iff p hp]
    -- the number grows to the maximum of both
    exact le_max_iff
  · have hnumber : wrongOrders (numberFindings spec tag first (doc.occurrences spec.name)) =
        [] := by
      apply foundBy_numberFindings.wrongOrders_eq_nil
      simp
    have hcontent : wrongOrders (contentFindings schema checked) = [] := by
      apply foundBy_contentFindings.wrongOrders_eq_nil
      simp
    -- the only place where a problem of order is noted
    have hplace : wrongOrders (placeFindings pass.reached spec tag first) =
        (doc.orderFinding? done spec).toList := by
      unfold placeFindings DocBlock.orderFinding?
      simp only [hfirst, hranked.2.1, ← h.le_reached_iff first hpos]
      rcases spec.placement
      · by_cases hlt : pass.reached < first
        · simp [hlt, wrongOrders]
        · simp [hlt, Nat.le_of_not_lt hlt, wrongOrders, DocProblem.isWrongOrder]
      · simp only [reduceCtorEq, false_and, if_false]
        split_ifs <;> rfl
    rw [findings_check]
    simp only [wrongOrders_append, hnumber, hcontent, hplace, h.reported,
      DocBlock.orderFindings_append]
    simp [DocBlock.orderFindings]

/-- **One tag of the schema more.** -/
theorem step (h : Tracks doc done pass) (spec : TagSpec) :
    Ends True (TagPass.step schema doc pass spec) (Tracks doc (done ++ [spec])) := by
  rcases step_cases schema doc pass spec with
    ⟨hnot, found, hfound, heq⟩ | ⟨hranked, tag, first, others, hocc, heq⟩
  · rw [heq]
    exact Ends.ok
      (h.skip hnot (DocBlock.orderFinding?_eq_none hnot) (hfound.wrongOrders_eq_nil (by simp)))
  · rw [heq]
    exact Ends.ok (h.check hranked hocc _)

/-- **All tags of the schema.** -/
theorem run (h : Tracks doc done pass) (rest : List TagSpec) :
    Ends True (rest.foldlM (TagPass.step schema doc) pass) (Tracks doc (done ++ rest)) :=
  Ends.foldlM_done (fun _ _ spec hpass => hpass.step spec) h rest

end Tracks

/-- The second pass has a result, which tracks the order of all tags of the schema. -/
theorem exists_tracks_run (schema : DocSchema) (doc : DocBlock) :
    ∃ pass, run schema doc = .ok pass ∧ Tracks doc schema.tags pass :=
  ((Tracks.start doc).run schema.tags).exists_of_fits trivial

end TagPass

/-! ### All passes -/

namespace DocSchema

/-- **What a validation reports about the order**, for every block and every schema, if it comes
to the tags. The findings about the order are, in the order of the schema, one for each ordered
tag whose first position was passed by a tag before it, on the line of its first occurrence; that
there is no result is only due to columns of contents that cannot be added up, in the last pass.
A tag that is reported could as well not be in the schema: its own finding is gone then, and
nothing else is changed. -/
theorem wrongOrder_findings (schema : DocSchema) (doc : DocBlock) {found : List Finding}
    (h : schema.descriptionFindings doc = .ok (found, false)) :
    Ends schema.ColumnsFit (schema.findings doc)
      (fun all => wrongOrders all = doc.orderFindings [] schema.tags) ∧
    (∃ pass, TagPass.run schema doc = .ok pass ∧
      wrongOrders pass.findings = doc.orderFindings [] schema.tags) ∧
    ∀ before spec rest finding, schema.tags = before ++ spec :: rest →
      doc.orderFinding? before spec = some finding →
      doc.orderFindings [] schema.tags =
        doc.orderFindings [] before ++ finding :: doc.orderFindings before rest ∧
      ∃ pass, TagPass.run { schema with tags := before ++ rest } doc = .ok pass ∧
        wrongOrders pass.findings = doc.orderFindings [] before ++
          doc.orderFindings before rest := by
  obtain ⟨pass, hrun, htracks⟩ := TagPass.exists_tracks_run schema doc
  refine ⟨?_, ⟨pass, hrun, htracks.reported⟩, ?_⟩
  · -- the other invariant of the pass bounds the names that the last pass subtracts
    have hreflects : TagPass.Reflects schema doc schema.tags pass := by
      have hends : Ends True (TagPass.run schema doc) (TagPass.Reflects schema doc schema.tags) :=
        TagPass.Reflects.start.run schema.tags
      rw [hrun] at hends
      exact hends
    rw [findings, h]
    change Ends _ (TagPass.run schema doc >>= _) _
    rw [hrun]
    refine (ends_wrongOrders_indentation hreflects.bounded hreflects.room).bind
      fun indentation hindentation => Ends.pure ?_
    -- what the first pass and the last one found is not about the order
    rw [wrongOrders_append, wrongOrders_append, wrongOrders_descriptionFindings h, hindentation,
      htracks.reported]
    simp
  · intro before spec rest finding htags hlate
    -- the pass over the shorter schema has the same invariant, so the two reports can be compared
    obtain ⟨pass', hrun', htracks'⟩ :=
      TagPass.exists_tracks_run { schema with tags := before ++ rest } doc
    refine ⟨?_, pass', hrun', ?_⟩
    · rw [htags, DocBlock.orderFindings_append]
      simp [DocBlock.orderFindings, hlate, DocBlock.orderFindings_drop hlate]
    · rw [htracks'.reported, DocBlock.orderFindings_append]
      simp

/-- Tags of which the first one must come first. -/
def rankedTags : DocSchema where
  label := "class"
  tags :=
    [{ name := "var", placement := .first }, { name := "alpha", orderText := "precedes @beta" },
      { name := "beta", orderText := "follows @alpha" }, { name := "delta", discouraged := true },
      { name := "gamma", orderText := "follows @beta" }]
  indentation := .fixed 1

/-- A block in which two tags are swapped, with a repeated tag that should come first
and a discouraged one. -/
def shuffledBlock : DocBlock where
  short := "Holds the settings."
  newlinesBeforeTags := 2
  tags :=
    [{ name := "beta", line := 3 }, { name := "alpha", line := 4 }, { name := "var", line := 5 },
      { name := "gamma", line := 6 }, { name := "delta", line := 7 }, { name := "var", line := 8 }]

/-- One of the swapped tags is reported there, and neither the tag in front of the repeated one nor
the tag in front of the discouraged one. -/
theorem wrongOrder_findings_shuffledBlock :
    rankedTags.descriptionFindings shuffledBlock = .ok ([], false) ∧
      ∃ all, rankedTags.findings shuffledBlock = .ok all ∧
        wrongOrders all = [⟨.wrongOrder "beta" "follows @alpha", .line 3⟩] := by
  have hreach : rankedTags.descriptionFindings shuffledBlock = .ok ([], false) := by decide +kernel
  have hcolumns : rankedTags.ColumnsFit := by rintro padding ⟨⟩
  have hreport : shuffledBlock.orderFindings [] rankedTags.tags =
      [⟨.wrongOrder "beta" "follows @alpha", .line 3⟩] := by decide +kernel
  obtain ⟨all, hall, horder⟩ :=
    (wrongOrder_findings rankedTags shuffledBlock hreach).1.exists_of_fits hcolumns
  exact ⟨hreach, all, hall, horder.trans hreport⟩

end DocSchema

end PhpStyle
