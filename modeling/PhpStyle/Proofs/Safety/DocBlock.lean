import PhpStyle.Doc.Span
import PhpStyle.Proofs.Doc.Course

/-!
# Validating a documentation block meets no fault

What the three passes over a block do is known (`DocSchema.Described`, `TagPass.Step`,
`DocSchema.distanceFinding?`), and so is when they have a result. Two things remain. The distance
from the longest name must not be negative, and it is not: a tag is kept for the third pass only
behind a step that made its name count for the longest one. `TagPass.Sound` says this of the second
pass, and is kept by each step (`TagPass.Sound.step`), whichever of the five it is.

The other thing are sums of the numbers that a reader or a schema gives. `DocSchema.Fits` says that
these fit in a word: the lines of the descriptions, the columns, and the line of each finding with
the index of a token (`Placed`), which is what reporting it takes.
-/

namespace PhpStyle

variable {fits : Prop} {n start last : Nat} {schema : DocSchema} {doc : DocBlock}

/-! ### Sums that fit -/

/-- The lines of a block in a text of `n` tokens can be added up. -/
structure DocBlock.Fits (n : Nat) (doc : DocBlock) : Prop where
  /-- The lines of the descriptions. -/
  lines : n + (Text.newlines doc.short + doc.newlinesBetween + Text.newlines doc.long + 2) ≤ maxWord
  /-- The lines of the tags. -/
  tags : ∀ tag ∈ doc.tags, n + tag.line ≤ maxWord

/-- The columns of aligned contents can be added up. -/
def DocSchema.ColumnsFit (schema : DocSchema) : Prop :=
  ∀ padding, schema.indentation = .aligned padding →
    padding ≤ maxWord ∧ ∀ spec ∈ schema.tags, spec.name.utf8ByteSize + padding ≤ maxWord

/-- The sums of a validation against a schema fit in a word. -/
structure DocSchema.Fits (schema : DocSchema) (u : SourceUnit) : Prop where
  /-- The columns of aligned contents. -/
  columns : schema.ColumnsFit
  /-- The lines of the comments that cannot be read. -/
  unread : ∀ text e, u.comments text = .error e → u.tokens.size + e.line ≤ maxWord
  /-- The lines of the blocks. -/
  blocks : ∀ text doc, u.comments text = .ok doc → doc.Fits u.tokens.size

/-- The line of a place can be added to the index of a token. -/
def Place.Fits (n : Nat) : Place → Prop
  | .line number => n + number ≤ maxWord
  | _ => True

/-- The places of findings can be added to the index of a token, if sums fit. -/
def Placed (fits : Prop) (n : Nat) (found : List Finding) : Prop :=
  fits → ∀ finding ∈ found, finding.place.Fits n

namespace Placed

variable {found further : List Finding} {finding : Finding}

/-- No finding has no place. -/
theorem nil : Placed fits n [] := fun _ _ h => by cases h

/-- One finding. -/
theorem single (h : fits → finding.place.Fits n) : Placed fits n [finding] := by
  intro hfits other hmem
  rw [List.mem_singleton.mp hmem]
  exact h hfits

/-- Findings after each other. -/
theorem append (h : Placed fits n found) (h' : Placed fits n further) :
    Placed fits n (found ++ further) := by
  intro hfits other hmem
  rcases List.mem_append.mp hmem with hmem | hmem
  · exact h hfits other hmem
  · exact h' hfits other hmem

/-- Findings that are there or not. -/
theorem ite {c : Prop} [Decidable c] (h : c → Placed fits n found)
    (h' : ¬ c → Placed fits n further) : Placed fits n (if c then found else further) := by
  split
  · next hc => exact h hc
  · next hc => exact h' hc

/-- Findings at the lines of tags. -/
theorem filterMap {α : Type} {f : α → Option Finding} {xs : List α}
    (h : fits → ∀ a ∈ xs, ∀ finding, f a = some finding → finding.place.Fits n) :
    Placed fits n (xs.filterMap f) := by
  intro hfits other hmem
  obtain ⟨a, ha, hf⟩ := List.mem_filterMap.mp hmem
  exact h hfits a ha other hf

end Placed

/-! ### Descriptions -/

/-- The lines of the descriptions can be added up. -/
theorem DocBlock.Fits.linesFit (h : doc.Fits n) : schema.LinesFit doc := by
  intro _ _
  have hlines := h.lines
  unfold DocBlock.shortLines
  omega

/-- What is found on the lines of the descriptions. -/
theorem DocSchema.placed_lineFindings (h : fits → doc.Fits n) :
    Placed fits n (schema.lineFindings doc) := by
  -- no line in front of the tags is behind the last one of the descriptions and the line below it
  have hplace : ∀ problem number, number ≤ doc.shortLines + doc.newlinesBetween +
      Text.newlines doc.long + 1 → Placed fits n [⟨problem, .line number⟩] := by
    intro problem number hnumber
    refine Placed.single fun hfits => ?_
    have hlines := (h hfits).lines
    unfold DocBlock.shortLines at hnumber
    simp only [Place.Fits]
    omega
  have hlead : Placed fits n doc.leadFindings :=
    Placed.ite (fun _ => Placed.nil) fun _ => hplace _ _ (by omega)
  have hbetween : Placed fits n doc.betweenFindings :=
    Placed.ite (fun _ => Placed.nil) fun _ => hplace _ _ (by omega)
  have hgap : Placed fits n doc.gapFindings := by
    refine Placed.ite (fun _ => hplace _ _ ?_) fun _ => Placed.nil
    unfold DocBlock.gapLine
    split <;> omega
  have hseveral : Placed fits n doc.severalFindings := by
    refine Placed.ite (fun _ => hplace _ _ ?_) fun _ => Placed.nil
    unfold DocBlock.shortLines
    omega
  exact ((hlead.append hbetween).append hgap).append
    (Placed.ite (fun _ => hseveral) fun _ => Placed.nil)

/-- The pass over the descriptions. -/
theorem DocSchema.ends_descriptionFindings (h : fits → doc.Fits n) :
    Ends fits (schema.descriptionFindings doc) fun found => Placed fits n found.1 := by
  refine ((schema.ends_describes doc).weaken fun hfits => (h hfits).linesFit).mono ?_
  rintro found ⟨-, hfound⟩
  cases hfound with
  | empty => exact Placed.single fun _ => trivial
  | noShort => exact Placed.single fun _ => trivial
  | refused _ hfind =>
      have hmem := (refused_of_find? hfind).1
      exact (placed_lineFindings h).append (Placed.single fun hfits => (h hfits).tags _ hmem)
  | through => exact placed_lineFindings h

/-! ### Tags -/

/-- A tag that is found by its name is a tag of the block with that name. -/
theorem DocBlock.mem_occurrences {name : String} {entry : DocTag × Nat}
    (h : entry ∈ doc.occurrences name) : entry.1 ∈ doc.tags ∧ entry.1.name = name := by
  obtain ⟨hmem, hname⟩ := List.mem_filter.mp h
  exact ⟨List.fst_mem_of_mem_zipIdx hmem, by simpa using hname⟩

namespace TagPass

/-- What the pass over the tags keeps: its findings have a place, the longest name leaves room for
the padding, and no tag whose indentation is to be checked has a longer name. -/
structure Sound (fits : Prop) (n : Nat) (schema : DocSchema) (pass : TagPass) : Prop where
  /-- The findings have a place. -/
  placed : Placed fits n pass.findings
  /-- The longest name leaves room for the padding. -/
  room : fits → ∀ padding, schema.indentation = .aligned padding →
    pass.longest + padding ≤ maxWord
  /-- The tags to be checked have names that are not longer, and a place. -/
  indented : ∀ tag ∈ pass.indented,
    tag.name.utf8ByteSize ≤ pass.longest ∧ (fits → n + tag.line ≤ maxWord)

variable {pass : TagPass} {spec : TagSpec}

/-- A finding more. -/
theorem Sound.note {finding : Finding} (hpass : pass.Sound fits n schema)
    (h : fits → finding.place.Fits n) : (pass.note finding).Sound fits n schema :=
  ⟨hpass.placed.append (Placed.single h), hpass.room, hpass.indented⟩

/-- Occurrences that are looked at keep the pass sound. -/
theorem Sound.check {tag : DocTag} {first : Nat} {occurrences : List (DocTag × Nat)}
    {checked : List DocTag} (hpass : pass.Sound fits n schema) (hspec : spec ∈ schema.tags)
    (hcolumns : fits → schema.ColumnsFit)
    (hline : fits → n + tag.line ≤ maxWord)
    (hoccurrences : fits → ∀ entry ∈ occurrences, n + entry.1.line ≤ maxWord)
    (hchecked : ∀ tag ∈ checked, tag.name = spec.name ∧ (fits → n + tag.line ≤ maxWord)) :
    Sound fits n schema (pass.check schema spec tag first occurrences checked) := by
  have hscattered : Placed fits n (scattered spec first occurrences) := by
    refine Placed.filterMap fun hfits ⟨entry, expected⟩ hentry finding hfinding => ?_
    simp only at hfinding
    split at hfinding
    · cases hfinding
    · cases hfinding
      exact hoccurrences hfits _ (List.fst_mem_of_mem_zipIdx hentry)
  have hnumber : Placed fits n (numberFindings spec tag first occurrences) :=
    Placed.ite (fun _ => Placed.nil) fun _ =>
      Placed.ite (fun _ => hscattered) fun _ => Placed.single hline
  have hplace : Placed fits n (placeFindings pass.reached spec tag first) := by
    unfold placeFindings
    split
    · exact Placed.ite (fun _ => Placed.nil) fun _ => Placed.single hline
    · exact Placed.ite (fun _ => Placed.nil) fun _ => Placed.single hline
  have hcontent : Placed fits n (contentFindings schema checked) := by
    refine Placed.filterMap fun hfits tag htag finding hfinding => ?_
    obtain ⟨problem, -, rfl⟩ := Option.map_eq_some_iff.mp hfinding
    exact (hchecked tag htag).2 hfits
  refine ⟨((hpass.placed.append hnumber).append hplace).append hcontent, ?_, ?_⟩
  · -- the longest name was the longest one before, or it is that of the tag
    intro hfits padding hpadding
    have hold := hpass.room hfits padding hpadding
    have hnew := (hcolumns hfits padding hpadding).2 spec hspec
    simp only [TagPass.check]
    omega
  · intro tag htag
    simp only [TagPass.check]
    rcases List.mem_append.mp htag with htag | htag
    · obtain ⟨hlength, hplace⟩ := hpass.indented tag htag
      exact ⟨by omega, hplace⟩
    · -- a tag that is kept now has the name that was compared with the longest one
      obtain ⟨hname, hplace⟩ := hchecked tag (List.mem_filter.mp htag).1
      rw [hname]
      exact ⟨by omega, hplace⟩

/-- One tag of the schema. -/
theorem Sound.step {next : TagPass} (hpass : pass.Sound fits n schema) (h : fits → doc.Fits n)
    (hcolumns : fits → schema.ColumnsFit) (hspec : spec ∈ schema.tags)
    (hstep : Step schema doc pass spec next) : next.Sound fits n schema := by
  have hline : ∀ entry ∈ doc.occurrences spec.name, fits → n + entry.1.line ≤ maxWord :=
    fun entry hentry hfits => (h hfits).tags _ (DocBlock.mem_occurrences hentry).1
  have hfirst : ∀ tag first others, doc.occurrences spec.name = (tag, first) :: others →
      fits → n + tag.line ≤ maxWord :=
    fun tag first others hocc => hline (tag, first) (hocc ▸ List.mem_cons_self)
  cases hstep with
  | absent => exact hpass
  | missing => exact hpass.note fun _ => trivial
  | discouraged => exact hpass.note fun _ => trivial
  | repeated hocc => exact hpass.note (hfirst _ _ _ hocc)
  | checked hocc =>
      refine hpass.check hspec hcolumns (hfirst _ _ _ hocc) ?_ ?_
      · exact fun hfits entry hentry => hline entry hentry hfits
      · intro tag htag
        obtain ⟨entry, hentry, rfl⟩ := List.mem_map.mp htag
        have hmem := List.mem_of_mem_take hentry
        exact ⟨(DocBlock.mem_occurrences hmem).2, hline entry hmem⟩

/-- All tags of the schema. -/
theorem ends_run (h : fits → doc.Fits n) (hcolumns : fits → schema.ColumnsFit) :
    Ends fits (run schema doc) (Sound fits n schema) := by
  refine Ends.foldlM ⟨Placed.nil, ?_, fun tag htag => by cases htag⟩ ?_
  · intro hfits padding hpadding
    have := (hcolumns hfits padding hpadding).1
    simp only
    omega
  · intro pass hpass spec hspec
    exact ends_step_of fun next hstep => hpass.step h hcolumns hspec hstep

end TagPass

/-! ### All passes -/

/-- The indentation of a tag whose name is not longer than the longest one. -/
theorem DocSchema.ends_indentationFinding {longest : Nat} {tag : DocTag}
    (hlength : tag.name.utf8ByteSize ≤ longest)
    (hroom : fits → ∀ padding, schema.indentation = .aligned padding → longest + padding ≤ maxWord)
    (hline : fits → n + tag.line ≤ maxWord) :
    Ends fits (schema.indentationFinding longest tag) fun finding? =>
      fits → ∀ finding, finding? = some finding → finding.place.Fits n := by
  refine ((ends_distance hlength).weaken fun hfits => indentation_fits (hroom hfits) _).mono ?_
  rintro finding? ⟨-, rfl⟩ hfits finding hfinding
  rw [(distanceFinding?_eq_some hfinding).1]
  exact hline hfits

/-- Everything that is wrong with a block is found without a fault, and has a place. -/
theorem DocSchema.ends_findings (h : fits → doc.Fits n) (hcolumns : fits → schema.ColumnsFit) :
    Ends fits (schema.findings doc) (Placed fits n) := by
  rw [findings]
  refine (schema.ends_descriptionFindings h).bind fun ⟨found, final⟩ hfound => ?_
  simp only
  split
  · exact Ends.pure hfound
  refine (TagPass.ends_run h hcolumns).bind fun pass hpass => ?_
  refine (Ends.mapM fun tag htag => ends_indentationFinding (hpass.indented tag htag).1
    hpass.room (hpass.indented tag htag).2).bind fun indentation hindentation => ?_
  refine Ends.pure ((hfound.append hpass.placed).append ?_)
  exact Placed.filterMap fun hfits finding? hmem finding heq =>
    hindentation finding? hmem hfits finding heq

/-! ### Comments in a token sequence -/

/-- A line of a comment is counted from its first token. -/
theorem ends_lineToken {line : Nat} (h : fits → start + line ≤ maxWord) :
    Ends fits (lineToken start last line) fun _ => True :=
  (ends_plus h).bind fun _ _ => Ends.pure trivial

/-- A place of a comment is counted from its first token. -/
theorem Place.ends_token {place : Place} (hstart : start ≤ n) (h : fits → place.Fits n) :
    Ends fits (place.token start last) fun _ => True := by
  cases place with
  | start => exact Ends.ok trivial
  | line number =>
      refine ends_lineToken fun hfits => ?_
      have := h hfits
      simp only [Place.Fits] at this
      omega
  | stop => exact Ends.ok trivial

/-- **A comment is inspected without a fault**, whatever its reader makes of it, unless a sum does
not fit. -/
theorem DocSchema.ends_inspect {id : RuleId} {u : SourceUnit} (hstart : start ≤ u.tokens.size) :
    Ends (schema.Fits u) (schema.inspect id u start last) fun _ => True := by
  rw [inspect]
  split
  · next e he =>
      refine (ends_lineToken fun hfits => ?_).bind fun _ _ => Ends.pure trivial
      have := hfits.unread _ _ he
      omega
  · next doc hdoc =>
      refine (schema.ends_findings (fun hfits => hfits.blocks _ _ hdoc)
        fun hfits => hfits.columns).bind fun found hfound => ?_
      refine (Ends.mapM (R := fun _ => True) fun finding hfinding => ?_).bind
        fun _ _ => Ends.pure trivial
      exact (Place.ends_token hstart fun hfits => hfound hfits finding hfinding).bind
        fun _ _ => Ends.pure trivial

end PhpStyle
