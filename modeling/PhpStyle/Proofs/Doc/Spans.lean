import PhpStyle.Proofs.Doc.Columns
import PhpStyle.Rule.FileComment

/-!
# Findings stay inside their comment

The lines of findings come from a reader that may give any numbers at all. They are cut off at the
last token of the comment, but only after they were added to the index of its first token, and lines
in front of the tags are added up before that. So there are two things to say: where the violations
are, if there is a result, and exactly when there is none. `DocSchema.inspect_within` says both.

Sums are taken only on the way that a validation goes. If it ends with the descriptions, no
distances are compared, and the names may be as long as they like. `DocSchema.SumsFit` therefore has
the lines of the descriptions, and the distances under the condition that the tags are reached. That
the first pass goes on exactly under this condition is seen from what it can do
(`Described.final_iff`), and with it `DocSchema.ends_findings_exact` follows the passes: each of
them has a result exactly if its own sums fit, and the sums of all are those of the passes that are
made.

For a comment there are the sums of its lines with the index of its first token besides
(`DocSchema.SpanFits`). `DocSchema.ends_inspect_exact` adds them, for a comment that can be read and
for one that cannot, and says what is reported in each case. A line that was added is cut off at the
last token, so it is a token of the comment (`Place.mem_within`).
-/

namespace PhpStyle

/-! ### The sums of a validation -/

namespace DocSchema

/-- The distances of the contents that are compared can be added up. -/
def DistancesFit (schema : DocSchema) (doc : DocBlock) : Prop :=
  schema.ReachesTags doc → ∀ tag ∈ doc.columnTags schema.tags,
    schema.indentation.Fits (doc.longestRanked schema.tags) tag.name.utf8ByteSize

/-- The sums of a validation fit in a word. -/
structure SumsFit (schema : DocSchema) (doc : DocBlock) : Prop where
  /-- The lines of the descriptions. -/
  lines : schema.LinesFit doc
  /-- The distances of the contents. -/
  distances : schema.DistancesFit doc

/-- The sums that are taken for a comment whose first token is `start` fit in a word: the line of
what the reader could not read, or the sums of the validation and the lines of its findings. -/
def SpanFits (schema : DocSchema) (start : Nat) : Except CommentError DocBlock → Prop
  | .error e => start + e.line ≤ maxWord
  | .ok doc => schema.SumsFit doc ∧
      ∀ all, schema.findings doc = .ok all → ∀ finding ∈ all, finding.place.Fits start

end DocSchema

variable {schema : DocSchema} {doc : DocBlock} {start last : Nat}

namespace DocSchema

/-- The first pass ends the validation exactly if that does not reach the tags. -/
theorem Described.final_iff {found : List Finding × Bool} (h : schema.Described doc found) :
    found.2 = false ↔ schema.ReachesTags doc := by
  cases h with
  | empty hempty =>
      refine iff_of_false (by simp) fun hreaches => ?_
      rw [hreaches.1.1] at hempty
      cases hempty
  | noShort _ hsingle hblank =>
      exact iff_of_false (by simp) fun hreaches => hreaches.1.2 ⟨hsingle, hblank⟩
  | refused _ hfind =>
      obtain ⟨hmem, hrefused⟩ := refused_of_find? hfind
      refine iff_of_false (by simp) fun hreaches => ?_
      rw [hreaches.2 _ hmem] at hrefused
      cases hrefused
  | through hreaches => exact iff_of_true rfl hreaches

/-! ### All passes -/

/-- **A validation has a result exactly if its sums fit**, and meets no other fault. -/
theorem ends_findings_exact (schema : DocSchema) (doc : DocBlock) :
    Ends (schema.SumsFit doc) (schema.findings doc) fun _ => schema.SumsFit doc := by
  obtain ⟨pass, hrun, hmeasured⟩ := TagPass.exists_measured_run schema doc
  unfold findings
  refine ((schema.ends_describes doc).weaken SumsFit.lines).bind ?_
  rintro ⟨found, final⟩ ⟨hlines, hdescribed⟩
  have hfinal := hdescribed.final_iff
  cases final with
  | true =>
      apply Ends.pure
      refine ⟨hlines, fun hreaches => ?_⟩
      cases hfinal.mpr hreaches
  | false =>
      have hreaches := hfinal.mp rfl
      show Ends _ (TagPass.run schema doc >>= _) _
      rw [hrun]
      show Ends _ (pass.indented.mapM (schema.indentationFinding pass.longest) >>= _) _
      rw [hmeasured.longest_eq, hmeasured.indented_eq]
      refine ((schema.ends_distances doc schema.tags).weaken fun hfits => ?_).bind ?_
      · exact hfits.distances hreaches
      · rintro indentation ⟨hfits, -⟩
        exact Ends.pure ⟨hlines, fun _ => hfits⟩

end DocSchema

/-! ### Places in a span -/

/-- The token of a place in the comment that covers `start` to `last`. Lines past the end
count as the last one. -/
def Place.within (start last : Nat) : Place → Nat
  | .start => start
  | .line number => min (start + number) last
  | .stop => last

/-- A place in a comment is one of its tokens. -/
theorem Place.mem_within (h : start ≤ last) (place : Place) :
    start ≤ place.within start last ∧ place.within start last ≤ last := by
  cases place with
  | start => exact ⟨le_rfl, h⟩
  | line number => exact ⟨le_min (Nat.le_add_right _ _) h, min_le_right _ _⟩
  | stop => exact ⟨h, le_rfl⟩

/-- A line has a token exactly if it can be added to the first one. -/
theorem ends_lineToken_exact {line : Nat} :
    Ends (start + line ≤ maxWord) (lineToken start last line) fun index =>
      start + line ≤ maxWord ∧ index = min (start + line) last := by
  unfold lineToken
  refine ends_plus_exact.bind ?_
  rintro index ⟨hfits, rfl⟩
  exact Ends.pure ⟨hfits, rfl⟩

/-- A place has a token exactly if its line can be added to the first one. -/
theorem Place.ends_token_exact (place : Place) :
    Ends (place.Fits start) (place.token start last) fun index =>
      place.Fits start ∧ index = place.within start last := by
  cases place with
  | start => exact Ends.ok ⟨trivial, rfl⟩
  | line number => exact ends_lineToken_exact
  | stop => exact Ends.ok ⟨trivial, rfl⟩

namespace DocSchema

/-- What is reported about a comment, if `all` was found in it: each finding at the
token of its place. -/
def spanViolations (schema : DocSchema) (id : RuleId) (u : SourceUnit) (start last : Nat)
    (all : List Finding) : List Violation :=
  all.map fun finding =>
    id.violation u (finding.place.within start last) finding.problem.severity
      (finding.problem.message schema)

/-- The findings have their tokens exactly if all their lines can be added to the first one. -/
theorem ends_spanViolations (schema : DocSchema) (id : RuleId) (u : SourceUnit)
    (all : List Finding) : Ends (∀ finding ∈ all, finding.place.Fits start)
      (all.mapM fun finding => do
        let index ← finding.place.token start last
        return id.violation u index finding.problem.severity (finding.problem.message schema))
      fun violations => (∀ finding ∈ all, finding.place.Fits start) ∧
        violations = schema.spanViolations id u start last all := by
  apply Ends.mapM_exact
  intro finding _
  refine finding.place.ends_token_exact.bind ?_
  rintro index ⟨hfits, rfl⟩
  exact Ends.pure ⟨hfits, rfl⟩

/-- What is reported about a comment, by what its reader made of it: one error if it could not be
read. -/
def Reports (schema : DocSchema) (id : RuleId) (u : SourceUnit) (start last : Nat)
    (violations : List Violation) : Except CommentError DocBlock → Prop
  | .error e => violations = [id.violation u (min (start + e.line) last) .error e.message]
  | .ok doc => ∃ all, schema.findings doc = .ok all ∧
      violations = schema.spanViolations id u start last all

/-- **A comment is inspected exactly if the sums fit.** -/
theorem ends_inspect_exact (schema : DocSchema) (id : RuleId) (u : SourceUnit) (start last : Nat) :
    let read := u.comments (u.tokens.textOf start last)
    Ends (schema.SpanFits start read) (schema.inspect id u start last) fun found =>
      schema.SpanFits start read ∧ schema.Reports id u start last found.violations read := by
  intro read
  unfold inspect
  show Ends _ (match read with | .error e => _ | .ok doc => _) _
  cases read with
  | error e =>
      refine ends_lineToken_exact.bind ?_
      rintro index ⟨hfits, rfl⟩
      exact Ends.pure ⟨hfits, rfl⟩
  | ok doc =>
      refine ((schema.ends_findings_exact doc).eq_ok.weaken And.left).bind ?_
      rintro all ⟨hsums, hall⟩
      refine ((schema.ends_spanViolations id u all).weaken fun hfits => hfits.2 all hall).bind ?_
      rintro violations ⟨hplaces, rfl⟩
      refine Ends.pure ⟨⟨hsums, fun all' hall' => ?_⟩, all, hall, rfl⟩
      rw [hall, Except.ok.injEq] at hall'
      rwa [← hall']

/-! ### The violations of a comment -/

/-- **Violations stay inside their comment**, for every schema, every rule and every reader. If
there is a result, each violation is at a token of the comment, a comment that cannot be read is one
error on its line, and another one is reported finding by finding. There is a result exactly if the
sums on the way fit in a word; otherwise the only fault is an overflow. -/
theorem inspect_within (schema : DocSchema) (id : RuleId) (u : SourceUnit) (start last : Nat)
    (hspan : start ≤ last) (hlast : last < u.tokens.size) :
    let read := u.comments (u.tokens.textOf start last)
    (schema.SpanFits start read → ∃ found, schema.inspect id u start last = .ok found) ∧
    (¬ schema.SpanFits start read → schema.inspect id u start last = .error .overflow) ∧
    ∀ found, schema.inspect id u start last = .ok found →
      (∀ v ∈ found.violations, start ≤ v.location.token ∧ v.location.token ≤ last) ∧
      (∀ e, read = .error e → ∃ v, found.violations = [v] ∧ v.severity = .error ∧
        v.message = e.message ∧ v.location.token = min (start + e.line) last) ∧
      ∀ doc, read = .ok doc → ∃ all, schema.findings doc = .ok all ∧
        found.violations = schema.spanViolations id u start last all := by
  intro read
  -- all three parts are about the same result, or the same overflow
  have hends : Ends (schema.SpanFits start read) (schema.inspect id u start last) _ :=
    schema.ends_inspect_exact id u start last
  -- a violation is at the token that it was made for, as there is one
  have htoken : ∀ index severity message, index ≤ last →
      (id.violation u index severity message).location.token = index :=
    fun index _ _ hindex => SourceUnit.location_token (hindex.trans_lt hlast)
  refine ⟨fun hfits => ?_, fun hover => ?_, fun found hfound => ?_⟩
  · obtain ⟨found, hfound, -⟩ := hends.exists_of_fits hfits
    exact ⟨found, hfound⟩
  · rcases hends.result_or_overflow with ⟨found, hfound⟩ | ⟨heq, -⟩
    · rw [hfound] at hends
      exact absurd hends.1 hover
    · exact heq
  rw [hfound] at hends
  have hreports : schema.Reports id u start last found.violations read := hends.2
  refine ⟨fun v hv => ?_, fun e he => ?_, fun doc hdoc => ?_⟩
  · cases hread : read with
    | error e =>
        rw [hread] at hreports
        rw [hreports, List.mem_singleton] at hv
        rw [hv, htoken _ _ _ (min_le_right _ _)]
        exact Place.mem_within hspan (.line e.line)
    | ok doc =>
        rw [hread] at hreports
        obtain ⟨all, -, heq⟩ := hreports
        rw [heq, spanViolations, List.mem_map] at hv
        obtain ⟨finding, -, rfl⟩ := hv
        have hmem := finding.place.mem_within hspan
        rw [htoken _ _ _ hmem.2]
        exact hmem
  · rw [he] at hreports
    exact ⟨_, hreports, rfl, rfl, htoken _ _ _ (min_le_right _ _)⟩
  · rw [hdoc] at hreports
    exact hreports

/-- A file with one comment, which is read in the given way. -/
def commentUnit (comments : CommentReader) : SourceUnit where
  path := "Foo.php"
  tokens := .ofPairs [(.openTag, "<?php\n"), (.docComment, "/** */")]
  comments

/-- The largest line that can be added to the first token of the comment counts as its last line. -/
theorem inspect_within_commentUnit :
    let u := commentUnit fun _ => .error ⟨"unreadable", maxWord - 1⟩
    1 < u.tokens.size ∧ ∃ found, DocSchema.file.inspect FileComment.id u 1 1 = .ok found ∧
      ∃ v, found.violations = [v] ∧ v.location.token = 1 := by
  intro u
  have hsize : 1 < u.tokens.size := by decide
  obtain ⟨hresult, -, hviolations⟩ :=
    inspect_within DocSchema.file FileComment.id u 1 1 le_rfl hsize
  obtain ⟨found, hfound⟩ := hresult (by decide : 1 + (maxWord - 1) ≤ maxWord)
  obtain ⟨v, hv, -, -, htoken⟩ := (hviolations found hfound).2.1 _ rfl
  exact ⟨hsize, found, hfound, v, hv, htoken⟩

/-- The next line cannot be added, and there is no result; nor is there one for a block in which so
many newlines separate the descriptions. -/
theorem inspect_overflow_commentUnit :
    FileComment.check DocSchema.file (commentUnit fun _ => .error ⟨"unreadable", maxWord⟩) 0 =
        .error .overflow ∧
      FileComment.check DocSchema.file
          (commentUnit fun _ => .ok { short := "A.", long := "B.", newlinesBetween := maxWord }) 0 =
        .error .overflow := by
  decide +kernel

end DocSchema

end PhpStyle
