import PhpStyle.Proofs.Analyzer.Completion
import PhpStyle.Proofs.Analyzer.Signing
import PhpStyle.Proofs.Lexing
import PhpStyle.Proofs.Text.Lines

/-!
# Violations point into their unit

A violation carries a place: a token, its position, and a number of bytes. Rules compute the index
of the token in many ways, and some of these lead past the end of the unit. Whatever they compute,
the place is that of a token, and the bytes are those of its text without the line end
(`Location.PointsInto`, `Analyzer.inspect_pointsInto`).

So nothing has to be known about the indices. A place is made by `SourceUnit.location`, which takes
the last token for an index past the end, and therefore the place of any index at all points into a
unit that has tokens (`SourceUnit.pointsInto_location`). A unit with a violation has one, since a
violation is part of the answer to a question about a token
(`Analyzer.exists_call_of_mem_violations`), and a rule of a preset makes its violations in no other
way than with such a place.

The bytes that a place covers lie in the text of all tokens put together, between the texts in front
of the token and behind it (`TokenSeq.exists_around`). The line end that is cut off belongs to what
follows.
-/

namespace PhpStyle

variable {pairs : List (Kind × String)} {u : SourceUnit} {i : Nat}

/-! ### Texts without their line ends -/

/-- The text `piece` is what is left of `text` without the carriage returns and
newlines at its end. -/
def WithoutLineEnd (text piece : String) : Prop :=
  ∃ lineEnd : String, text = piece ++ lineEnd ∧ (∀ c ∈ lineEnd.toList, c = '\r' ∨ c = '\n') ∧
    ∀ c ∈ piece.toList.getLast?, c ≠ '\r' ∧ c ≠ '\n'

/-- Cutting the line end leaves what is left without it. -/
theorem withoutLineEnd_dropEndWhile (text : String) : WithoutLineEnd text
    (String.ofList (Text.dropEndWhile (fun c => c == '\r' || c == '\n') text.toList)) := by
  set p : Char → Bool := fun c => c == '\r' || c == '\n'
  rw [Text.dropEndWhile_eq_rdropWhile]
  refine ⟨String.ofList (text.toList.rtakeWhile p), ?_, ?_, ?_⟩
  · rw [← String.ofList_append, List.rdropWhile_append_rtakeWhile, String.ofList_toList]
  · intro c hc
    rw [String.toList_ofList] at hc
    simpa [p] using List.mem_rtakeWhile_imp hc
  · intro c hc
    rw [String.toList_ofList] at hc
    obtain ⟨hne, rfl⟩ := List.mem_getLast?_eq_getLast hc
    simpa [p] using List.rdropWhile_last_not p text.toList hne

/-- The line end belongs to what follows. -/
theorem WithoutLineEnd.exists_rest {text piece : String} (h : WithoutLineEnd text piece)
    (before after : String) : ∃ rest, before ++ text ++ after = before ++ piece ++ rest := by
  obtain ⟨lineEnd, rfl, -⟩ := h
  exact ⟨lineEnd ++ after, by simp only [String.append_assoc]⟩

/-! ### Places -/

namespace Location

/-- A place covers a piece of a text: the bytes in front of it are counted by the offset, and
its own by the length. -/
def Covers (place : Location) (piece whole : String) : Prop :=
  ∃ before after : String, whole = before ++ piece ++ after ∧ place.offset = before.utf8ByteSize ∧
    place.length = piece.utf8ByteSize

/-- A place in a unit: it names the file, and a token of it. It has the position of the token, and
covers the token without the line end in the text that the texts of all tokens make. -/
structure PointsInto (place : Location) (u : SourceUnit) : Prop where
  /-- The file is that of the unit. -/
  file : place.file = u.path
  /-- There is a token with the index. -/
  token : ∃ t, u.tokens.get? place.token = some t ∧ place.toPosition = t.toPosition ∧
    ∃ piece, WithoutLineEnd t.text piece ∧ place.Covers piece (textOfTokens u.tokens.tokens.toList)

end Location

/-- A token of a finished sequence, between the texts in front of it and behind it. -/
theorem TokenSeq.exists_around {t : Token} (ht : (ofPairs pairs).get? i = some t) :
    ∃ before after : String, textOfTokens (ofPairs pairs).tokens.toList =
      before ++ t.text ++ after ∧ t.offset = before.utf8ByteSize :=
  ⟨_, _, textOfTokens_around ht, offset_ofPairs ht⟩

/-- The place of a token points into the unit. -/
theorem Location.pointsInto_ofToken {t : Token} (hu : u.tokens = .ofPairs pairs)
    (ht : u.tokens.get? i = some t) : (Location.ofToken u.path i t).PointsInto u := by
  have hcut := withoutLineEnd_dropEndWhile t.text
  refine ⟨rfl, t, ht, rfl, _, hcut, ?_⟩
  rw [hu] at ht ⊢
  obtain ⟨before, after, hwhole, hoffset⟩ := TokenSeq.exists_around ht
  obtain ⟨rest, hrest⟩ := hcut.exists_rest before after
  exact ⟨before, rest, hwhole.trans hrest, hoffset, rfl⟩

/-- **The place of any index points into a unit that has tokens.** An index past the end is
that of the last token. -/
theorem SourceUnit.pointsInto_location (hu : u.tokens = .ofPairs pairs) (hsize : 0 < u.tokens.size)
    (index : Nat) : (u.location index).PointsInto u := by
  obtain ⟨t, ht⟩ :=
    TokenSeq.exists_get? (s := u.tokens) (i := min index (u.tokens.size - 1)) (by omega)
  unfold location
  simp only [ht]
  exact Location.pointsInto_ofToken hu ht

/-! ### Answers to questions -/

namespace Analyzer

variable {a : Analyzer} {c : Config} {read : PatternReader}

/-- **A violation is part of the answer to a question** about a token of the unit. Only its severity
may not be what the rule said. -/
theorem exists_call_of_mem_violations {found : Inspection} (h : a.inspect u = .ok found)
    {v : Violation} (hv : v ∈ found.violations) :
    ∃ call ∈ a.calls u, ∃ own, call.rule.check u call.index = .ok own ∧
      ∃ w ∈ own.violations, v = { w with severity := v.severity } := by
  rw [inspect_eq] at h
  obtain ⟨answers, hanswers, rfl⟩ := Checked.map_eq_ok_iff.mp h
  obtain ⟨answer, hanswer, hmem⟩ := List.mem_flatMap.mp hv
  obtain ⟨call, hcall, hask⟩ := (Checked.mem_of_mapM hanswers).mp hanswer
  unfold Config.ask at hask
  obtain ⟨own, hown, heq⟩ := Checked.bind_eq_ok_iff.mp hask
  cases heq
  obtain ⟨w, hw, rfl⟩ := List.mem_map.mp hmem
  exact ⟨call, hcall, own, hown, w, hw, rfl⟩

/-- **Every violation points into its unit.** Let a configuration lead to an analyzer, and let a
unit have any path, any tokens that were pushed one after the other, and any reader of comments. The
unit is inspected, unless a sum does not fit in a word. Every violation that is found names the file
and a token of the unit: it has the line, the column and the offset of the token, and covers, in the
texts of all tokens put together, the text of the token without its line end, from one character
boundary to another. It carries the name and the code of a rule of the analyzer that is in force and
listens to the kind of a token of the unit. -/
theorem inspect_pointsInto (h : ofConfig c read = .ok a) (hu : u.tokens = .ofPairs pairs) :
    ((∃ found, a.inspect u = .ok found) ∨ a.inspect u = .error .overflow ∧ ¬ c.Fits u) ∧
    ∀ found, a.inspect u = .ok found → ∀ v ∈ found.violations, v.location.PointsInto u ∧
      ∃ r ∈ a.rules, c.isEnabled r.name = true ∧ v.code = r.code ∧ v.rule = r.name ∧
        ∃ i t, u.tokens.get? i = some t ∧ t.kind ∈ r.triggers := by
  refine ⟨(ends_inspect h ⟨pairs, hu⟩).result_or_overflow, ?_⟩
  intro found hfound v hv
  obtain ⟨p, o, hchooses, rfl⟩ := exists_chooses h
  obtain ⟨call, hcall, own, hown, w, hw, hvw⟩ := exists_call_of_mem_violations hfound hv
  obtain ⟨htoken, hindex, hlistens⟩ := SourceUnit.mem_calls hcall
  obtain ⟨hmem, hon, htriggers⟩ := mem_listening_ofRules.mp hlistens
  obtain ⟨j, severity, message, rfl⟩ := Preset.signed_of_mem_rules hmem own hown w hw
  rw [hvw]
  refine ⟨SourceUnit.pointsInto_location hu (by omega) j, call.rule, hmem, hon, rfl, rfl, ?_⟩
  exact ⟨call.index, call.token, htoken, htriggers⟩

/-- A configuration that makes warnings of what is wrong with the comment of a file. -/
def mildConfig : Config where
  rules := [("file-comment", { severity := some .warning })]

/-- A comment with a space at the end of its second line, which has a carriage return. The reader
gives up on a line that the comment does not have. -/
def spacedUnit : SourceUnit where
  path := "spaced.php"
  tokens := .ofPairs [(.openTag, "<?php\n"), (.docComment, "/** é\n"), (.docComment, " * b \r\n"),
    (.docComment, " */")]
  comments := fun _ => .error { message := "no block", line := 7 }

/-- What the rules that a configuration leads to find in the unit, and at which bytes of which
token. -/
def spacedAudit : Except ConfigError (Checked (List (String × Nat × Nat × Nat))) := do
  let a ← ofConfig mildConfig
  return (fun found => found.violations.map fun v =>
    (v.rule, v.location.token, v.location.offset, v.location.length)) <$> a.inspect spacedUnit

/-- The line that the comment does not have counts as its last one, and the line end is not
covered. -/
theorem inspect_pointsInto_spaced :
    ∃ a found, ofConfig mildConfig = .ok a ∧ a.inspect spacedUnit = .ok found ∧
      (found.violations.map fun v =>
        (v.rule, v.location.token, v.location.offset, v.location.length)) =
        [("file-comment", 3, 20, 3), ("trailing-whitespace", 2, 13, 5)] ∧
      ∀ v ∈ found.violations, v.location.PointsInto spacedUnit := by
  have haudit : spacedAudit =
      .ok (.ok [("file-comment", 3, 20, 3), ("trailing-whitespace", 2, 13, 5)]) := by
    decide +kernel
  unfold spacedAudit at haudit
  rcases hconfig : ofConfig mildConfig with e | a
  · rw [hconfig] at haudit
    cases haudit
  · rw [hconfig] at haudit
    obtain ⟨found, hfound, heq⟩ := Checked.map_eq_ok_iff.mp (Except.ok.inj haudit)
    have hpoints := (inspect_pointsInto hconfig rfl).2 found hfound
    exact ⟨a, found, rfl, hfound, heq, fun v hv => (hpoints v hv).1⟩

end Analyzer

end PhpStyle
