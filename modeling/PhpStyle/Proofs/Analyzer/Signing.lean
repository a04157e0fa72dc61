import PhpStyle.Proofs.Safety.Rules

/-!
# The violations of a rule are its own

Every rule of a preset makes its violations in one way: with its own name and code, at a token of
the unit (`Inspection.SignedBy`). So a violation can be told from those of other rules by its name
(`Preset.signs_of_mem_rules`).

Each rule is followed up to the places where it has a result. What it reads and computes on the way
does not matter (`Yields.after`), only what it reports: nothing, one violation, or one for each
element of a list. The two rules on comments share what they report on a block
(`DocSchema.signed_inspect`).
-/

namespace PhpStyle

open Checked (Yields)

/-- The violations are made by the rule with the given name and code, at places of the unit. -/
def Inspection.SignedBy (id : RuleId) (u : SourceUnit) (found : Inspection) : Prop :=
  ∀ v ∈ found.violations, ∃ i severity message, v = id.violation u i severity message

variable {id : RuleId} {u : SourceUnit} {i start last : Nat}

/-! ### Few findings -/

namespace Inspection.SignedBy

/-- Nothing was found. -/
theorem none {events : List Event} : SignedBy id u { events } := by
  intro v hv
  simp at hv

/-- One violation was found. -/
theorem one {severity : Severity} {message : String} {events : List Event} :
    SignedBy id u { violations := [id.violation u i severity message], events } := by
  intro v hv
  exact ⟨i, severity, message, List.mem_singleton.mp hv⟩

/-- Violations were found, one for each element of a list. -/
theorem map {α : Type} {xs : List α} {index : α → Nat} {severity : α → Severity}
    {message : α → String} {events : List Event} : SignedBy id u
      { violations := xs.map fun a => id.violation u (index a) (severity a) (message a),
        events } := by
  intro v hv
  obtain ⟨a, -, rfl⟩ := List.mem_map.mp hv
  exact ⟨index a, severity a, message a, rfl⟩

end Inspection.SignedBy

open Inspection (SignedBy)

/-! ### Comments -/

/-- The findings on a comment are signed by the rule that asked for them. -/
theorem DocSchema.signed_inspect (schema : DocSchema) :
    Yields (schema.inspect id u start last) (SignedBy id u) := by
  unfold inspect
  split
  · exact Yields.after fun _ => Yields.pure SignedBy.one
  · apply Yields.after
    intro findings
    refine Yields.bind (Yields.mapM fun finding _ => ?_) fun violations hviolations =>
      Yields.pure hviolations
    exact Yields.after fun index => Yields.pure ⟨index, _, _, rfl⟩

/-- The rule on the comment of a file. -/
theorem FileComment.signed_check (schema : DocSchema) :
    Yields (check schema u i) (SignedBy FileComment.id u) := by
  unfold check missing RuleId.oneError
  apply Yields.after
  intro earlier
  split
  · exact Yields.pure SignedBy.none
  apply Yields.after
  intro candidate
  split
  · exact Yields.pure SignedBy.one
  apply Yields.after
  intro t
  split
  · exact Yields.pure SignedBy.none
  · exact Yields.pure SignedBy.one
  · apply Yields.after
    intro last
    apply Yields.after
    intro belongs
    split
    · exact Yields.pure SignedBy.one
    · exact schema.signed_inspect
  · exact Yields.pure SignedBy.one

/-- The rule on the comments of member variables. -/
theorem MemberComment.signed_check (schema : DocSchema) :
    Yields (check schema u i) (SignedBy MemberComment.id u) := by
  rw [check]
  unfold missing RuleId.oneError
  apply Yields.after
  intro member
  split
  · exact Yields.pure SignedBy.none
  apply Yields.after
  intro before
  split
  · exact Yields.pure SignedBy.one
  split
  · exact Yields.pure SignedBy.one
  apply Yields.after
  intro t
  split
  · exact Yields.pure SignedBy.one
  · exact schema.signed_inspect

/-! ### Switches and spaces -/

/-- The rule on switches. -/
theorem SwitchLayout.signed_check (style : SwitchStyle) :
    Yields (check style u i) (SignedBy SwitchLayout.id u) := by
  unfold check
  exact Yields.after fun remarks => Yields.pure SignedBy.map

namespace Spacing

/-- The rule on trailing whitespace. -/
theorem signed_checkTrailing : Yields (checkTrailing u i) (SignedBy trailingId u) := by
  unfold checkTrailing RuleId.oneError
  apply Yields.after
  intro trails
  split
  · exact Yields.pure SignedBy.one
  · exact Yields.pure SignedBy.none

/-- The rule on type casts. -/
theorem signed_checkCast : Yields (checkCast u i) (SignedBy castId u) := by
  unfold checkCast RuleId.oneError
  split
  · exact Yields.pure SignedBy.none
  · exact Yields.pure SignedBy.one

end Spacing

/-! ### Declarations -/

namespace Declaration

/-- The rule on single declarations. -/
theorem signed_checkSingle (exempt : Exemption) :
    Yields (checkSingle exempt u i) (SignedBy singleId u) := by
  unfold checkSingle RuleId.oneError
  apply Yields.after
  intro name
  split
  · exact Yields.pure SignedBy.none
  apply Yields.after
  intro next
  split
  · exact Yields.pure SignedBy.none
  · split
    · exact Yields.pure SignedBy.none
    · exact Yields.pure SignedBy.one

/-- The rule on names. -/
theorem signed_checkCamel : Yields (checkCamel u i) (SignedBy camelId u) := by
  unfold checkCamel
  apply Yields.after
  intro name
  split
  · exact Yields.pure SignedBy.none
  apply Yields.after
  intro t
  apply Yields.after
  intro keyword
  simp only
  split
  · exact Yields.pure SignedBy.none
  · exact Yields.pure SignedBy.one

/-- The rule on file names. -/
theorem signed_checkFileName (exempt : Exemption) :
    Yields (checkFileName exempt u i) (SignedBy fileNameId u) := by
  unfold checkFileName RuleId.oneError
  apply Yields.after
  intro name
  split
  · exact Yields.pure SignedBy.none
  apply Yields.after
  intro t
  simp only
  split
  · exact Yields.pure SignedBy.none
  · exact Yields.after fun keyword => Yields.pure SignedBy.one

end Declaration

/-- The rule on repeated blocks. -/
theorem RepeatedBlock.signed_check : Yields (check u i) (SignedBy RepeatedBlock.id u) := by
  unfold check
  split
  · exact Yields.pure SignedBy.none
  · exact Yields.after fun before => Yields.pure SignedBy.map

/-! ### All rules -/

/-- **The rules of a preset make their own violations**, whatever the options are. -/
theorem Preset.signed_of_mem_rules {p : Preset} {o : RuleOptions} {r : Rule} (h : r ∈ p.rules o) :
    Yields (r.check u i) (SignedBy r.toRuleId u) := by
  obtain ⟨b, -, rfl⟩ := RuleOptions.exists_builtIn h
  cases b with
  | fileComment schema => exact FileComment.signed_check schema
  | memberComment schema => exact MemberComment.signed_check schema
  | switchLayout style => exact SwitchLayout.signed_check style
  | trailing => exact Spacing.signed_checkTrailing
  | cast => exact Spacing.signed_checkCast
  | single exempt => exact Declaration.signed_checkSingle exempt
  | camel => exact Declaration.signed_checkCamel
  | fileName exempt => exact Declaration.signed_checkFileName exempt
  | repeatedBlock => exact RepeatedBlock.signed_check

/-- The rules of a preset sign what they find. -/
theorem Preset.signs_of_mem_rules {p : Preset} {o : RuleOptions} {r : Rule} (h : r ∈ p.rules o) :
    r.Signs := by
  intro u i found hfound v hv
  obtain ⟨j, severity, message, rfl⟩ := signed_of_mem_rules h found hfound v hv
  rfl

end PhpStyle
