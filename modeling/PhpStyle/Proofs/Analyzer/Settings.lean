import PhpStyle.Proofs.Analyzer.Dispatch

/-!
# What a configuration changes

Rules are switched off when the table is filled, and severities are replaced after a rule was
asked, both by the name of the rule. Here the two are one change to what is found under the
default configuration (`Config.settle`): the violations of some rules are dropped, and others get
another severity (`Analyzer.inspect_ofRules_settled`). This needs that violations carry the name of
their rule (`Rule.Signs`), since the change goes by that name.

What is asked under a configuration is part of what is asked without
(`Analyzer.calls_ofRules_eq_filter`): the questions to the rules in force, in the same order. The
answers to these are settled one by one (`Config.exists_ask_settled`), and of the answers to the
others nothing is left (`Config.settle_ask_eq_nil`). Put together, this is
`Checked.exists_mapM_filter`.

The converse is not true. A rule that is switched off may have a fault, and then there is a result
under the configuration but none under the default one.
-/

namespace PhpStyle

variable {rules : List Rule} {c : Config} {u : SourceUnit} {call : Call} {answer : Inspection}

namespace Config

/-- What a configuration makes of a violation: nothing if the section of its rule says that the rule
is not in force, and otherwise the violation with the severity of that section, if it has one. -/
def settle? (c : Config) (v : Violation) : Option Violation :=
  if (c.rule? v.rule).bind (·.enabled) = some false then none
  else some { v with severity := ((c.rule? v.rule).bind (·.severity)).getD v.severity }

/-- What a configuration makes of violations. -/
def settle (c : Config) (found : List Violation) : List Violation := found.filterMap c.settle?

/-- A rule is switched off exactly if its section says so. -/
theorem isEnabled_eq_false_iff (c : Config) (name : String) :
    c.isEnabled name = false ↔ (c.rule? name).bind (·.enabled) = some false := by
  unfold isEnabled
  rcases (c.rule? name).bind (·.enabled) with _ | enabled <;> simp

/-- The default configuration changes no severity. -/
theorem override_default (r : Rule) (found : List Violation) :
    ({} : Config).override r found = found := by
  unfold override
  exact List.map_id' found

/-- The violations of a rule in force get its severity. -/
theorem settle_eq_override {r : Rule} {found : List Violation} (h : c.isEnabled r.name = true)
    (hsigned : ∀ v ∈ found, v.rule = r.name) : c.settle found = c.override r found := by
  have hon : (c.rule? r.name).bind (·.enabled) ≠ some false := by
    rw [Ne, ← isEnabled_eq_false_iff, h]
    simp
  unfold settle override
  rw [← List.filterMap_eq_map]
  apply List.filterMap_congr
  intro v hv
  unfold settle? severityOf
  simp [hsigned v hv, hon]

/-- The violations of a rule that is switched off are dropped. -/
theorem settle_eq_nil {r : Rule} {found : List Violation} (h : c.isEnabled r.name = false)
    (hsigned : ∀ v ∈ found, v.rule = r.name) : c.settle found = [] := by
  unfold settle
  rw [List.filterMap_eq_nil_iff]
  intro v hv
  unfold settle?
  rw [hsigned v hv, if_pos ((isEnabled_eq_false_iff c r.name).mp h)]

/-- The answer to a question under the default configuration is what the rule finds. -/
theorem ask_default (h : ({} : Config).ask u call = .ok answer) :
    ∃ own, call.rule.check u call.index = .ok own ∧ answer.violations = own.violations := by
  unfold ask at h
  obtain ⟨own, hown, heq⟩ := Checked.bind_eq_ok_iff.mp h
  cases heq
  exact ⟨own, hown, override_default call.rule own.violations⟩

/-- The answer of a rule in force is settled by asking under the configuration. -/
theorem exists_ask_settled (hsigns : call.rule.Signs) (hon : c.isEnabled call.rule.name = true)
    (h : ({} : Config).ask u call = .ok answer) :
    ∃ answer', c.ask u call = .ok answer' ∧ answer'.violations = c.settle answer.violations := by
  obtain ⟨own, hown, hsame⟩ := ask_default h
  refine ⟨_, Checked.bind_eq_ok_iff.mpr ⟨own, hown, rfl⟩, ?_⟩
  rw [hsame, settle_eq_override hon (hsigns u call.index own hown)]

/-- Nothing is left of the answer of a rule that is switched off. -/
theorem settle_ask_eq_nil (hsigns : call.rule.Signs) (hoff : c.isEnabled call.rule.name = false)
    (h : ({} : Config).ask u call = .ok answer) : c.settle answer.violations = [] := by
  obtain ⟨own, hown, hsame⟩ := ask_default h
  rw [hsame]
  exact settle_eq_nil hoff (hsigns u call.index own hown)

end Config

namespace Analyzer

/-- What is asked under a configuration are the questions to rules in force. -/
theorem calls_ofRules_eq_filter (rules : List Rule) (c : Config) (u : SourceUnit) :
    (ofRules rules c).calls u =
      ((ofRules rules {}).calls u).filter fun call => c.isEnabled call.rule.name := by
  unfold calls
  rw [← SourceUnit.calls_filter u _ fun r => c.isEnabled r.name]
  simp only [← listening_ofRules_eq_filter]

/-- A question is about a token of the unit, and goes to one of the rules. -/
theorem mem_calls_ofRules (h : call ∈ (ofRules rules c).calls u) :
    call.index < u.tokens.size ∧ call.rule ∈ rules := by
  obtain ⟨-, hindex, hrule⟩ := SourceUnit.mem_calls h
  exact ⟨hindex, (mem_listening_ofRules.mp hrule).1⟩

/-- **A configuration settles what is found under the default one**, for every list of rules
whose violations carry the name of their rule, every configuration and every unit: if there is a
result under the default configuration, there is one under the other, with the same violations in
the same order, but for those of rules that are switched off, which are missing, and for
severities that are replaced. There is a result under the default configuration if the rules have
answers to all questions. -/
theorem inspect_ofRules_settled (rules : List Rule) (hsigns : ∀ r ∈ rules, r.Signs) (c : Config)
    (u : SourceUnit) :
    (∀ found, (ofRules rules {}).inspect u = .ok found →
      ∃ found', (ofRules rules c).inspect u = .ok found' ∧
        found'.violations = c.settle found.violations) ∧
    ((∀ r ∈ rules, ∀ i < u.tokens.size, ∃ found, r.check u i = .ok found) →
      ∃ found, (ofRules rules {}).inspect u = .ok found) := by
  refine ⟨?_, ?_⟩
  · intro found hfound
    rw [inspect_eq] at hfound
    obtain ⟨answers, hanswers, rfl⟩ := Checked.map_eq_ok_iff.mp hfound
    have hsigned : ∀ call ∈ (ofRules rules {}).calls u, call.rule.Signs :=
      fun call hcall => hsigns call.rule (mem_calls_ofRules hcall).2
    obtain ⟨answers', hanswers', hsettled⟩ := Checked.exists_mapM_filter
      (fun call hcall hon _ h => Config.exists_ask_settled (hsigned call hcall) hon h)
      (fun call hcall hoff _ h => Config.settle_ask_eq_nil (hsigned call hcall) hoff h) hanswers
    rw [inspect_eq, calls_ofRules_eq_filter]
    exact ⟨_, Checked.map_eq_ok_iff.mpr ⟨answers', hanswers', rfl⟩, hsettled⟩
  · intro hcheck
    have hask : ∀ call ∈ (ofRules rules {}).calls u, ∃ answer, ({} : Config).ask u call =
        .ok answer := by
      intro call hcall
      obtain ⟨hindex, hrule⟩ := mem_calls_ofRules hcall
      obtain ⟨own, hown⟩ := hcheck call.rule hrule call.index hindex
      exact ⟨_, Checked.bind_eq_ok_iff.mpr ⟨own, hown, rfl⟩⟩
    obtain ⟨answers, hanswers⟩ := Checked.exists_mapM_eq_ok hask
    rw [inspect_eq]
    exact ⟨_, Checked.map_eq_ok_iff.mpr ⟨answers, hanswers, rfl⟩⟩

/-- Rules of which two have one name, and one lists a kind twice. -/
def namesakes : List Rule :=
  [echo "first" [.cast, .cast], echo "second" [.comment, .cast], echo "first" [.comment]]

/-- The section of the first rule lowers its severity, also for its namesake, and the section of the
second one switches it off. -/
def namesakeConfig : Config where
  rules := [("first", { severity := some .warning }), ("second", { enabled := some false })]

/-- The rule that lists casts twice reports the cast twice, under both configurations. -/
theorem inspect_ofRules_settled_namesakes :
    (∀ r ∈ namesakes, r.Signs) ∧
      ∃ found found', (ofRules namesakes {}).inspect echoUnit = .ok found ∧
        (ofRules namesakes namesakeConfig).inspect echoUnit = .ok found' ∧
        outline found.violations =
          [(1, "first", .error), (1, "first", .error), (1, "second", .error), (2, "second", .error),
            (2, "first", .error)] ∧
        outline found'.violations =
          [(1, "first", .warning), (1, "first", .warning), (2, "first", .warning)] := by
  have hsigns : ∀ r ∈ namesakes, r.Signs := by
    simp [namesakes, echo, Rule.Signs, RuleId.oneError, RuleId.violation]
  obtain ⟨hsettled, hexists⟩ := inspect_ofRules_settled namesakes hsigns namesakeConfig echoUnit
  obtain ⟨found, hfound⟩ := hexists (by simp [namesakes, echo])
  obtain ⟨found', hfound', hsame⟩ := hsettled found hfound
  have houtlines : (fun found : Inspection =>
        (outline found.violations, outline (namesakeConfig.settle found.violations))) <$>
      (ofRules namesakes {}).inspect echoUnit =
      .ok ([(1, "first", .error), (1, "first", .error), (1, "second", .error),
        (2, "second", .error), (2, "first", .error)],
        [(1, "first", .warning), (1, "first", .warning), (2, "first", .warning)]) := by
    decide +kernel
  rw [hfound] at houtlines
  obtain ⟨hbefore, hafter⟩ := Prod.mk.inj (Except.ok.inj houtlines)
  rw [← hsame] at hafter
  exact ⟨hsigns, found, found', hfound, hfound', hbefore, hafter⟩

end Analyzer

end PhpStyle
