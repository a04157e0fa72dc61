import PhpStyle.Proofs.Analyzer.Completion
import PhpStyle.Proofs.Analyzer.Signing

/-!
# The section of a rule is all that matters to it

Two configurations that have the same section for a rule lead to the same violations of that
rule, whatever else they say (`Analyzer.run_ofConfig_isolated`). Sections say the same if the rule
is in force in both or in none, with the same severity and options (`RuleConfig.Agrees`). A section
that is missing says as much as an empty one.

The two runs cannot be compared question by question, because they have different rules. So both are
compared with runs that have the rules of the given name only (`Analyzer.only`).

* A run with the rules of one name finds their part of what the whole run finds
  (`Analyzer.run_only`): its questions are part of the questions, the violations in an answer carry
  the name of the rule that was asked, and no answer depends on the others.
* Both configurations have the same rules of that name (`Preset.filter_rules_congr`). No name occurs
  in both parts of the full preset, so it does not matter which preset is asked for; and the options
  of a rule are read from its section alone (`Config.Chooses.agreeOn`).
* Rules with sections that say the same are run in the same way (`Analyzer.run_congr`), because all
  that a run asks a configuration is whether a rule is in force, and its severity.

The last two make the runs with the rules of one name equal, faults included. The first one needs
that the whole run has a result: a fault of another rule ends the run, and what the rule would have
found is lost.
-/

namespace PhpStyle

variable {c c₁ c₂ : Config} {read : PatternReader} {p p₁ p₂ : Preset} {o o₁ o₂ : RuleOptions}
  {rules : List Rule} {name : String} {u : SourceUnit} {units : List SourceUnit}

/-! ### Sections -/

/-- Two sections say the same. The order of the options does not matter. -/
structure RuleConfig.Agrees (s t : RuleConfig) : Prop where
  /-- Whether the rule is in force. -/
  enabled : s.enabled = t.enabled
  /-- The severity of its violations. -/
  severity : s.severity = t.severity
  /-- Its options. -/
  option : ∀ key, s.option? key = t.option? key

namespace Config

/-- The section of a rule, which is empty if there is none. -/
def sectionOf (c : Config) (name : String) : RuleConfig := (c.rule? name).getD {}

/-- What a section says can be asked of the empty section if there is none. -/
theorem bind_rule? {α : Type} {f : RuleConfig → Option α} (h : f {} = none) (c : Config)
    (name : String) : (c.rule? name).bind f = f (c.sectionOf name) := by
  unfold sectionOf
  rcases c.rule? name with _ | s
  · exact h.symm
  · rfl

/-- Whether a rule is in force is said by its section. -/
theorem isEnabled_congr (h : (c₁.sectionOf name).Agrees (c₂.sectionOf name)) :
    c₁.isEnabled name = c₂.isEnabled name := by
  unfold isEnabled
  rw [bind_rule? rfl, bind_rule? rfl, h.enabled]

/-- The severity of a rule is said by its section. -/
theorem severityOf_congr (h : (c₁.sectionOf name).Agrees (c₂.sectionOf name)) :
    c₁.severityOf name = c₂.severityOf name := by
  unfold severityOf
  rw [bind_rule? rfl, bind_rule? rfl, h.severity]

/-- The shape of the comment of a file is read from the section of the rule on it. -/
theorem fileSchema_congr
    (h : (c₁.sectionOf FileComment.id.name).Agrees (c₂.sectionOf FileComment.id.name)) :
    c₁.fileSchema = c₂.fileSchema := by
  unfold fileSchema
  rw [bind_rule? rfl, bind_rule? rfl, h.option]

/-- The layout of a switch is read from the section of the rule on it. -/
theorem switchStyle_congr
    (h : (c₁.sectionOf SwitchLayout.id.name).Agrees (c₂.sectionOf SwitchLayout.id.name)) :
    c₁.switchStyle = c₂.switchStyle := by
  unfold sectionOf at h
  simp only [switchStyle, RuleConfig.natOption, RuleConfig.stringOption, h.option]

/-- The exemption of a rule is read from its section. -/
theorem exemption_congr {id : RuleId} {e₁ e₂ : Exemption}
    (h : (c₁.sectionOf id.name).Agrees (c₂.sectionOf id.name)) (h₁ : c₁.exemption id read = .ok e₁)
    (h₂ : c₂.exemption id read = .ok e₂) : e₁ = e₂ := by
  have hread : c₁.exemption id read = c₂.exemption id read := by
    unfold sectionOf at h
    simp only [exemption, RuleConfig.stringsOption, h.option]
  rw [hread, h₂] at h₁
  exact (Except.ok.inj h₁).symm

end Config

/-! ### Rules of one name -/

namespace Preset

/-- No rule of the structural preset has the name of one of the further rules. -/
theorem disjoint_names (o : RuleOptions) :
    List.Disjoint ((structuralRules o).map (·.name)) ((furtherRules o).map (·.name)) := by
  have hnames : ∀ name ∈ [FileComment.id.name, MemberComment.id.name, SwitchLayout.id.name],
      name ∉ [Spacing.trailingId.name, Spacing.castId.name, Declaration.singleId.name,
        Declaration.camelId.name, Declaration.fileNameId.name, RepeatedBlock.id.name] := by
    decide
  exact fun name => hnames name

/-- A preset with one of the further rules is the full one. -/
theorem eq_full (h : name ∈ (p.rules o).map (·.name))
    (hfurther : name ∈ (furtherRules o).map (·.name)) : p = .full := by
  cases p with
  | full => rfl
  | structural => exact absurd hfurther (disjoint_names o h)

/-- The rules of a name that occurs in a preset are those of the full preset. -/
theorem filter_rules_eq_full (h : name ∈ (p.rules o).map (·.name)) :
    (p.rules o).filter (·.name == name) = (full.rules o).filter (·.name == name) := by
  cases p with
  | full => rfl
  | structural =>
      have hnone : (furtherRules o).filter (·.name == name) = [] := by
        rw [List.filter_eq_nil_iff]
        intro r hr heq
        have hfurther := List.mem_map_of_mem (f := fun r : Rule => r.name) hr
        rw [beq_iff_eq.mp heq] at hfurther
        exact disjoint_names o h hfurther
      change _ = (structuralRules o ++ furtherRules o).filter _
      rw [List.filter_append, hnone, List.append_nil]
      rfl

end Preset

/-- Two choices of options agree on those of the rule with the given name. -/
structure RuleOptions.AgreeOn (name : String) (o₁ o₂ : RuleOptions) : Prop where
  /-- The shape of the comment of a file. -/
  file : FileComment.id.name = name → o₁.file = o₂.file
  /-- The layout of a switch. -/
  switch : SwitchLayout.id.name = name → o₁.switch = o₂.switch
  /-- The classes of which a file may declare a second one. -/
  single : Declaration.singleId.name = name → o₁.single = o₂.single
  /-- The classes that need not be named like their file. -/
  fileName : Declaration.fileNameId.name = name → o₁.fileName = o₂.fileName

/-- Rules that are compared one by one: those with the given name are the same. -/
theorem filter_name_congr {rules₁ rules₂ : List Rule}
    (h : List.Forall₂ (fun r₁ r₂ => r₁.name = r₂.name ∧ (r₁.name = name → r₁ = r₂)) rules₁ rules₂) :
    rules₁.filter (·.name == name) = rules₂.filter (·.name == name) := by
  induction h with
  | nil => rfl
  | @cons r₁ r₂ rules₁ rules₂ hr _ ih =>
      by_cases hname : r₁.name = name
      · have hsame := hr.2 hname
        subst hsame
        simp [hname, ih]
      · have hother : r₂.name ≠ name := hr.1 ▸ hname
        simp [hname, hother, ih]

namespace Preset

/-- The full preset has the same rules of a name for options that agree on them. -/
theorem filter_full_congr (h : RuleOptions.AgreeOn name o₁ o₂) :
    (full.rules o₁).filter (·.name == name) = (full.rules o₂).filter (·.name == name) := by
  -- rule by rule: four of them have options
  apply filter_name_congr
  refine .cons ⟨rfl, fun hname => congrArg FileComment.rule (h.file hname)⟩ ?_
  refine .cons ⟨rfl, fun _ => rfl⟩ ?_
  refine .cons ⟨rfl, fun hname => congrArg SwitchLayout.rule (h.switch hname)⟩ ?_
  refine .cons ⟨rfl, fun _ => rfl⟩ (.cons ⟨rfl, fun _ => rfl⟩ ?_)
  refine .cons ⟨rfl, fun hname => congrArg Declaration.singleRule (h.single hname)⟩ ?_
  refine .cons ⟨rfl, fun _ => rfl⟩ ?_
  refine .cons ⟨rfl, fun hname => congrArg Declaration.fileNameRule (h.fileName hname)⟩ ?_
  exact .cons ⟨rfl, fun _ => rfl⟩ .nil

/-- **The rules of a name** that occurs in two presets are the same, if the options agree on
them. -/
theorem filter_rules_congr (h₁ : name ∈ (p₁.rules o₁).map (·.name))
    (h₂ : name ∈ (p₂.rules o₂).map (·.name)) (h : RuleOptions.AgreeOn name o₁ o₂) :
    (p₁.rules o₁).filter (·.name == name) = (p₂.rules o₂).filter (·.name == name) := by
  rw [filter_rules_eq_full h₁, filter_rules_eq_full h₂, filter_full_congr h]

end Preset

/-- Configurations with the same section for a rule choose the same options of it. -/
theorem Config.Chooses.agreeOn (h₁ : c₁.Chooses read p₁ o₁) (h₂ : c₂.Chooses read p₂ o₂)
    (hname₁ : name ∈ (p₁.rules o₁).map (·.name)) (hname₂ : name ∈ (p₂.rules o₂).map (·.name))
    (hsame : (c₁.sectionOf name).Agrees (c₂.sectionOf name)) : RuleOptions.AgreeOn name o₁ o₂ := by
  refine ⟨?_, ?_, ?_, ?_⟩
  · rintro rfl
    rw [h₁.file, h₂.file, fileSchema_congr hsame]
  · rintro rfl
    rw [h₁.switch, h₂.switch, switchStyle_congr hsame]
  · rintro rfl
    -- exemptions are read for the full preset only, and it is the one that has the rule
    have hfurther : ∀ o, Declaration.singleId.name ∈ (Preset.furtherRules o).map (·.name) := by
      simp [Preset.furtherRules, Declaration.singleRule]
    exact exemption_congr hsame (h₁.single (Preset.eq_full hname₁ (hfurther o₁)))
      (h₂.single (Preset.eq_full hname₂ (hfurther o₂)))
  · rintro rfl
    have hfurther : ∀ o, Declaration.fileNameId.name ∈ (Preset.furtherRules o).map (·.name) := by
      simp [Preset.furtherRules, Declaration.fileNameRule]
    exact exemption_congr hsame (h₁.fileName (Preset.eq_full hname₁ (hfurther o₁)))
      (h₂.fileName (Preset.eq_full hname₂ (hfurther o₂)))

/-! ### Runs with the rules of one name -/

/-- The violations in an answer carry the name of the rule that was asked. -/
theorem Config.rule_of_mem_ask {call : Call} {answer : Inspection} (hsigns : call.rule.Signs)
    (h : c.ask u call = .ok answer) : ∀ v ∈ answer.violations, v.rule = call.rule.name := by
  unfold ask at h
  obtain ⟨own, hown, heq⟩ := Checked.bind_eq_ok_iff.mp h
  cases heq
  intro v hv
  obtain ⟨w, hw, rfl⟩ := List.mem_map.mp hv
  exact hsigns u call.index own hown w hw

namespace Analyzer

/-- The analyzer with the rules of one name only. -/
def only (a : Analyzer) (name : String) : Analyzer :=
  ofRules (a.rules.filter (·.name == name)) a.config

/-- The questions to the rules of one name. -/
theorem calls_only (rules : List Rule) (c : Config) (name : String) (u : SourceUnit) :
    ((ofRules rules c).only name).calls u =
      ((ofRules rules c).calls u).filter fun call => call.rule.name == name := by
  unfold calls
  rw [← SourceUnit.calls_filter u _ fun r => r.name == name]
  simp only [← listening_ofRules_filter]
  rfl

/-- What the rules of one name find in a unit is their part of what is found. -/
theorem inspect_only (hsigns : ∀ r ∈ rules, r.Signs) (name : String) {found : Inspection}
    (h : (ofRules rules c).inspect u = .ok found) :
    ∃ found', ((ofRules rules c).only name).inspect u = .ok found' ∧
      found'.violations = found.violations.filterMap (Option.guard fun v => v.rule == name) := by
  rw [inspect_eq] at h
  obtain ⟨answers, hanswers, rfl⟩ := Checked.map_eq_ok_iff.mp h
  have hsigned : ∀ call ∈ (ofRules rules c).calls u, ∀ answer, c.ask u call = .ok answer →
      ∀ v ∈ answer.violations, v.rule = call.rule.name := by
    intro call hcall answer hask
    exact Config.rule_of_mem_ask (hsigns call.rule (mem_calls_ofRules hcall).2) hask
  -- all of the answer is kept if the rule has the name, and nothing otherwise
  have hkeep : ∀ call ∈ (ofRules rules c).calls u, (call.rule.name == name) = true →
      ∀ answer, c.ask u call = .ok answer → ∃ answer', c.ask u call = .ok answer' ∧
        answer'.violations =
          answer.violations.filterMap (Option.guard fun v => v.rule == name) := by
    intro call hcall hname answer hask
    refine ⟨answer, hask, ?_⟩
    rw [List.filterMap_eq_filter, List.filter_eq_self.mpr]
    intro v hv
    rw [hsigned call hcall answer hask v hv]
    exact hname
  have hdrop : ∀ call ∈ (ofRules rules c).calls u, (call.rule.name == name) = false →
      ∀ answer, c.ask u call = .ok answer →
        answer.violations.filterMap (Option.guard fun v => v.rule == name) = [] := by
    intro call hcall hname answer hask
    rw [List.filterMap_eq_filter, List.filter_eq_nil_iff]
    intro v hv
    rw [hsigned call hcall answer hask v hv, hname]
    simp
  obtain ⟨answers', hanswers', hpart⟩ := Checked.exists_mapM_filter hkeep hdrop hanswers
  rw [inspect_eq, calls_only]
  exact ⟨_, Checked.map_eq_ok_iff.mpr ⟨answers', hanswers', rfl⟩, hpart⟩

/-- **The run with the rules of one name** reports their part of what the whole run reports. -/
theorem run_only (hsigns : ∀ r ∈ rules, r.Signs) (name : String) {report : Report}
    {events : List Event} (h : (ofRules rules c).run units = .ok (report, events)) :
    ∃ report' events', ((ofRules rules c).only name).run units = .ok (report', events') ∧
      report'.violations = report.violations.filter (·.rule == name) := by
  rw [run_eq] at h
  obtain ⟨found, hfound, heq⟩ := Checked.map_eq_ok_iff.mp h
  cases heq
  -- every unit is inspected, so nothing is passed over
  obtain ⟨found', hfound', hpart⟩ := Checked.exists_mapM_filter (p := fun _ => true)
    (fun u _ _ _ h => inspect_only hsigns name h) (fun _ _ hfalse => by cases hfalse) hfound
  rw [List.filter_true] at hfound'
  rw [List.filterMap_eq_filter] at hpart
  rw [run_eq]
  exact ⟨_, _, Checked.map_eq_ok_iff.mpr ⟨found', hfound', rfl⟩, hpart⟩

/-- **Rules are run in the same way** under configurations whose sections for them say the same:
report, events and faults do not differ. -/
theorem run_congr (h : ∀ r ∈ rules, (c₁.sectionOf r.name).Agrees (c₂.sectionOf r.name)) :
    (ofRules rules c₁).run units = (ofRules rules c₂).run units := by
  have hcalls : ∀ u, (ofRules rules c₁).calls u = (ofRules rules c₂).calls u := by
    intro u
    have henabled : rules.filter (fun r => c₁.isEnabled r.name) =
        rules.filter (fun r => c₂.isEnabled r.name) :=
      List.filter_congr fun r hr => Config.isEnabled_congr (h r hr)
    have hlistening : (ofRules rules c₁).listening = (ofRules rules c₂).listening := by
      funext k
      rw [listening_ofRules, listening_ofRules, henabled]
    unfold calls
    rw [hlistening]
  have hinspect : ∀ u, (ofRules rules c₁).inspect u = (ofRules rules c₂).inspect u := by
    intro u
    rw [inspect_eq, inspect_eq, hcalls u]
    congr 1
    apply Checked.mapM_congr
    intro call hcall
    have hseverity := Config.severityOf_congr (h call.rule (mem_calls_ofRules hcall).2)
    change c₁.ask u call = c₂.ask u call
    unfold Config.ask Config.override
    rw [hseverity]
  rw [run_eq, run_eq, funext hinspect]

/-! ### Two configured runs -/

/-- **What a rule finds depends on its own section only.** Let two configurations both lead to an
analyzer that has a rule of the given name, and let their sections for it say the same. Whatever
else they say (the preset, the severity at which a run fails, the sections of other rules and of
unknown ones), and whatever the units are: the rules of that name alone are run in the same way,
faults included, and if both runs give a report, the violations with that name are the same, in the
same order. If the units have finished sequences of tokens, each of the runs gives a report, unless
a sum does not fit in a word. -/
theorem run_ofConfig_isolated {a₁ a₂ : Analyzer} (h₁ : ofConfig c₁ read = .ok a₁)
    (h₂ : ofConfig c₂ read = .ok a₂) (hname₁ : name ∈ a₁.rules.map (·.name))
    (hname₂ : name ∈ a₂.rules.map (·.name))
    (hsame : (c₁.sectionOf name).Agrees (c₂.sectionOf name)) (units : List SourceUnit) :
    (a₁.only name).run units = (a₂.only name).run units ∧
    (∀ report₁ events₁ report₂ events₂, a₁.run units = .ok (report₁, events₁) →
      a₂.run units = .ok (report₂, events₂) →
      report₁.violations.filter (·.rule == name) = report₂.violations.filter (·.rule == name)) ∧
    ((∀ u ∈ units, u.Finished) →
      ((∃ result, a₁.run units = .ok result) ∨
        a₁.run units = .error .overflow ∧ ¬ ∀ u ∈ units, c₁.Fits u) ∧
      ((∃ result, a₂.run units = .ok result) ∨
        a₂.run units = .error .overflow ∧ ¬ ∀ u ∈ units, c₂.Fits u)) := by
  have hends₁ := ends_run h₁ units
  have hends₂ := ends_run h₂ units
  obtain ⟨p₁, o₁, hchooses₁, rfl⟩ := exists_chooses h₁
  obtain ⟨p₂, o₂, hchooses₂, rfl⟩ := exists_chooses h₂
  have hagree := hchooses₁.agreeOn hchooses₂ hname₁ hname₂ hsame
  have hrules := Preset.filter_rules_congr hname₁ hname₂ hagree
  -- the same rules, under sections that say the same
  have honly : ((ofRules (p₁.rules o₁) c₁).only name).run units =
      ((ofRules (p₂.rules o₂) c₂).only name).run units := by
    change (ofRules ((p₁.rules o₁).filter _) c₁).run units =
      (ofRules ((p₂.rules o₂).filter _) c₂).run units
    rw [hrules]
    apply run_congr
    intro r hr
    have hname : r.name = name := by simpa using List.of_mem_filter hr
    rw [hname]
    exact hsame
  refine ⟨honly, ?_, ?_⟩
  · intro report₁ events₁ report₂ events₂ hrun₁ hrun₂
    obtain ⟨part₁, partEvents₁, hpart₁, heq₁⟩ :=
      run_only (fun r hr => Preset.signs_of_mem_rules hr) name hrun₁
    obtain ⟨part₂, partEvents₂, hpart₂, heq₂⟩ :=
      run_only (fun r hr => Preset.signs_of_mem_rules hr) name hrun₂
    rw [honly, hpart₂] at hpart₁
    cases hpart₁
    rw [← heq₁, heq₂]
  · intro hunits
    exact ⟨(hends₁ hunits).result_or_overflow, (hends₂ hunits).result_or_overflow⟩

/-- A section that makes a warning of what the rule finds, and chooses a narrow layout. -/
def narrowSection : RuleConfig where
  severity := some .warning
  options := [("indent", .integer 2)]

/-- The full preset, with one rule switched off and a section that belongs to no rule. -/
def wideConfig : Config where
  rules := [("trailing-whitespace", { enabled := some false }),
    ("switch-declaration", narrowSection), ("no-such-rule", {})]

/-- The structural preset, where other rules have other sections. -/
def slimConfig : Config where
  preset := some "Structural"
  failOn := some .warning
  rules := [("switch-declaration", narrowSection), ("file-comment", { severity := some .warning })]

/-- A switch on one line, in a file without a comment, with a cast in front of it. -/
def crowdedUnit : SourceUnit where
  path := "crowded.php"
  tokens := .ofPairs [(.openTag, "<?php\n"), (.cast, "(int)"), (.variableName, "$a"),
    (.semicolon, ";"), (.kwSwitch, "switch"), (.openBrace, "\x7b"), (.kwCase, "case"),
    (.colon, ":"), (.kwBreak, "break"), (.semicolon, ";"), (.closeBrace, "\x7d")]
  comments := fun _ => .ok {}

/-- The names of the rules that a configuration leads to, and of those that find
something in the unit. -/
def crowdedAudit (c : Config) : Except ConfigError (List String × Checked (List String)) := do
  let a ← ofConfig c
  return (a.rules.map (·.name), (·.1.violations.map (·.rule)) <$> a.run [crowdedUnit])

/-- What the names say about the analyzer and its report. -/
theorem exists_of_crowdedAudit {names found : List String}
    (h : crowdedAudit c = .ok (names, .ok found)) :
    ∃ a report events, ofConfig c = .ok a ∧ a.rules.map (·.name) = names ∧
      a.run [crowdedUnit] = .ok (report, events) ∧ report.violations.map (·.rule) = found := by
  unfold crowdedAudit at h
  rcases hconfig : ofConfig c with e | a
  · rw [hconfig] at h
    cases h
  · rw [hconfig] at h
    obtain ⟨hnames, hfound⟩ := Prod.mk.inj (Except.ok.inj h)
    obtain ⟨⟨report, events⟩, hrun, heq⟩ := Checked.map_eq_ok_iff.mp hfound
    exact ⟨a, report, events, rfl, hnames, hrun, heq⟩

/-- The eight violations of the layout are the same in both runs, which differ in other ones. -/
theorem run_ofConfig_isolated_crowded :
    ∃ a₁ a₂ report₁ events₁ report₂ events₂,
      ofConfig wideConfig = .ok a₁ ∧ ofConfig slimConfig = .ok a₂ ∧
      "switch-declaration" ∈ a₁.rules.map (·.name) ∧ "switch-declaration" ∈ a₂.rules.map (·.name) ∧
      (wideConfig.sectionOf "switch-declaration").Agrees
        (slimConfig.sectionOf "switch-declaration") ∧
      a₁.run [crowdedUnit] = .ok (report₁, events₁) ∧
        a₂.run [crowdedUnit] = .ok (report₂, events₂) ∧
      report₁.violations.map (·.rule) =
        "file-comment" :: "space-after-cast" :: List.replicate 8 "switch-declaration" ∧
      report₂.violations.map (·.rule) = "file-comment" :: List.replicate 8 "switch-declaration" ∧
      report₁.violations.filter (·.rule == "switch-declaration") =
        report₂.violations.filter (·.rule == "switch-declaration") := by
  have hwide : crowdedAudit wideConfig = .ok
      (["file-comment", "variable-comment", "switch-declaration", "trailing-whitespace",
        "space-after-cast", "single-declaration", "valid-class-name", "class-file-name",
        "file-equals-class-comment"],
      .ok ("file-comment" :: "space-after-cast" :: List.replicate 8 "switch-declaration")) := by
    decide +kernel
  have hslim : crowdedAudit slimConfig = .ok
      (["file-comment", "variable-comment", "switch-declaration"],
      .ok ("file-comment" :: List.replicate 8 "switch-declaration")) := by
    decide +kernel
  obtain ⟨a₁, report₁, events₁, h₁, hrules₁, hrun₁, hfound₁⟩ := exists_of_crowdedAudit hwide
  obtain ⟨a₂, report₂, events₂, h₂, hrules₂, hrun₂, hfound₂⟩ := exists_of_crowdedAudit hslim
  have hname₁ : "switch-declaration" ∈ a₁.rules.map (·.name) := by simp [hrules₁]
  have hname₂ : "switch-declaration" ∈ a₂.rules.map (·.name) := by simp [hrules₂]
  have hsame : (wideConfig.sectionOf "switch-declaration").Agrees
      (slimConfig.sectionOf "switch-declaration") := ⟨rfl, rfl, fun _ => rfl⟩
  have hisolated := run_ofConfig_isolated h₁ h₂ hname₁ hname₂ hsame [crowdedUnit]
  exact ⟨a₁, a₂, report₁, events₁, report₂, events₂, h₁, h₂, hname₁, hname₂, hsame, hrun₁, hrun₂,
    hfound₁, hfound₂, hisolated.2.1 report₁ events₁ report₂ events₂ hrun₁ hrun₂⟩

end Analyzer

end PhpStyle
