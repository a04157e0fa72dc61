import PhpStyle.Proofs.Analyzer.Settings
import PhpStyle.Proofs.Safety.Rules

/-!
# Configured runs meet no fault

An analyzer that a configuration asks for has the rules of a preset, with options that are read from
the configuration (`Config.Chooses`, `Analyzer.exists_chooses`), in whichever way the patterns of
names are read. So a run over finished sequences of tokens can only stop at a sum that does not fit
in a word, and these sums are those of three rules (`Config.Fits`, `Analyzer.ends_run`).

A run is questions to rules about tokens, one after the other. Each question goes to a rule of the
preset and is about a token of the unit, so the rule answers it without a fault
(`Config.Chooses.ends_check`). All that is to be added is that the sums of each rule are among those
of the configuration, because its options are (`Config.Fits.builtIn`).

Reading a configuration can fail, and nothing is said about that here: the statements start from an
analyzer.
-/

namespace PhpStyle

variable {c : Config} {read : PatternReader} {p : Preset} {o : RuleOptions} {a : Analyzer}
  {r : Rule} {u : SourceUnit} {i : Nat}

/-! ### The analyzer of a configuration -/

/-- A configuration asks for a preset, with the given options. Exemptions matter to the full preset
only, and they alone depend on how patterns are read. -/
structure Config.Chooses (c : Config) (read : PatternReader) (p : Preset) (o : RuleOptions) :
    Prop where
  /-- The preset. -/
  preset : c.chosenPreset = .ok p
  /-- The shape of the comment of a file. -/
  file : o.file = c.fileSchema
  /-- The layout of a switch. -/
  switch : o.switch = c.switchStyle
  /-- The classes of which a file may declare a second one. -/
  single : p = .full → c.exemption Declaration.singleId read = .ok o.single
  /-- The classes that need not be named like their file. -/
  fileName : p = .full → c.exemption Declaration.fileNameId read = .ok o.fileName

/-- The rules of a configuration are those of the preset that it asks for. -/
theorem Config.exists_chooses {rules : List Rule} (h : c.ruleSet read = .ok rules) :
    ∃ p o, c.Chooses read p o ∧ rules = p.rules o := by
  unfold ruleSet at h
  rcases hpreset : c.chosenPreset with e | p
  · rw [hpreset] at h
    cases h
  rw [hpreset] at h
  -- the smaller preset reads no exemptions, and the larger one reads two
  cases p with
  | structural =>
      cases h
      exact ⟨.structural, _, ⟨hpreset, rfl, rfl, nofun, nofun⟩, rfl⟩
  | full =>
      rcases hsingle : c.exemption Declaration.singleId read with e | single
      · rw [hsingle] at h
        cases h
      rcases hfileName : c.exemption Declaration.fileNameId read with e | fileName
      · rw [hsingle, hfileName] at h
        cases h
      rw [hsingle, hfileName] at h
      cases h
      exact ⟨.full, _, ⟨hpreset, rfl, rfl, fun _ => hsingle, fun _ => hfileName⟩, rfl⟩

/-- The analyzer of a configuration has the rules of the preset that it asks for. -/
theorem Analyzer.exists_chooses (h : ofConfig c read = .ok a) :
    ∃ p o, c.Chooses read p o ∧ a = ofRules (p.rules o) c := by
  unfold ofConfig at h
  rcases hrules : c.ruleSet read with e | rules
  · rw [hrules] at h
    cases h
  · rw [hrules] at h
    cases h
    obtain ⟨p, o, hchooses, rfl⟩ := Config.exists_chooses hrules
    exact ⟨p, o, hchooses, rfl⟩

/-! ### Sums -/

/-- The sums that rules with the configured options form fit in a word. -/
structure Config.Fits (c : Config) (u : SourceUnit) : Prop where
  /-- Those of the rule on the comment of a file. -/
  file : c.fileSchema.Fits u
  /-- Those of the rule on the comments of member variables. -/
  member : DocSchema.memberVariable.Fits u
  /-- Those of the rule on the layout of switches. -/
  switch : c.switchStyle.Fits u.tokens

/-- If the sums of the configured rules fit, so do those of each rule. -/
theorem Config.Fits.builtIn (h : c.Fits u) (hchooses : c.Chooses read p o) :
    ∀ b ∈ o.builtIns, b.Fits u := by
  simp [RuleOptions.builtIns, BuiltIn.Fits, hchooses.file, hchooses.switch, h.file,
    h.member, h.switch]

/-! ### Runs -/

/-- The tokens of a unit are a finished sequence. -/
def SourceUnit.Finished (u : SourceUnit) : Prop := ∃ pairs, u.tokens = TokenSeq.ofPairs pairs

/-- A rule of the configured preset looks at a token of a finished sequence. -/
theorem Config.Chooses.ends_check (hchooses : c.Chooses read p o) (hr : r ∈ p.rules o)
    (hu : u.Finished) (hi : i < u.tokens.size) : Ends (c.Fits u) (r.check u i) fun _ => True := by
  obtain ⟨pairs, hpairs⟩ := hu
  obtain ⟨b, hb, rfl⟩ := RuleOptions.exists_builtIn hr
  have howner : ∀ k, u.tokens.owner i = some k → k < u.tokens.size := by
    rw [hpairs] at hi ⊢
    exact fun k => TokenSeq.owner_lt_size hi
  have hlinks := TokenSeq.links_ofPairs pairs
  rw [← hpairs] at hlinks
  exact (b.ends_check hlinks howner hi).weaken fun hfits => hfits.builtIn hchooses b hb

namespace Analyzer

/-- How the inspection of a finished unit ends. -/
theorem ends_inspect (h : ofConfig c read = .ok a) (hu : u.Finished) :
    Ends (c.Fits u) (a.inspect u) fun _ => True := by
  obtain ⟨p, o, hchooses, rfl⟩ := exists_chooses h
  rw [inspect_eq]
  refine Ends.map (P := fun _ => True) ?_ fun _ _ => trivial
  refine (Ends.mapM (R := fun _ => True) fun call hcall => ?_).mono fun _ _ => trivial
  obtain ⟨hindex, hrule⟩ := mem_calls_ofRules hcall
  unfold Config.ask
  exact (hchooses.ends_check hrule hu hindex).bind fun _ _ => Ends.pure trivial

/-- **A run over finished units ends with a report**, unless a sum does not fit. -/
theorem ends_run (h : ofConfig c read = .ok a) (units : List SourceUnit)
    (hunits : ∀ u ∈ units, u.Finished) :
    Ends (∀ u ∈ units, c.Fits u) (a.run units) fun _ => True := by
  rw [run_eq]
  refine Ends.map (P := fun _ => True) ?_ fun _ _ => trivial
  refine (Ends.mapM (R := fun _ => True) fun u hu => ?_).mono fun _ _ => trivial
  exact (ends_inspect h (hunits u hu)).weaken fun hfits => hfits u hu

end Analyzer

end PhpStyle
