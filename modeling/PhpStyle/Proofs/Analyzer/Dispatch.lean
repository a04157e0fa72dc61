import Mathlib.Data.List.FinRange
import Mathlib.Data.List.Nodup
import PhpStyle.Analyzer
import PhpStyle.Proofs.Checked
import PhpStyle.Token.Builder

/-!
# Dispatch through the trigger table

An analyzer fills a table rule by rule and then only looks up the kind of each token. Here it is
compared with a run that has no table: every token is shown to every rule, and those that are in
force and list its kind are asked (`Config.calls`, `Config.scan`).

The proof follows the filling. One entry more puts one index behind those of its kind
(`TriggerTable.indices_insert`), so a rule that is registered listens as often as it lists a kind
(`indices_register`), and by induction over the rules the table has their indices in order
(`indices_ofRules`). Looked up in the list of rules, these give the rules themselves
(`Analyzer.listening_ofRules`), and nothing after that speaks of indices. If no rule lists a kind
twice, the rules that listen are a plain filter (`listening_ofRules_of_nodup`), and the two runs
ask the same questions (`calls_ofRules`). That the same questions lead to the same report does not
depend on the table: `inspect_eq` and `run_eq` say how answers are put together.

* `Analyzer.run_ofRules_eq_scan` — the run with the table is the run without it, if no rule lists
  a kind twice.
-/

namespace PhpStyle

variable {rules : List Rule} {r : Rule} {k : Kind} {c : Config} {u : SourceUnit}

/-! ### The table -/

namespace TriggerTable

variable {count : Nat} {i : Fin count}

/-- The entries of one kind can be left out where another one is looked up. -/
theorem lookup_filter_ne {k' : Kind} (h : k' ≠ k) (entries : List (Kind × List (Fin count))) :
    (entries.filter (·.1 != k)).lookup k' = entries.lookup k' := by
  induction entries with
  | nil => rfl
  | cons entry entries ih =>
      obtain ⟨k₀, listeners⟩ := entry
      by_cases hk : k₀ = k
      · subst hk
        simp [List.lookup_cons, beq_false_of_ne h, ih]
      · simp [List.lookup_cons, hk, ih]

/-- One more listener of a kind. -/
theorem indices_insert (t : TriggerTable count) (k k' : Kind) (i : Fin count) :
    (t.insert k i).indices k' = if k' = k then t.indices k ++ [i] else t.indices k' := by
  unfold insert
  by_cases h : k' = k
  · subst h
    simp [indices]
  · rw [if_neg h]
    unfold indices
    rw [List.lookup_cons, beq_false_of_ne h, lookup_filter_ne h]

/-- One more index listens to a kind as often as the kind is given. -/
theorem indices_register (t : TriggerTable count) (i : Fin count) (kinds : List Kind) (k : Kind) :
    (t.register i kinds).indices k = t.indices k ++ List.replicate (kinds.count k) i := by
  unfold register
  induction kinds generalizing t with
  | nil => simp
  | cons k₀ kinds ih =>
      rw [List.foldl_cons, ih, indices_insert]
      by_cases h : k = k₀
      · subst h
        simp [List.replicate_succ]
      · simp [h, Ne.symm h]

/-- **The listeners of a kind** are the rules in force in their order, each as often as it lists
the kind. -/
theorem indices_ofRules (rules : List Rule) (c : Config) (k : Kind) :
    (ofRules rules c).indices k = (List.finRange rules.length).flatMap fun i =>
      if c.isEnabled (rules.get i).name then
        List.replicate ((rules.get i).triggers.count k) i else [] := by
  unfold ofRules
  -- over any table that the fold has reached, since its listeners come first
  suffices hfold : ∀ (is : List (Fin rules.length)) (t : TriggerTable rules.length),
      (is.foldl (fun t i => if c.isEnabled (rules.get i).name then
          t.register i (rules.get i).triggers else t) t).indices k =
        t.indices k ++ is.flatMap fun i => if c.isEnabled (rules.get i).name then
          List.replicate ((rules.get i).triggers.count k) i else [] from
    hfold (List.finRange rules.length) {}
  intro is
  induction is with
  | nil => simp
  | cons i is ih =>
      intro t
      rw [List.foldl_cons, ih, List.flatMap_cons, ← List.append_assoc]
      by_cases hon : c.isEnabled (rules.get i).name = true
      · rw [if_pos hon, if_pos hon, indices_register]
      · rw [if_neg hon, if_neg hon, List.append_nil]

end TriggerTable

/-! ### The rules that listen -/

namespace Analyzer

/-- **The rules that listen to a kind** are those in force, in their order, each as often as it
lists the kind. -/
theorem listening_ofRules (rules : List Rule) (c : Config) (k : Kind) :
    (ofRules rules c).listening k = (rules.filter fun r => c.isEnabled r.name).flatMap fun r =>
      List.replicate (r.triggers.count k) r := by
  have hlookup : (ofRules rules c).listening k =
      ((List.finRange rules.length).map rules.get).flatMap fun r =>
        if c.isEnabled r.name then List.replicate (r.triggers.count k) r else [] := by
    unfold listening ofRules
    rw [TriggerTable.indices_ofRules, List.map_flatMap, List.flatMap_map]
    simp only [apply_ite (List.map _), List.map_replicate, List.map_nil]
  rw [hlookup, List.map_get_finRange]
  clear hlookup
  induction rules with
  | nil => rfl
  | cons r rules ih =>
      rw [List.flatMap_cons, List.filter_cons, ih]
      by_cases hon : c.isEnabled r.name = true <;> simp [hon]

/-- A rule that listens to a kind is one of the rules, is in force, and lists the kind. -/
theorem mem_listening_ofRules :
    r ∈ (ofRules rules c).listening k ↔
      r ∈ rules ∧ c.isEnabled r.name = true ∧ k ∈ r.triggers := by
  rw [listening_ofRules, List.mem_flatMap]
  constructor
  · rintro ⟨r', hr', hmem⟩
    obtain ⟨hcount, rfl⟩ := List.mem_replicate.mp hmem
    obtain ⟨hrule, hon⟩ := List.mem_filter.mp hr'
    exact ⟨hrule, hon, List.count_pos_iff.mp (Nat.pos_of_ne_zero hcount)⟩
  · rintro ⟨hrule, hon, hk⟩
    have hcount : r.triggers.count k ≠ 0 := Nat.pos_iff_ne_zero.mp (List.count_pos_iff.mpr hk)
    exact ⟨r, List.mem_filter.mpr ⟨hrule, hon⟩, List.mem_replicate.mpr ⟨hcount, rfl⟩⟩

/-- Of some of the rules, those listen that listen among all of them. -/
theorem listening_ofRules_filter (p : Rule → Bool) (rules : List Rule) (c : Config) (k : Kind) :
    (ofRules (rules.filter p) c).listening k = ((ofRules rules c).listening k).filter p := by
  rw [listening_ofRules, listening_ofRules, List.filter_comm, List.filter_flatMap]
  generalize rules.filter _ = rules
  induction rules with
  | nil => rfl
  | cons r rules ih =>
      rw [List.flatMap_cons, List.filter_replicate, ← ih]
      by_cases hp : p r = true <;> simp [hp]

/-- A configuration decides by the names of rules which of them listen. -/
theorem listening_ofRules_eq_filter (rules : List Rule) (c : Config) (k : Kind) :
    (ofRules rules c).listening k =
      ((ofRules rules {}).listening k).filter fun r => c.isEnabled r.name := by
  have hall : (rules.filter fun r => c.isEnabled r.name).filter
      (fun r => ({} : Config).isEnabled r.name) = rules.filter fun r => c.isEnabled r.name :=
    List.filter_eq_self.mpr fun _ _ => rfl
  rw [← listening_ofRules_filter, listening_ofRules, listening_ofRules, hall]

/-- If no rule lists a kind twice, the rules that listen to it are those in force that list it. -/
theorem listening_ofRules_of_nodup (h : ∀ r ∈ rules, r.triggers.Nodup) (c : Config) (k : Kind) :
    (ofRules rules c).listening k =
      rules.filter fun r => c.isEnabled r.name && r.triggers.contains k := by
  rw [listening_ofRules]
  induction rules with
  | nil => rfl
  | cons r rules ih =>
      rw [List.forall_mem_cons] at h
      rw [List.filter_cons, List.filter_cons, ← ih h.2]
      by_cases hon : c.isEnabled r.name = true
      · by_cases hk : k ∈ r.triggers <;> simp [hon, h.1.count, hk]
      · simp [hon]

end Analyzer

/-! ### Questions to rules -/

/-- A question to a rule: a token of a unit, and its index. -/
structure Call where
  /-- The token. -/
  token : Token
  /-- The index of the token. -/
  index : Nat
  /-- The rule that is asked. -/
  rule : Rule

/-- The questions about a unit: token by token, and for each of them rule by rule, if the rules that
listen to a kind are given. -/
def SourceUnit.calls (u : SourceUnit) (listeners : Kind → List Rule) : List Call :=
  u.tokens.tokens.toList.zipIdx.flatMap fun (t, i) => (listeners t.kind).map (⟨t, i, ·⟩)

/-- A question is about a token of the unit, and goes to a rule that listens to its kind. -/
theorem SourceUnit.mem_calls {listeners : Kind → List Rule} {call : Call}
    (h : call ∈ u.calls listeners) :
    u.tokens.get? call.index = some call.token ∧ call.index < u.tokens.size ∧
      call.rule ∈ listeners call.token.kind := by
  unfold calls at h
  obtain ⟨⟨t, i⟩, hentry, hcall⟩ := List.mem_flatMap.mp h
  obtain ⟨r, hr, rfl⟩ := List.mem_map.mp hcall
  have hlt := List.snd_lt_of_mem_zipIdx hentry
  have hget := List.mem_zipIdx_iff_getElem?.mp hentry
  refine ⟨?_, ?_, hr⟩
  · simpa [TokenSeq.get?] using hget
  · simpa [TokenSeq.size] using hlt

/-- The questions to some of the rules. -/
theorem SourceUnit.calls_filter (u : SourceUnit) (listeners : Kind → List Rule) (p : Rule → Bool) :
    (u.calls fun k => (listeners k).filter p) = (u.calls listeners).filter fun call =>
      p call.rule := by
  unfold calls
  simp only [List.filter_flatMap, List.filter_map, Function.comp_def]

namespace Config

/-- What a rule finds, with the severity that a configuration asks for. -/
def override (c : Config) (r : Rule) (found : List Violation) : List Violation :=
  found.map fun v => { v with severity := (c.severityOf r.name).getD v.severity }

/-- The answer to a question. The question itself is the first event. -/
def ask (c : Config) (u : SourceUnit) (call : Call) : Checked Inspection := do
  let found ← call.rule.check u call.index
  return {
    violations := c.override call.rule found.violations
    events := .dispatching call.index call.rule.name call.token.line call.token.column ::
      found.events }

/-- The rules that are asked about a token of the given kind: those that are in force and list the
kind. -/
def asked (c : Config) (rules : List Rule) (k : Kind) : List Rule :=
  rules.filter fun r => c.isEnabled r.name && r.triggers.contains k

/-- The questions about a unit to the rules that are asked. -/
def calls (c : Config) (rules : List Rule) (u : SourceUnit) : List Call := u.calls (c.asked rules)

/-- What is found in one unit without a table. -/
def scanUnit (c : Config) (rules : List Rule) (u : SourceUnit) : Checked Inspection := do
  let answers ← (c.calls rules u).mapM (c.ask u)
  return {
    violations := answers.flatMap (·.violations)
    events := .analyzing u.path :: answers.flatMap (·.events) }

/-- The report on several units without a table. -/
def scan (c : Config) (rules : List Rule) (units : List SourceUnit) :
    Checked (Report × List Event) := do
  let found ← units.mapM (c.scanUnit rules)
  let violations := found.flatMap (·.violations)
  return ({ violations, files := units.length },
    .batchStarted units.length :: found.flatMap (·.events) ++
      [.batchFinished violations.length units.length])

end Config

namespace Analyzer

variable {a : Analyzer}

/-- The questions that an analyzer asks about a unit. -/
def calls (a : Analyzer) (u : SourceUnit) : List Call := u.calls a.listening

/-- A token is handed to a rule as a question. -/
theorem dispatch_eq_ask (a : Analyzer) (u : SourceUnit) (i : Nat) (t : Token) :
    a.dispatch u i t = fun r => a.config.ask u ⟨t, i, r⟩ := by
  funext r
  unfold dispatch Config.ask adjust Config.override
  simp only
  rcases r.check u i with e | found
  · rfl
  · rcases a.config.severityOf r.name with _ | severity
    · simp [bind, Except.bind]
    · rfl

/-- Findings that are gathered twice. -/
theorem gather_map_gather (found : List (List Inspection)) :
    gather (found.map gather) = gather found.flatten := by
  unfold gather
  simp only [List.flatMap_map, ← List.flatMap_id, List.flatMap_assoc, id]

/-- **A unit is inspected** by the answers to all questions about it. -/
theorem inspect_eq (a : Analyzer) (u : SourceUnit) :
    a.inspect u = (fun answers : List Inspection =>
      { violations := answers.flatMap (·.violations)
        events := .analyzing u.path :: answers.flatMap (·.events) }) <$>
      (a.calls u).mapM (a.config.ask u) := by
  unfold inspect calls SourceUnit.calls
  simp only [dispatch_eq_ask, Checked.mapM_flatMap, List.mapM_map, Function.comp_def,
    Checked.mapM_map_result]
  -- either the answers are there, token by token, or the first fault is
  rcases u.tokens.tokens.toList.zipIdx.mapM _ with e | answers
  · rfl
  · change Except.ok _ = Except.ok _
    rw [gather_map_gather]
    rfl

/-- A run puts the findings of the units together. -/
theorem run_eq (a : Analyzer) (units : List SourceUnit) :
    a.run units = (fun found : List Inspection =>
      ({ violations := found.flatMap (·.violations), files := units.length },
        .batchStarted units.length :: found.flatMap (·.events) ++
          [.batchFinished (found.flatMap (·.violations)).length units.length])) <$>
      units.mapM a.inspect := by
  unfold run
  rcases units.mapM a.inspect with e | found
  · rfl
  · rfl

/-! ### Without the table -/

/-- The table leads to the questions that are asked without it. -/
theorem calls_ofRules (h : ∀ r ∈ rules, r.triggers.Nodup) (c : Config) (u : SourceUnit) :
    (ofRules rules c).calls u = c.calls rules u := by
  unfold calls Config.calls
  rw [funext fun k => listening_ofRules_of_nodup h c k]
  rfl

end Analyzer

namespace Config

/-- If the rules have answers to all questions about a unit, it is scanned by putting them
together. -/
theorem scanUnit_eq_ok {answer : Rule → SourceUnit → Nat → Inspection}
    (h : ∀ r ∈ rules, ∀ i < u.tokens.size, r.check u i = .ok (answer r u i)) :
    ∃ events, c.scanUnit rules u = .ok
      { violations := (c.calls rules u).flatMap fun call =>
          c.override call.rule (answer call.rule u call.index).violations
        events } := by
  have hask : ∀ call ∈ c.calls rules u, c.ask u call = .ok
      { violations := c.override call.rule (answer call.rule u call.index).violations
        events := .dispatching call.index call.rule.name call.token.line call.token.column ::
          (answer call.rule u call.index).events } := by
    intro call hcall
    obtain ⟨-, hindex, hrule⟩ := SourceUnit.mem_calls hcall
    unfold ask
    rw [h call.rule (List.mem_of_mem_filter hrule) call.index hindex]
    rfl
  unfold scanUnit
  rw [Checked.mapM_eq_ok hask]
  refine ⟨_, congrArg Except.ok (congrArg₂ Inspection.mk ?_ rfl)⟩
  rw [List.flatMap_map]

/-- If the rules have answers to all questions about the units, these are scanned by
putting them together. -/
theorem scan_eq_ok {units : List SourceUnit} {answer : Rule → SourceUnit → Nat → Inspection}
    (h : ∀ r ∈ rules, ∀ u ∈ units, ∀ i < u.tokens.size, r.check u i = .ok (answer r u i)) :
    ∃ events, c.scan rules units = .ok
      ({ violations := units.flatMap fun u => (c.calls rules u).flatMap fun call =>
          c.override call.rule (answer call.rule u call.index).violations
         files := units.length }, events) := by
  have hunits : ∀ u ∈ units, ∃ events, c.scanUnit rules u = .ok
      { violations := (c.calls rules u).flatMap fun call =>
          c.override call.rule (answer call.rule u call.index).violations
        events } :=
    fun u hu => scanUnit_eq_ok fun r hr => h r hr u hu
  choose! events hevents using hunits
  unfold scan
  rw [Checked.mapM_eq_ok hevents]
  refine ⟨_, congrArg Except.ok (congrArg₂ Prod.mk (congrArg₂ Report.mk ?_ rfl) rfl)⟩
  rw [List.flatMap_map]

end Config

namespace Analyzer

/-- **The run with the table is the run without it**, for every list of rules in which no rule lists
a kind twice, every configuration and all units: reports, events and faults are the same. The rules
that listen to a kind are, in their order, those that are in force and list it. If the rules have
answers to all questions, there is a report: as many files as units, and unit by unit, token by
token and rule by rule the violations that each of these rules finds, with the severity that the
configuration asks for. -/
theorem run_ofRules_eq_scan (rules : List Rule) (h : ∀ r ∈ rules, r.triggers.Nodup) (c : Config)
    (units : List SourceUnit) :
    (∀ k, (ofRules rules c).listeners k =
      (rules.filter fun r => c.isEnabled r.name && r.triggers.contains k).map (·.name)) ∧
    (ofRules rules c).run units = c.scan rules units ∧
    ∀ answer : Rule → SourceUnit → Nat → Inspection,
      (∀ r ∈ rules, ∀ u ∈ units, ∀ i < u.tokens.size, r.check u i = .ok (answer r u i)) →
      ∃ events, (ofRules rules c).run units = .ok
        ({ violations := units.flatMap fun u => (c.calls rules u).flatMap fun call =>
            c.override call.rule (answer call.rule u call.index).violations
           files := units.length }, events) := by
  have hinspect : (ofRules rules c).inspect = c.scanUnit rules := by
    funext u
    rw [inspect_eq, calls_ofRules h]
    rfl
  have hrun : (ofRules rules c).run units = c.scan rules units := by
    rw [run_eq, hinspect]
    rfl
  refine ⟨?_, hrun, ?_⟩
  · intro k
    unfold listeners
    rw [listening_ofRules_of_nodup h]
  · intro answer hanswer
    rw [hrun]
    exact Config.scan_eq_ok hanswer

/-- A rule that reports every token that it is asked about. -/
def echo (name : String) (triggers : List Kind) : Rule where
  name
  code := "T000"
  triggers
  check u i := .ok (RuleId.oneError ⟨name, "T000"⟩ u i name)

/-- Three rules that listen to casts, and two of them also to comments. -/
def echoes : List Rule :=
  [echo "first" [.cast, .comment], echo "second" [.cast], echo "third" [.comment, .cast]]

/-- A configuration that switches one of them off and lowers the severity of another. -/
def echoConfig : Config where
  rules := [("third", { severity := some .warning }), ("second", { enabled := some false })]

/-- A cast and a comment behind a variable. -/
def echoUnit : SourceUnit where
  path := "echo.php"
  tokens := .ofPairs [(.variableName, "$a"), (.cast, "(int)"), (.comment, "# b")]
  comments := fun _ => .ok {}

/-- Where violations are, with their rules and severities. -/
def outline (found : List Violation) : List (Nat × String × Severity) :=
  found.map fun v => (v.location.token, v.rule, v.severity)

/-- The two rules in force are asked about the cast and about the comment, in their order. -/
theorem run_ofRules_eq_scan_echoes :
    (∀ r ∈ echoes, r.triggers.Nodup) ∧
      (ofRules echoes echoConfig).listeners .cast = ["first", "third"] ∧
      ∃ report events, (ofRules echoes echoConfig).run [echoUnit] = .ok (report, events) ∧
        report.files = 1 ∧
        outline report.violations =
          [(1, "first", .error), (1, "third", .warning), (2, "first", .error),
            (2, "third", .warning)] := by
  have hnodup : ∀ r ∈ echoes, r.triggers.Nodup := by simp [echoes, echo]
  obtain ⟨hlisteners, -, hrun⟩ := run_ofRules_eq_scan echoes hnodup echoConfig [echoUnit]
  refine ⟨hnodup, ?_, ?_⟩
  · rw [hlisteners]
    decide
  · obtain ⟨events, heq⟩ := hrun (fun r u i => r.oneError u i r.name) (by simp [echoes, echo])
    refine ⟨_, events, heq, rfl, ?_⟩
    decide +kernel

end Analyzer

end PhpStyle
