import PhpStyle.Violation

/-!
# Reports

A `Report` holds the violations of a run and the number of files it covered. `Report.text` is its
written form, which shows the violations that reach a threshold and counts all of them.
-/

namespace PhpStyle

/-- The outcome of a run. -/
structure Report where
  /-- The violations, in the order in which they were found. -/
  violations : List Violation := []
  /-- The number of files. -/
  files : Nat := 0
  deriving DecidableEq, Repr

namespace Report

/-- Whether an error was found. -/
def hasErrors (r : Report) : Bool := r.violations.any (·.severity == .error)

/-- Whether anything was found. -/
def hasWarnings (r : Report) : Bool := !r.violations.isEmpty

/-- The violations of one severity. -/
def ofSeverity (r : Report) (s : Severity) : List Violation :=
  r.violations.filter (·.severity == s)

/-- The number of errors. -/
def errors (r : Report) : Nat := (r.ofSeverity .error).length

/-- The number of other violations. -/
def warnings (r : Report) : Nat := r.violations.length - r.errors

/-- The violations that are at least as grave as the threshold. -/
def reaching (r : Report) (threshold : Severity) : List Violation :=
  r.violations.filter (·.severity.reaches threshold)

/-- Whether the run fails at the given threshold. -/
def fails (r : Report) (threshold : Severity) : Bool :=
  r.violations.any (·.severity.reaches threshold)

/-- One run after another. -/
def append (r s : Report) : Checked Report := do
  let files ← plus r.files s.files
  return { violations := r.violations ++ s.violations, files }

/-- The written report. -/
def text (r : Report) (threshold : Severity) : String :=
  let shown := r.reaching threshold
  s!"\n=== stubble-lint: {shown.length} violation(s) ===\n\n" ++
    String.join (shown.map fun v => v.entry ++ "\n") ++
    s!"Total: {r.errors} error(s), {r.warnings} warning(s) in {r.files} file(s)\n"

end Report

end PhpStyle
