import GpuAudit.Replay

/-!
# Report formats

A report is shown to people as coloured lines with a summary, and to programs as
JSON on indented lines.  Both end with a newline.
-/

namespace GpuAudit

open Json

/-! ## For people -/

/-- The label of a severity, padded to one width. -/
def Severity.tag : Severity → String
  | info => "[INFO] "
  | warning => "[WARN] "
  | error => "[ERROR]"
  | fatal => "[FATAL]"

/-- The sequence that switches a terminal to the colour of a severity. -/
def Severity.colour : Severity → String
  | info => "\x1b[90m"
  | warning => "\x1b[33m"
  | error => "\x1b[31m"
  | fatal => "\x1b[1;31m"

/-- The sequence that switches the colour off. -/
def plainColour : String := "\x1b[0m"

namespace Finding

/-- A finding on one line. -/
def line (f : Finding) : String :=
  let d := f.diagnostic
  let label := d.severity.colour ++ d.severity.tag ++ plainColour
  s!"  {label} #{f.entry} {f.call} - {d.kind.name}: {d.message}\n"

/-- The members that write a finding. -/
def toJson (f : Finding) : Value :=
  .object ([("entry", .nat f.entry), ("call", .string f.call)] ++ f.diagnostic.members)

end Finding

namespace Report

/-- The last line of a report. -/
def summary (r : Report) : String :=
  let errors := r.count .error + r.count .fatal
  let warnings := r.count .warning
  s!"  {r.entries} entries, {r.skipped} skipped, {errors} errors, {warnings} warnings\n"

/-- A report for people. -/
def pretty (r : Report) : String :=
  "\nmemtrack replay\n===============\n\n" ++
    String.join (r.findings.map Finding.line) ++
    (if r.findings.isEmpty then "" else "\n") ++
    "-------------------------------\n" ++ r.summary ++ "\n"

/-! ## For programs -/

/-- A report as a JSON value. -/
def toJson (r : Report) : Value :=
  .object [("entries", .nat r.entries), ("skipped", .nat r.skipped),
    ("diagnostics", .array (r.findings.map Finding.toJson))]

/-- A report for programs. -/
def json (r : Report) : String := r.toJson.pretty ++ "\n"

/-! ## Tests -/

example : summary ⟨3, 1, [⟨0, "UnmapMemory", ⟨.invalidMap, .error, [], ""⟩⟩]⟩
    = "  3 entries, 1 skipped, 1 errors, 0 warnings\n" := by decide +kernel
example : Finding.line ⟨2, "FreeMemory", ⟨.freedMemRef, .warning, [], "late"⟩⟩
    = "  \x1b[33m[WARN] \x1b[0m #2 FreeMemory - FreedMemRef: late\n" := by decide +kernel

end Report

end GpuAudit
