import GpuAudit.Config
import GpuAudit.Logged

/-!
# Verdicts and their delivery

A `Verdict` is the answer to one call: the diagnostics it raised and whether the
call should be skipped.  Diagnostics of the chosen severity or above are delivered
to a listener, which either collects them or writes them to the log.
-/

namespace GpuAudit

/-! ## Verdicts -/

/-- The answer to one call. -/
structure Verdict where
  /-- What was found, in order. -/
  diagnostics : List Diagnostic := []
  /-- Whether the call should not be forwarded to the driver. -/
  skipCall : Bool := false
deriving DecidableEq, Repr, Inhabited

namespace Verdict

/-- Nothing found. -/
def pass : Verdict := {}

/-- Whether no error was found. -/
def passed (v : Verdict) : Bool := !v.diagnostics.any (·.isError)

/-- Whether something of a kind was found. -/
def has (v : Verdict) (kind : ViolationKind) : Bool := v.diagnostics.any (·.kind = kind)

/-- Both verdicts, the first one's diagnostics first. -/
def merge (v w : Verdict) : Verdict :=
  ⟨v.diagnostics ++ w.diagnostics, v.skipCall || w.skipCall⟩

end Verdict

namespace ValidationConfig

/-- The diagnostics that are delivered. -/
def delivered (c : ValidationConfig) (ds : List Diagnostic) : List Diagnostic :=
  ds.filter fun d => c.minSeverity ≤ d.severity

/-- The verdict on what was found. -/
def verdict (c : ValidationConfig) (ds : List Diagnostic) : Verdict :=
  ⟨ds, c.suppressOnError && ds.any (·.isError)⟩

end ValidationConfig

/-! ## The log -/

/-- A line of the log. -/
structure LogLine where
  /-- How important it is. -/
  level : LogLevel
  /-- What it says. -/
  message : String
  /-- The kind of violation it reports, if it reports one. -/
  kind : Option ViolationKind := none
  /-- Whether it reports that validation cannot go on. -/
  fatal : Bool := false
deriving DecidableEq, Repr

/-- The place of a level in their order, most important first. -/
def LogLevel.rank : LogLevel → Nat
  | error => 0
  | warn => 1
  | info => 2
  | debug => 3

/-- The word for a level. -/
def LogLevel.name : LogLevel → String
  | error => "error"
  | warn => "warn"
  | info => "info"
  | debug => "debug"

/-- The level at which a severity is logged. -/
def Severity.logLevel : Severity → LogLevel
  | info => .info
  | warning => .warn
  | error | fatal => .error

/-- Who receives the diagnostics. -/
inductive Listener
  /-- Keeps them for whoever asks later. -/
  | collecting
  /-- Writes them to the log. -/
  | logging
deriving DecidableEq, Repr

/-- The line that the delivery of a diagnostic leaves in the log. -/
def Listener.logLine : Listener → Diagnostic → LogLine
  | collecting, d => { level := .debug, message := "collected " ++ d.line }
  | logging, d =>
      { level := d.severity.logLevel, message := d.message, kind := some d.kind,
        fatal := d.severity = .fatal }

/-- The lines that notes leave in the log, down to a level. -/
def Listener.logLines (listener : Listener) (lowest : LogLevel) (notes : List Note) :
    List LogLine :=
  let lines := notes.filterMap fun
    | .log level message => some { level, message }
    | .warning _ => none
    | .delivery d => some (listener.logLine d)
  lines.filter fun line => line.level.rank ≤ lowest.rank

/-! ## Collected diagnostics -/

/-- The diagnostics a collecting listener has and nobody has taken yet. -/
structure Collection where
  /-- Oldest first. -/
  diagnostics : List Diagnostic := []
deriving DecidableEq, Repr, Inhabited

namespace Collection

/-- Keeps a delivered diagnostic. -/
def receive (d : Diagnostic) : Logged Collection Unit := do
  modify fun c => { c with diagnostics := c.diagnostics ++ [d] }
  Logged.leave [.delivery d]

/-- Hands out everything kept. -/
def take : Logged Collection (List Diagnostic) := do
  let c ← get
  set ({} : Collection)
  return c.diagnostics

end Collection

end GpuAudit
