import GpuAudit.Layer
import GpuAudit.Trace

/-!
# Replaying traces

`Trace.replay` feeds the entries of a trace to a fresh layer.  A call that the layer
asks to skip does not reach the hook after the call.  The report has each delivered
diagnostic with the number and the name of the entry that raised it.
-/

namespace GpuAudit

/-- A delivered diagnostic and the entry that raised it. -/
structure Finding where
  /-- The number of the entry, from zero. -/
  entry : Nat
  /-- The name of the entry. -/
  call : String
  /-- What was found. -/
  diagnostic : Diagnostic
deriving DecidableEq, Repr

/-- What a replay has found. -/
structure Report where
  /-- How many entries the trace has. -/
  entries : Nat
  /-- How many calls the layer asked to skip. -/
  skipped : Nat
  /-- What was delivered, in order. -/
  findings : List Finding
deriving DecidableEq, Repr, Inhabited

namespace Report

/-- Whether an error was found. -/
def hasErrors (r : Report) : Bool := r.findings.any (·.diagnostic.isError)

/-- How many findings have a severity. -/
def count (r : Report) (s : Severity) : Nat := r.findings.countP (·.diagnostic.severity = s)

end Report

namespace Layer

/-- What an entry of a trace does to the layer.  The answer is whether the layer asks
to skip it. -/
def replayEntry : TraceEntry → Logged Layer Bool
  | .call call result => do
      let before ← preCall call
      if before.skipCall then return true
      discard (postCall call result)
      return false
  | .complete completion => do
      send completion
      discard processCompletions
      return false

/-- What the entries of a trace do to the layer, from the entry with a number on. -/
def replayFrom (index : Nat) (l : Layer) : Trace → List (Bool × List Finding)
  | [] => []
  | entry :: entries =>
      let o := (replayEntry entry).run l
      let findings := (o.notes.filterMap (·.delivery?)).map (⟨index, entry.name, ·⟩)
      (o.value, findings) :: replayFrom (index + 1) o.state entries

end Layer

/-- Replays a trace on a fresh layer. -/
def Trace.replay (config : Config) (t : Trace) : Report :=
  let answers := Layer.replayFrom 0 (.start config) t
  ⟨t.length, answers.countP (·.1), answers.flatMap (·.2)⟩

end GpuAudit
