import GpuAudit.Trace.Calls
import GpuAudit.Json.Parser
import GpuAudit.Json.Printer

/-!
# Traces

A trace is a list of entries: calls with the driver's answer, and completion
reports.  In JSON it is an array, and an entry is an object with the member `call`,
and perhaps `result`, or with the member `complete`.  Where both readings are
possible the entry is a call.

A trace is kept as a whole while its entries are told apart, so it may not nest
deeper than `Trace.maxNesting`, and every string and number in it must have a value.
-/

namespace GpuAudit

open Json

/-- One entry of a trace. -/
inductive TraceEntry
  | call (call : Call) (result : CallResult)
  | complete (completion : Completion)
deriving DecidableEq, Repr

namespace TraceEntry

/-- The name of an entry in reports. -/
def name : TraceEntry → String
  | call c _ => c.name
  | complete c => s!"Completion({c.queue}, {c.sequence})"

/-- Writes an entry, the answer always included. -/
def toJson : TraceEntry → Value
  | call c result => .object [("call", c.toJson), ("result", result.toJson)]
  | complete c => .object [("complete", c.toJson)]

/-- The fields of a call entry. -/
def callRecord : Record TraceEntry := do
  let c ← Record.required "call" Call.ofJson?
  let result ← Record.withDefault "result" .success CallResult.ofJson?
  return .call c result

/-- The field of a completion entry. -/
def completeRecord : Record TraceEntry := do
  return .complete (← Record.required "complete" Completion.ofJson?)

/-- Reads an entry; a call if both readings are possible. -/
def ofJson? : Decoder TraceEntry
  | .object ms => callRecord.decode (.object ms) <|> completeRecord.decode (.object ms)
  | _ => none

end TraceEntry

/-- A recorded trace. -/
abbrev Trace := List TraceEntry

namespace Trace

/-- How deep the arrays and objects of a trace may nest. -/
def maxNesting : Nat := 127

/-- Writes the entries of a trace in order. -/
def toJson (t : Trace) : Value := .array (t.map TraceEntry.toJson)

/-- The entries of a JSON value. -/
def ofJson? : Decoder Trace := listOf TraceEntry.ofJson?

/-- Writes a trace. -/
def toText (t : Trace) : String := t.toJson.compact

/-- Reads a trace. -/
def ofText? (s : String) : Option Trace := do
  ofJson? (← Value.ofTextWithin? maxNesting s)

/-- What is said of a text that is no trace. -/
def notATrace : String := "trace must be a JSON list of call or completion entries"

end Trace

end GpuAudit
