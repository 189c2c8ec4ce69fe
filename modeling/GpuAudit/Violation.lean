import GpuAudit.Diagnostic

/-!
# Violations

A `Violation` says what rule an operation would break and which objects take
part.  It has a kind, a list of objects and a message, and so becomes a
diagnostic.  Only a violation of the books themselves, `internal`, is fatal.

The last section names the causes that arise in more than one place.
-/

namespace GpuAudit

/-- What an operation would violate. -/
inductive Violation
  | invalidObject (handle : Handle) (detail : String)
  | invalidCommandBuffer (commandBuffer : Handle) (detail : String)
  | invalidState (handle : Handle) (detail : String)
  | rebind (resource current requested : Handle)
  | clearEmptyBindings (resource : Handle) (memory : Option Handle)
  | missingBindings (handle : Handle)
  | binding (resource memory : Handle) (detail : String)
  | freedMemRef (memory : Handle) (bindings commandBuffers : List Handle)
  | memoryLeak (memory device : Handle) (size : UInt64)
  | resetWhileInFlight (commandBuffers : List Handle)
  | invalidFenceState (fence : Handle) (detail : String)
  | invalidUsage (resource : Handle) (detail : String)
  | invalidMap (memory : Handle) (detail : String)
  | internal (objects : List Handle) (detail : String)
deriving DecidableEq, Repr, Inhabited

namespace Violation

/-- The kind under which a violation is reported. -/
def kind : Violation → ViolationKind
  | invalidObject .. => .invalidObject
  | invalidCommandBuffer .. => .invalidCommandBuffer
  | invalidState .. => .invalidState
  | rebind .. => .rebindObject
  | clearEmptyBindings .. => .clearEmptyBindings
  | missingBindings .. => .missingBindings
  | binding .. => .bindingError
  | freedMemRef .. => .freedMemRef
  | memoryLeak .. => .memoryLeak
  | resetWhileInFlight .. => .resetWhileInFlight
  | invalidFenceState .. => .invalidFenceState
  | invalidUsage .. => .invalidUsageFlag
  | invalidMap .. => .invalidMap
  | internal .. => .internalError

/-- The objects a violation concerns, most relevant first. -/
def objects : Violation → List Handle
  | invalidObject handle _ | invalidState handle _ | missingBindings handle => [handle]
  | invalidCommandBuffer cb _ => [cb]
  | rebind resource current requested => [resource, current, requested]
  | clearEmptyBindings resource memory => resource :: memory.toList
  | binding resource memory _ => [resource, memory]
  | freedMemRef memory bindings commandBuffers => memory :: (bindings ++ commandBuffers)
  | memoryLeak memory device _ => [memory, device]
  | resetWhileInFlight commandBuffers => commandBuffers
  | invalidFenceState fence _ => [fence]
  | invalidUsage resource _ => [resource]
  | invalidMap memory _ => [memory]
  | internal objects _ => objects

/-- What a violation says to the reader of a report. -/
def message : Violation → String
  | invalidObject handle detail => s!"invalid {handle}: {detail}"
  | invalidCommandBuffer cb detail => s!"{cb}: {detail}"
  | invalidState handle detail => s!"{handle}: {detail}"
  | rebind resource current requested =>
      s!"{resource} is already bound to {current}; cannot bind to {requested} (non-sparse bindings are immutable)"
  | clearEmptyBindings resource none => s!"{resource} has no binding to clear"
  | clearEmptyBindings resource (some memory) =>
      s!"{resource} has no binding to clear on {memory}"
  | missingBindings handle => s!"no memory bindings found for {handle}"
  | binding resource memory detail => s!"binding {resource} to {memory} failed: {detail}"
  | freedMemRef memory bindings commandBuffers =>
      let count := bindings.length + commandBuffers.length
      let bound := Handle.names bindings
      let recorded := Handle.names commandBuffers
      s!"{memory} freed with {count} outstanding reference(s): bindings [{bound}], command buffers [{recorded}]"
  | memoryLeak memory device size =>
      s!"{memory} ({size} bytes) was not freed before {device} was destroyed"
  | resetWhileInFlight commandBuffers =>
      let blockers := Handle.names commandBuffers
      s!"work submitted with [{blockers}] has not retired"
  | invalidFenceState fence detail => s!"{fence}: {detail}"
  | invalidUsage resource detail => s!"{resource}: {detail}"
  | invalidMap memory detail => s!"{memory}: {detail}"
  | internal _ detail => s!"internal tracker error: {detail}"

/-- Whether the books of the device can no longer be relied on. -/
def isFatal : Violation → Bool
  | internal .. => true
  | _ => false

/-- The diagnostic that reports a violation. -/
def toDiagnostic (v : Violation) : Diagnostic :=
  ⟨v.kind, v.kind.defaultSeverity, v.objects, v.message⟩

/-- The diagnostic that reports a violation which the call may go on in spite of. -/
def toWarning (v : Violation) : Diagnostic := { v.toDiagnostic with severity := .warning }

/-! ## Causes -/

/-- A handle that names no live object. -/
def notRegistered (h : Handle) : Violation := .invalidObject h "handle is not registered"

/-- A handle that names a live object already. -/
def alreadyRegistered (h : Handle) : Violation := .invalidObject h "handle is already registered"

/-- A handle of another kind than the call needs. -/
def wrongKind (h : Handle) (expected : ObjectKind) : Violation :=
  .invalidObject h s!"expected a {expected} handle"

/-- A null handle where the call creates an object. -/
def nullHandle (h : Handle) : Violation := .invalidObject h "null handle"

/-- A handle that stands twice in a list. -/
def listedTwice (h : Handle) : Violation := .invalidObject h "listed more than once"

/-- A device without a session. -/
def untrackedDevice (device : Handle) : Violation :=
  .invalidObject device "device is not tracked"

end Violation

end GpuAudit
