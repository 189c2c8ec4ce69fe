import GpuAudit.Handle

/-!
# Diagnostics

A `Diagnostic` is one reported violation of the rules for a graphics device: its
kind, how severe it is, the objects concerned and a message.  Each kind has a
default severity.  A diagnostic of severity `error` or above is an error.
-/

namespace GpuAudit

/-- The kinds of violation. -/
inductive ViolationKind
  /-- A handle is unknown or of the wrong kind. -/
  | invalidObject
  /-- A command buffer is used outside its legal state. -/
  | invalidCommandBuffer
  /-- An object is not in the state the call requires. -/
  | invalidState
  /-- A binding that cannot be changed is bound again. -/
  | rebindObject
  /-- A binding that does not exist is removed. -/
  | clearEmptyBindings
  /-- No binding where at least one is expected. -/
  | missingBindings
  /-- A binding that does not fit. -/
  | bindingError
  /-- Memory is freed while something refers to it. -/
  | freedMemRef
  /-- An allocation is left when its device goes. -/
  | memoryLeak
  /-- A command buffer is reset or destroyed while in flight. -/
  | resetWhileInFlight
  /-- A fence is reused or reset while its work is in flight. -/
  | invalidFenceState
  /-- A resource was not created for this use. -/
  | invalidUsageFlag
  /-- A mapped range does not fit its allocation. -/
  | invalidMap
  /-- The books of a device contradict each other. -/
  | internalError
deriving DecidableEq, Repr, Inhabited

/-- How severe a diagnostic is, mildest first. -/
inductive Severity
  | info
  | warning
  | error
  /-- Validation of the device cannot go on. -/
  | fatal
deriving DecidableEq, Repr, Inhabited

namespace Severity

/-- The place of a severity in their order. -/
def rank : Severity → Nat
  | info => 0
  | warning => 1
  | error => 2
  | fatal => 3

instance : LE Severity := ⟨fun a b => a.rank ≤ b.rank⟩

instance (a b : Severity) : Decidable (a ≤ b) := Nat.decLe a.rank b.rank

/-- The word for a severity. -/
def name : Severity → String
  | info => "info"
  | warning => "warning"
  | error => "error"
  | fatal => "fatal"

end Severity

namespace ViolationKind

/-- The word for a kind in reports. -/
def name : ViolationKind → String
  | invalidObject => "InvalidObject"
  | invalidCommandBuffer => "InvalidCB"
  | invalidState => "InvalidState"
  | rebindObject => "RebindObject"
  | clearEmptyBindings => "ClearEmptyBindings"
  | missingBindings => "MissingMemBindings"
  | bindingError => "MemoryBindingError"
  | freedMemRef => "FreedMemRef"
  | memoryLeak => "MemoryLeak"
  | resetWhileInFlight => "ResetCbWhileInFlight"
  | invalidFenceState => "InvalidFenceState"
  | invalidUsageFlag => "InvalidUsageFlag"
  | invalidMap => "InvalidMap"
  | internalError => "InternalError"

/-- The severity of a violation unless the report says otherwise. -/
def defaultSeverity : ViolationKind → Severity
  | internalError => .fatal
  | clearEmptyBindings | missingBindings | memoryLeak => .warning
  | _ => .error

end ViolationKind

/-- One reported violation. -/
structure Diagnostic where
  /-- What rule was broken. -/
  kind : ViolationKind
  /-- How severe that is. -/
  severity : Severity
  /-- The objects concerned, most relevant first. -/
  objects : List Handle
  /-- What happened. -/
  message : String
deriving DecidableEq, Repr, Inhabited

namespace Diagnostic

/-- Whether a diagnostic is of severity `error` or above. -/
def isError (d : Diagnostic) : Bool := Severity.error ≤ d.severity

/-- A diagnostic on one line. -/
def line (d : Diagnostic) : String :=
  "[" ++ d.severity.name ++ "] " ++ d.kind.name ++ ": " ++ d.message

end Diagnostic

end GpuAudit
