import GpuAudit.Diagnostic

/-!
# Configuration

What a user can choose: which diagnostics are delivered, whether a call with an
error is to be skipped, whether a device with contradictory books is validated
further, and how often a wait for a fence looks again.
-/

namespace GpuAudit

/-- Choices about validation. -/
structure ValidationConfig where
  /-- Ask to skip calls that raised an error. -/
  suppressOnError : Bool := true
  /-- The mildest severity that is delivered. -/
  minSeverity : Severity := .warning
  /-- Stop validating a device after an internal error. -/
  haltOnInternalError : Bool := true
deriving DecidableEq, Repr, Inhabited

/-- Choices about fences. -/
structure FenceConfig where
  /-- Milliseconds between two looks of a wait, as chosen. -/
  pollIntervalMs : UInt64 := 5
deriving DecidableEq, Repr, Inhabited

/-- Milliseconds between two looks of a wait, as used: never zero. -/
def FenceConfig.pollInterval (c : FenceConfig) : UInt64 := max c.pollIntervalMs 1

/-- All choices. -/
structure Config where
  /-- About validation. -/
  validation : ValidationConfig := {}
  /-- About fences. -/
  fence : FenceConfig := {}
deriving DecidableEq, Repr, Inhabited

end GpuAudit
