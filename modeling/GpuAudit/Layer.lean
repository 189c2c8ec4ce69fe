import GpuAudit.Validation
import GpuAudit.Verdict

/-!
# The validation layer

The layer keeps the books of every device between a client and the driver.
`preCall` runs before a call is forwarded and `postCall` after the driver has
answered.  Completion reports wait in `pending` until the next hook applies them.

An internal error halts the session of its device: from then on no call changes
its records or is validated.
-/

namespace GpuAudit

/-- What the layer keeps of one device. -/
structure Session where
  /-- The records of the device. -/
  trackers : Trackers
  /-- Whether validation has stopped. -/
  halted : Bool
deriving DecidableEq, Inhabited

/-- The state of the validation layer. -/
structure Layer where
  /-- What the user has chosen. -/
  config : Config
  /-- The devices that are tracked. -/
  sessions : Std.ExtTreeMap Handle Session
  /-- The device that owns each queue, command buffer and allocation. -/
  owners : Owners
  /-- Retirements that have been reported and not applied, oldest first. -/
  pending : List Retirement
deriving DecidableEq, Inhabited

namespace Layer

/-- A layer before the first call. -/
def start (config : Config) : Layer := ⟨config, ∅, ∅, []⟩

/-! ## Finding the session -/

/-- The session of a device. -/
def deviceSession (l : Layer) (device : Handle) : Except Violation (Handle × Session) :=
  match l.sessions[device]? with
  | some session => .ok (device, session)
  | none => .error (.untrackedDevice device)

/-- The session of the device that owns an object. -/
def owningSession (l : Layer) (object : Handle) : Except Violation (Handle × Session) :=
  match l.owners[object]? with
  | some device => l.deviceSession device
  | none => .error (.invalidObject object "not owned by any tracked device")

/-- The session that a call is about. -/
def sessionFor (l : Layer) (call : Call) : Except Violation (Handle × Session) :=
  match call.scope with
  | .device device => l.deviceSession device
  | .owner object => l.owningSession object

/-! ## Changing the layer -/

/-- Puts a session in the place of the one a device has. -/
def putSession (device : Handle) (session : Session) : Logged Layer Unit :=
  modify fun l => { l with sessions := l.sessions.insert device session }

/-- Stops the validation of a device. -/
def halt (device : Handle) : Logged Layer Unit :=
  modify fun l =>
    { l with sessions := l.sessions.modify device fun session => { session with halted := true } }

/-- Leaves a line in the log. -/
def log (level : LogLevel) (message : String) : Logged Layer Unit :=
  Logged.leave [.log level message]

/-- Runs an operation on the records of a session.  The answer has the warnings
beside the operation's own answer. -/
def runOn {α : Type} (device : Handle) (session : Session) (x : Track Trackers α) :
    Logged Layer (Except Violation α × List Diagnostic) := do
  let o := x.on session.trackers
  putSession device { session with trackers := o.state }
  Logged.leave (o.notes.filter (·.warning?.isNone))
  return (o.value, o.notes.filterMap (·.warning?))

/-- The end of every hook: halts the session after an internal error, delivers what
was found and gives the verdict. -/
def conclude (device : Option Handle) (outcome : Except Violation Unit)
    (warnings : List Diagnostic) : Logged Layer Verdict := do
  let choices := (← get).config.validation
  let found ← match outcome with
    | .ok () => pure warnings
    | .error v =>
        if v.isFatal && choices.haltOnInternalError then
          if let some device := device then
            log .error s!"halting validation of {device}: {v.message}"
            halt device
        pure (warnings ++ [v.toDiagnostic])
  Logged.leave ((choices.delivered found).map .delivery)
  return choices.verdict found

/-! ## Completions -/

/-- Takes in a completion report, to be applied by the next hook. -/
def send (c : Completion) : Logged Layer Unit :=
  modify fun l => { l with pending := l.pending ++ [c.retirement] }

/-- Applies one retirement. -/
def applyRetirement (r : Retirement) : Logged Layer Verdict := do
  match (← get).owningSession r.queue with
  | .error v => conclude none (.error v) []
  | .ok (device, session) =>
      if session.halted then return .pass
      let (outcome, _) ← runOn device session (Trackers.retireUpTo r)
      conclude (some device) (outcome.map fun _ => ()) []

/-- Applies every retirement that has been reported. -/
def processCompletions : Logged Layer Verdict := do
  let reported := (← get).pending
  modify fun l => { l with pending := [] }
  reported.foldlM (fun v r => return v.merge (← applyRetirement r)) Verdict.pass

/-- Retires a queue up to a sequence id at once.  A halted session answers that
nothing was retired. -/
def retireUpTo (r : Retirement) : Logged Layer (Except Violation (List Batch)) := do
  match (← get).owningSession r.queue with
  | .error v => return .error v
  | .ok (device, session) =>
      if session.halted then return .ok []
      let (outcome, _) ← runOn device session (Trackers.retireUpTo r)
      if let .error v := outcome then
        discard (conclude (some device) (.error v) [])
      return outcome

/-- Whether a fence is signaled after the reported completions. -/
def fenceStatus (device fence : Handle) : Logged Layer (Except Violation Bool) := do
  discard processCompletions
  match (← get).deviceSession device with
  | .error v => return .error v
  | .ok (_, session) => return session.trackers.queues.fenceStatus fence

/-! ## Waiting for a fence -/

/-- A pause between two looks at a fence, as the clock and the channel for reports have it. -/
structure Pause where
  /-- When it begins, in milliseconds. -/
  begins : Nat
  /-- The report that ends it, if one comes in the milliseconds that it may take. -/
  receive : Nat → Option Completion
  /-- What else has been reported when it is over. -/
  queued : List Completion

/-- How long a pause may take: the poll interval, and not beyond the deadline. -/
def Pause.limit (p : Pause) (poll : UInt64) : Option Nat → Nat
  | some deadline => min poll.toNat (deadline - p.begins)
  | none => poll.toNat

/-- A pause between two looks: the report that ends it is applied, and the others wait for
the next look. -/
def rest (deadline : Option Nat) (p : Pause) : Logged Layer Unit := do
  let poll := (← get).config.fence.pollInterval
  if let some c := p.receive (p.limit poll deadline) then
    discard (applyRetirement c.retirement)
  p.queued.forM send

/-- Waits for a fence through the pauses that are given: looks at it, and pauses, until it is
signaled or a look comes after the deadline.  Without an answer the wait goes on. -/
def awaitFence (device fence : Handle) (deadline : Option Nat) :
    List Pause → Logged Layer (Option (Except Violation Bool))
  | [] => return none
  | p :: later => do
      match ← fenceStatus device fence with
      | .ok false =>
          if deadline.any (· ≤ p.begins) then
            return some (.ok false)
          rest deadline p
          awaitFence device fence deadline later
      | answer => return some answer

/-- Waits for a fence while nobody reports completions: every look is then like the first
(`awaitFence_quiet`). -/
def waitFence (device fence : Handle) : Logged Layer (Except Violation Bool) :=
  fenceStatus device fence

/-! ## Hooks -/

/-- Refuses a device that cannot be created under a handle. -/
def checkNewDevice (l : Layer) (device : Handle) : Except Violation Unit := do
  Registry.checkKind .device device
  if l.sessions.contains device then
    .error (.invalidObject device "device is already tracked")
  else .ok ()

/-- Ends the session of a device and reports the allocations it leaves. -/
def destroyDevice (device : Handle) : Logged Layer Verdict := do
  match (← get).deviceSession device with
  | .error v => conclude none (.error v) []
  | .ok (_, session) =>
      modify fun l =>
        { l with
          sessions := l.sessions.erase device
          owners := l.owners.filter fun _ owner => owner ≠ device }
      let leaks ←
        if session.halted then pure []
        else do
          let o := (MemoryTracker.leaks device).on session.trackers.memory
          Logged.leave o.notes
          pure (o.value.toOption.getD [])
      log .info s!"stopped tracking {device} ({leaks.length} leaked allocation(s))"
      conclude none (.ok ()) (leaks.map (·.toDiagnostic))

/-- Validates a call on the session it is about. -/
def validateCall (call : Call) : Logged Layer Verdict := do
  let l ← get
  match l.sessionFor call with
  | .error v => conclude none (.error v) []
  | .ok (device, session) =>
      if session.halted then return .pass
      let (outcome, warnings) ← runOn device session (Trackers.validate l.owners device call)
      if let .ok released := outcome then
        modify fun l => { l with owners := released.foldl (·.erase ·) l.owners }
      let word := if outcome.isOk then "ok" else "rejected"
      log .debug s!"pre {call.name}: {word}"
      conclude (some device) (outcome.map fun _ => ()) warnings

/-- The hook before a call is forwarded to the driver. -/
def preCall (call : Call) : Logged Layer Verdict := do
  let earlier ← processCompletions
  let own ← match call with
    | .createDevice device => do conclude none ((← get).checkNewDevice device) []
    | .destroyDevice device => destroyDevice device
    | _ => validateCall call
  return earlier.merge own

/-- Begins the session of a new device. -/
def createDevice (device : Handle) : Logged Layer Unit := do
  if ((← get).checkNewDevice device).isOk then
    putSession device ⟨.empty, false⟩
    log .info s!"tracking {device}"

/-- Enters what a successful call has created or observed. -/
def recordCall (call : Call) : Logged Layer Verdict := do
  match (← get).sessionFor call with
  | .error v => conclude none (.error v) []
  | .ok (device, session) =>
      if session.halted then return .pass
      let (outcome, _) ← runOn device session (Trackers.recordCreation device call)
      if let .ok gained := outcome then
        modify fun l => { l with owners := gained.foldl (·.insert · device) l.owners }
      let own ← conclude (some device) (outcome.map fun _ => ()) []
      modify fun l =>
        { l with pending := l.pending ++ session.trackers.impliedRetirements call }
      return own.merge (← processCompletions)

/-- The hook after the driver has answered.  Only success changes anything. -/
def postCall (call : Call) (result : CallResult) : Logged Layer Verdict := do
  match result, call with
  | .success, .createDevice device => do
      createDevice device
      return .pass
  | .success, .destroyDevice _ => return .pass
  | .success, _ => recordCall call
  | _, _ => return .pass

end Layer

end GpuAudit
