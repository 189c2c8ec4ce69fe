import GpuAudit.Queue

/-!
# Command pools and command buffers

A command buffer is allocated from a pool and moves from *initial* to *recording*
to *executable*, and back to initial when it is reset.  While it records it
collects the allocations its commands touch, and holds them until it is reset or
destroyed.  Both are refused while its last submission is in flight.

Here are the records and the changes that concern no other books.
`GpuAudit.Recording` has those that also change memory records.
-/

namespace GpuAudit

/-! ## Records -/

/-- The states of a command buffer. -/
inductive CommandBufferState
  | initial
  | recording
  | executable
deriving DecidableEq, Repr, Inhabited

namespace CommandBufferState

/-- The word for a state. -/
def name : CommandBufferState → String
  | initial => "initial"
  | recording => "recording"
  | executable => "executable"

instance : ToString CommandBufferState := ⟨name⟩

end CommandBufferState

/-- What is known of one command buffer. -/
structure CommandBuffer where
  /-- The pool it was allocated from. -/
  pool : Handle
  /-- Its state. -/
  state : CommandBufferState
  /-- How it was begun. -/
  usage : CommandBufferUsage
  /-- The allocations its commands touch. -/
  memoryRefs : Std.ExtTreeSet Handle
  /-- Where it was last submitted since it was begun. -/
  lastSubmission : Option Submission
deriving DecidableEq

namespace CommandBuffer

/-- A fresh command buffer of a pool. -/
def fresh (pool : Handle) : CommandBuffer := ⟨pool, .initial, .empty, ∅, none⟩

end CommandBuffer

/-- What is known of one command pool. -/
structure CommandPool where
  /-- How it was created. -/
  flags : CommandPoolFlags
  /-- The command buffers allocated from it. -/
  buffers : Std.ExtTreeSet Handle
deriving DecidableEq

/-- The command pools and command buffers of a device. -/
structure CommandTracker where
  /-- Records of pools. -/
  pools : Registry .commandPool CommandPool
  /-- Records of command buffers. -/
  buffers : Registry .commandBuffer CommandBuffer
deriving DecidableEq, Inhabited

namespace CommandTracker

/-- No pool and no command buffer. -/
def empty : CommandTracker := ⟨.empty, .empty⟩

/-! ## Questions -/

/-- The record of a pool. -/
def pool (t : CommandTracker) (h : Handle) : Except Violation CommandPool := t.pools.lookup h

/-- The record of a command buffer. -/
def lookup (t : CommandTracker) (h : Handle) : Except Violation CommandBuffer := t.buffers.lookup h

/-- Whether a handle names a command buffer. -/
def contains (t : CommandTracker) (h : Handle) : Bool := t.buffers.contains h

/-- The command buffers of a pool, in ascending order. -/
def owned (t : CommandTracker) (pool : Handle) : Except Violation (List Handle) := do
  return (← t.pool pool).buffers.toList

/-- Refuses a list that names a handle twice; the first repeat is reported. -/
def checkDistinct : List Handle → List Handle → Except Violation Unit
  | _, [] => .ok ()
  | seen, h :: hs => if h ∈ seen then .error (.listedTwice h) else checkDistinct (h :: seen) hs

/-- Refuses a list of handles that names one twice. -/
def ensureDistinct (hs : List Handle) : Except Violation Unit := checkDistinct [] hs

/-- Whether the last submission of a command buffer has not retired. -/
def isInFlight (t : CommandTracker) (queues : QueueTracker) (cb : Handle) : Bool :=
  match (t.buffers.find? cb).bind (·.lastSubmission) with
  | some submission => !queues.isRetired submission
  | none => false

/-- The command buffers of a list whose last submission has not retired. -/
def inFlight (t : CommandTracker) (queues : QueueTracker) (cbs : List Handle) : List Handle :=
  cbs.filter (t.isInFlight queues)

/-- Refuses command buffers of which one is in flight. -/
def ensureRetired (t : CommandTracker) (queues : QueueTracker) (cbs : List Handle) :
    Except Violation Unit :=
  let blockers := t.inFlight queues cbs
  if blockers.isEmpty then .ok () else .error (.resetWhileInFlight blockers)

/-- Refuses a command buffer that is not recording. -/
def checkRecording (t : CommandTracker) (cb : Handle) : Except Violation Unit := do
  let b ← t.lookup cb
  if b.state = .recording then .ok ()
  else .error (.invalidCommandBuffer cb
    s!"commands may only be recorded while recording, state is {b.state}")

/-- Refuses to begin a command buffer that is recording, and one that is
executable unless its pool allows to reset it and it is not in flight. -/
def checkBegin (t : CommandTracker) (queues : QueueTracker) (cb : Handle) :
    Except Violation Unit := do
  let b ← t.lookup cb
  match b.state with
  | .initial => .ok ()
  | .recording => .error (.invalidState cb "begin called while already recording")
  | .executable =>
      let pool ← t.pool b.pool
      if pool.flags.contains CommandPoolFlags.resetCommandBuffer then t.ensureRetired queues [cb]
      else .error (.invalidState cb
        s!"begin on an executable command buffer whose {b.pool} lacks RESET_COMMAND_BUFFER; reset it first")

/-- Refuses to submit a command buffer that is not executable, and one in flight
that was not begun for simultaneous use. -/
def checkSubmittable (t : CommandTracker) (queues : QueueTracker) (cb : Handle) :
    Except Violation Unit := do
  let b ← t.lookup cb
  if b.state ≠ .executable then
    .error (.invalidCommandBuffer cb
      s!"submitted while {b.state}; it must be recorded and ended first")
  else match b.lastSubmission with
    | some s =>
        if !b.usage.contains CommandBufferUsage.simultaneousUse && !queues.isRetired s then
          .error (.invalidCommandBuffer cb
            s!"already in flight as submission {s.sequence} on {s.queue} and not begun with SIMULTANEOUS_USE")
        else .ok ()
    | none => .ok ()

/-- The allocations that the commands of some command buffers touch. -/
def memoryOf (t : CommandTracker) (cbs : List Handle) : Std.ExtTreeSet Handle :=
  Std.ExtTreeSet.ofList
    (cbs.flatMap fun cb => ((t.buffers.find? cb).map (·.memoryRefs.toList)).getD []) compare

/-! ## Changes -/

/-- The records with one command buffer changed. -/
def change (t : CommandTracker) (cb : Handle) (f : CommandBuffer → CommandBuffer) :
    CommandTracker :=
  { t with buffers := t.buffers.modify cb f }

/-- The records after command buffers have been submitted. -/
def submitted (t : CommandTracker) (cbs : List Handle) (s : Submission) : CommandTracker :=
  cbs.foldl (fun t cb => t.change cb fun b => { b with lastSubmission := some s }) t

/-- Enters a pool without command buffers. -/
def createPool (pool : Handle) (flags : CommandPoolFlags) : Track CommandTracker Unit := do
  Track.update fun t => return { t with pools := ← t.pools.register pool ⟨flags, ∅⟩ }
  Track.debug s!"created {pool} ({flags.describe})"

/-- Enters fresh command buffers of a pool, none of which may be known already or
listed twice. -/
def allocate (pool : Handle) (cbs : List Handle) : Track CommandTracker Unit := do
  discard (Track.query (·.pool pool))
  Track.ofExcept (ensureDistinct cbs)
  let t ← get
  cbs.forM fun cb => do
    if t.contains cb then
      throw (.alreadyRegistered cb)
  cbs.forM fun cb =>
    Track.update fun t => return { t with buffers := ← t.buffers.register cb (.fresh pool) }
  modify fun t =>
    { t with pools := t.pools.modify pool fun p => { p with buffers := p.buffers.insertMany cbs } }
  Track.debug s!"allocated {cbs.length} command buffer(s) from {pool}"

/-- Ends the recording of a command buffer. -/
def finish (cb : Handle) : Track CommandTracker Unit := do
  let b ← Track.query (·.lookup cb)
  if b.state ≠ .recording then
    throw (.invalidCommandBuffer cb s!"end called on a command buffer that is {b.state}")
  modify fun t => t.change cb fun b => { b with state := .executable }
  Track.debug s!"{cb} ended recording with {b.memoryRefs.size} memory reference(s)"

end CommandTracker

end GpuAudit
