import Std.Data.ExtTreeSet
import GpuAudit.Call
import GpuAudit.Track
import GpuAudit.Registry

/-!
# Queues, fences and semaphores

Every submission to a queue gets the next *sequence id* of the queue and becomes
one batch.  Batches retire strictly in the order of submission: `lastRetired` only
grows, and a batch has retired when its id is at most that.  A fence given with a
submission is in use until the submission retires.

Ids are counted as numbers, although a report and a retirement have room for a word only:
a queue must have fewer than 2 ^ 64 submissions.  Each then has a word for its id
(`QueueEvent.Agrees.words`), and adding one never wraps around.

Submitting and retiring also concern command buffers and memory; they are in
`GpuAudit.Submission`.
-/

namespace GpuAudit

/-! ## Queues -/

/-- Where and when a command buffer was last submitted. -/
structure Submission where
  /-- The queue. -/
  queue : Handle
  /-- The sequence id it got there, a word. -/
  sequence : Nat
  /-- The fence given with it. -/
  fence : Option Handle
deriving DecidableEq, Repr

/-- The work of one submission, which retires as a whole. -/
structure Batch where
  /-- The sequence id of the submission, a word. -/
  sequence : Nat
  /-- The command buffers in order, repeats kept. -/
  commandBuffers : List Handle
  /-- The fence that the retirement signals. -/
  fence : Option Handle
  /-- The semaphores waited on in order, repeats kept. -/
  waitSemaphores : List Handle
  /-- The allocations that the command buffers touched when submitted. -/
  memory : Std.ExtTreeSet Handle
deriving DecidableEq

/-- What is known of one queue. -/
structure Queue where
  /-- The sequence id of the latest submission; zero before the first.  It is the number of
  submissions, which must be below 2 ^ 64. -/
  lastSubmitted : Nat
  /-- The sequence id up to which work has retired; never above `lastSubmitted`. -/
  lastRetired : Nat
  /-- The batches that have not retired, oldest first. -/
  inFlight : List Batch
  /-- How many batches in flight touch each allocation; none are not listed. -/
  memoryRefs : Std.ExtTreeMap Handle Nat
deriving DecidableEq

namespace Queue

/-- A queue before its first submission. -/
def idle : Queue := ⟨0, 0, [], ∅⟩

/-- Whether the submission with a sequence id has retired. -/
def isRetired (q : Queue) (sequence : Nat) : Bool := sequence ≤ q.lastRetired

/-- Counts one batch more that touches an allocation. -/
def hold (refs : Std.ExtTreeMap Handle Nat) (memory : Handle) : Std.ExtTreeMap Handle Nat :=
  refs.alter memory fun count => some (count.getD 0 + 1)

/-- Counts one batch less that touches an allocation, and drops a count of zero. -/
def release (refs : Std.ExtTreeMap Handle Nat) (memory : Handle) : Std.ExtTreeMap Handle Nat :=
  refs.alter memory fun count =>
    match count with
    | some (n + 2) => some (n + 1)
    | _ => none

/-- The queue with a batch more in flight. -/
def push (q : Queue) (b : Batch) : Queue :=
  { q with
    lastSubmitted := b.sequence
    inFlight := q.inFlight ++ [b]
    memoryRefs := b.memory.toList.foldl hold q.memoryRefs }

/-- The batches in flight up to a sequence id, oldest first. -/
def due (q : Queue) (sequence : Nat) : List Batch := q.inFlight.takeWhile (·.sequence ≤ sequence)

/-- The queue after its batches up to a sequence id have retired. -/
def retired (q : Queue) (sequence : Nat) : Queue :=
  { q with
    lastRetired := sequence
    inFlight := q.inFlight.dropWhile (·.sequence ≤ sequence)
    memoryRefs := (q.due sequence).foldl (fun refs b => b.memory.toList.foldl release refs)
      q.memoryRefs }

end Queue

/-- The duty to retire a queue up to a sequence id. -/
structure Retirement where
  /-- The queue. -/
  queue : Handle
  /-- The last sequence id to retire, a word: one reported, or one that a submission got. -/
  upTo : Nat
deriving DecidableEq, Repr

/-- What a completion report asks for. -/
def Completion.retirement (c : Completion) : Retirement := ⟨c.queue, c.sequence.toNat⟩

/-! ## Fences and semaphores -/

/-- The states of a fence. -/
inductive Fence
  | unsignaled
  | signaled
  /-- Given with a submission whose retirement has not been seen yet. -/
  | inUse (queue : Handle) (sequence : Nat)
deriving DecidableEq, Repr, Inhabited

namespace Fence

/-- The word for a state of a fence. -/
def stateName : Fence → String
  | unsignaled => "Unsignaled"
  | signaled => "Signaled"
  | inUse .. => "InUse"

/-- The retirement that signals a fence in use. -/
def retirement? : Fence → Option Retirement
  | inUse queue sequence => some ⟨queue, sequence⟩
  | _ => none

/-- A fence after the submission with a sequence id has retired. -/
def afterRetirement (sequence : Nat) : Fence → Fence
  | inUse queue s => if s = sequence then signaled else inUse queue s
  | other => other

end Fence

/-- The states of a semaphore. -/
inductive Semaphore
  | unset
  | signaled
  /-- Waited on by a submission that has not retired. -/
  | wait
deriving DecidableEq, Repr, Inhabited

namespace Semaphore

/-- The word for a state of a semaphore. -/
def stateName : Semaphore → String
  | unset => "Unset"
  | signaled => "Signaled"
  | wait => "Wait"

/-- A semaphore after a submission that waited on it has retired. -/
def afterRetirement : Semaphore → Semaphore
  | wait => unset
  | other => other

end Semaphore

/-- The queues, fences and semaphores of a device. -/
structure QueueTracker where
  /-- Records of queues. -/
  queues : Registry .queue Queue
  /-- States of fences. -/
  fences : Registry .fence Fence
  /-- States of semaphores. -/
  semaphores : Registry .semaphore Semaphore
deriving DecidableEq, Inhabited

namespace QueueTracker

/-- No queue, fence or semaphore. -/
def empty : QueueTracker := ⟨.empty, .empty, .empty⟩

/-! ## Questions -/

/-- The record of a queue. -/
def queue (t : QueueTracker) (h : Handle) : Except Violation Queue := t.queues.lookup h

/-- The state of a fence. -/
def fence (t : QueueTracker) (h : Handle) : Except Violation Fence := t.fences.lookup h

/-- The state of a semaphore. -/
def semaphore (t : QueueTracker) (h : Handle) : Except Violation Semaphore := t.semaphores.lookup h

/-- Whether a submission has retired; on a queue that is not tracked it has. -/
def isRetired (t : QueueTracker) (s : Submission) : Bool :=
  match t.queue s.queue with
  | .ok q => q.isRetired s.sequence
  | .error _ => true

/-- The retirement of everything submitted to a queue so far. -/
def idleRetirement (t : QueueTracker) (queue : Handle) : Except Violation Retirement := do
  let q ← t.queue queue
  return ⟨queue, q.lastSubmitted⟩

/-- Whether a fence is signaled, as far as its queue has retired. -/
def fenceStatus (t : QueueTracker) (fence : Handle) : Except Violation Bool := do
  match ← t.fence fence with
  | .signaled => return true
  | .unsignaled => return false
  | .inUse queue sequence => return (← t.queue queue).isRetired sequence

/-- The retirement that is implied by seeing a fence signaled. -/
def fenceRetirement (t : QueueTracker) (fence : Handle) : Except Violation (Option Retirement) := do
  return (← t.fence fence).retirement?

/-- Whether a fence is in use by a submission that has not retired. -/
def fenceInFlight (t : QueueTracker) (fence : Handle) : Except Violation Bool := do
  match ← t.fence fence with
  | .inUse queue sequence => return !(← t.queue queue).isRetired sequence
  | _ => return false

/-- Refuses a fence that must not be given with a submission. -/
def checkFenceSubmittable (t : QueueTracker) (fence : Handle) : Except Violation Unit := do
  let f ← t.fence fence
  if ← t.fenceInFlight fence then
    let sequence := (f.retirement?.map (·.upTo)).getD 0
    .error (.invalidFenceState fence
      s!"already associated with unretired submission {sequence}")
  else if f = .signaled then
    .error (.invalidFenceState fence "submitted in the signaled state; reset it before reuse")
  else .ok ()

/-! ## Changes -/

/-- Enters a queue.  The answer is whether it is new; a known queue is no error. -/
def addQueue (queue : Handle) : Track QueueTracker Bool := do
  let t ← get
  if t.queues.contains queue then
    return false
  Track.update fun t => return { t with queues := ← t.queues.register queue .idle }
  Track.debug s!"tracking {queue}"
  return true

/-- Enters a fence. -/
def createFence (fence : Handle) (signaled : Bool) : Track QueueTracker Unit := do
  let state : Fence := if signaled then .signaled else .unsignaled
  Track.update fun t => return { t with fences := ← t.fences.register fence state }
  Track.debug s!"created {fence} ({state.stateName})"

/-- Strikes out a fence that is not in use by work in flight. -/
def destroyFence (fence : Handle) : Track QueueTracker Unit := do
  if ← Track.query (·.fenceInFlight fence) then
    throw (.invalidFenceState fence "destroyed while its submission has not retired")
  Track.update fun t => return { t with fences := (← t.fences.unregister fence).2 }
  Track.debug s!"destroyed {fence}"

/-- Makes fences unsignaled.  None is changed if one is in use by work in flight;
one that is unsignaled already gives a warning. -/
def resetFences (fences : List Handle) : Track QueueTracker Unit := do
  fences.forM fun fence => do
    if ← Track.query (·.fenceInFlight fence) then
      throw (.invalidFenceState fence "reset while its submission has not retired")
  fences.forM fun fence => do
    let f ← Track.query (·.fence fence)
    if f = .unsignaled then
      Track.warn (.invalidFenceState fence "reset while already unsignaled")
    modify fun t => { t with fences := t.fences.modify fence fun _ => .unsignaled }

/-- Enters a semaphore without a pending signal. -/
def createSemaphore (semaphore : Handle) : Track QueueTracker Unit :=
  Track.update fun t => return { t with semaphores := ← t.semaphores.register semaphore .unset }

/-- Strikes out a semaphore that no queue waits on. -/
def destroySemaphore (semaphore : Handle) : Track QueueTracker Unit := do
  if (← Track.query (·.semaphore semaphore)) = .wait then
    throw (.invalidState semaphore "destroyed while a queue is waiting on it")
  Track.update fun t => return { t with semaphores := (← t.semaphores.unregister semaphore).2 }

end QueueTracker

end GpuAudit
