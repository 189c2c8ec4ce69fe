import GpuAudit.Recording

/-!
# Submission and retirement

`submit` checks a submission as a whole and then enters it as one batch, which
gets the next sequence id of its queue.  The semaphores are checked against their
states before the submission.

`retireUpTo` retires the batches of a queue up to a sequence id, which may neither
go back nor go past the latest submission.  A retired batch signals its fence,
unsets the semaphores it waited on, and gives back the command buffers that were
begun for one submission.
-/

namespace GpuAudit.Trackers

/-! ## Submission -/

/-- Checks the semaphores of one unit of work.  A semaphore that a submission in
flight waits on cannot be waited on, one with a pending signal cannot be signaled,
and a wait without a pending signal gives a warning. -/
def checkSemaphores (s : SubmitBatch) : Track QueueTracker Unit := do
  s.waitSemaphores.forM fun semaphore => do
    match ← Track.query (·.semaphore semaphore) with
    | .wait =>
        throw (.invalidState semaphore "already waited on by an unretired submission")
    | .unset => Track.warn (.invalidState semaphore "waited on without a pending signal")
    | .signaled => pure ()
  s.signalSemaphores.forM fun semaphore => do
    if (← Track.query (·.semaphore semaphore)) = .signaled then
      throw (.invalidState semaphore
        "signaled again before any wait consumed the pending signal")

/-- The semaphores after one unit of work has been submitted. -/
def afterSubmit (semaphores : Registry .semaphore Semaphore) (s : SubmitBatch) :
    Registry .semaphore Semaphore :=
  let waiting := s.waitSemaphores.foldl (fun r h => r.modify h fun _ => .wait) semaphores
  s.signalSemaphores.foldl (fun r h => r.modify h fun _ => .signaled) waiting

/-- The queues after a batch has been submitted. -/
def enterBatch (t : QueueTracker) (queue : Handle) (submits : List SubmitBatch) (b : Batch) :
    QueueTracker where
  queues := t.queues.modify queue (·.push b)
  fences := match b.fence with
    | some fence => t.fences.modify fence fun _ => .inUse queue b.sequence
    | none => t.fences
  semaphores := submits.foldl afterSubmit t.semaphores

/-- Submits work to a queue.  The answer is its sequence id. -/
def submit (queue : Handle) (submits : List SubmitBatch) (fence : Option Handle) :
    Track Trackers Nat := do
  let q ← Track.query (·.queues.queue queue)
  let sequence := q.lastSubmitted + 1
  if let some fence := fence then
    Track.query (·.queues.checkFenceSubmittable fence)
  let commandBuffers := submits.flatMap (·.commandBuffers)
  commandBuffers.forM fun cb => Track.query fun t => t.commands.checkSubmittable t.queues cb
  submits.forM fun s => onQueues (checkSemaphores s)
  let t ← get
  let batch : Batch := {
    sequence, commandBuffers, fence
    waitSemaphores := submits.flatMap (·.waitSemaphores)
    memory := t.commands.memoryOf commandBuffers }
  set { t with
    commands := t.commands.submitted commandBuffers ⟨queue, sequence, fence⟩
    queues := enterBatch t.queues queue submits batch }
  Track.debug s!"submission {sequence} on {queue} ({q.inFlight.length + 1} in flight)"
  return sequence

/-! ## Retirement -/

/-- What the retirement of a submission does to one of its command buffers: one
that was begun for one submission, and not submitted again since, is initial again. -/
def retireCommandBuffer (sequence : Nat) (cb : Handle) : Track Trackers Unit := do
  match (← get).commands.buffers.find? cb with
  | none => throw (.internal [cb] s!"retired submission {sequence} names unknown {cb}")
  | some b =>
      if b.lastSubmission.map (·.sequence) = some sequence ∧ b.state = .executable ∧
          b.usage.contains CommandBufferUsage.oneTimeSubmit then
        clear cb
        Track.debug s!"one-time-submit {cb} returned to initial on retirement"

/-- The fences and semaphores after a batch has retired. -/
def afterBatch (t : QueueTracker) (b : Batch) : QueueTracker :=
  { t with
    fences := match b.fence with
      | some fence => t.fences.modify fence (Fence.afterRetirement b.sequence)
      | none => t.fences
    semaphores :=
      b.waitSemaphores.foldl (fun r h => r.modify h Semaphore.afterRetirement) t.semaphores }

/-- What the retirement of one batch does. -/
def retireBatch (b : Batch) : Track Trackers Unit := do
  modify fun t => { t with queues := afterBatch t.queues b }
  b.commandBuffers.forM (retireCommandBuffer b.sequence)

/-- Refuses a retirement that goes back, and one that goes past the latest submission. -/
def checkRetirement (q : Queue) (r : Retirement) : Except Violation Unit :=
  if r.upTo < q.lastRetired then
    .error (.internal [r.queue]
      s!"{r.queue} retire to {r.upTo} is behind the already retired id {q.lastRetired}")
  else if q.lastSubmitted < r.upTo then
    .error (.internal [r.queue]
      s!"{r.queue} retire to {r.upTo} is ahead of the last submitted id {q.lastSubmitted}")
  else .ok ()

/-- Retires a queue up to a sequence id.  The answer lists the retired batches. -/
def retireUpTo (r : Retirement) : Track Trackers (List Batch) := do
  let q ← Track.query (·.queues.queue r.queue)
  Track.ofExcept (checkRetirement q r)
  modify fun t =>
    { t with queues := { t.queues with
        queues := t.queues.queues.modify r.queue (·.retired r.upTo) } }
  let batches := q.due r.upTo
  batches.forM retireBatch
  if !batches.isEmpty then
    Track.debug s!"{r.queue} retired {batches.length} submission(s) up to {r.upTo}"
  return batches

end GpuAudit.Trackers
