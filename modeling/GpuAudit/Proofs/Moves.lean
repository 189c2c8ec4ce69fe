import GpuAudit.Proofs.Creation
import GpuAudit.Proofs.Retirement

/-!
# What may happen to queues and fences

A `Move` is what one operation on the books of a device does to its queues, to its
fences and to the submissions of its command buffers.  A queue is entered, fences
that no batch in flight carries change, a batch is submitted, or a retirement goes
through.  Most operations change nothing of all this.

Every call makes a move, accepted or not, whatever the books are: no operation but a
retirement stops after it has changed a queue.
-/

namespace GpuAudit.Trackers

open Track (Confined Refused)

variable {t u : Trackers}

/-- What one operation does to queues, fences and submissions. -/
inductive Move (t : Trackers) : Trackers → Prop
  /-- A queue is entered, before its first submission. -/
  | queueMade {u : Trackers} {queue : Handle} (commands : t.commands.Inherits u.commands)
      (fences : u.queues.fences = t.queues.fences)
      (new : t.queues.queues.find? queue = none)
      (view : ∀ g, u.queues.queues.find? g =
        if g = queue then some .idle else t.queues.queues.find? g) : Move t u
  /-- Fences that are new, or not in use by work in flight, change. -/
  | refenced {u : Trackers} (commands : t.commands.Inherits u.commands)
      (queues : u.queues.queues = t.queues.queues)
      (view : ∀ g, u.queues.fences.find? g = t.queues.fences.find? g ∨
        (t.queues.fences.find? g = none ∨ t.queues.fenceInFlight g = .ok false) ∧
          ∀ queue s, u.queues.fences.find? g ≠ some (.inUse queue s)) : Move t u
  /-- A batch is submitted. -/
  | submitted {queue : Handle} {submits : List SubmitBatch} {fence : Option Handle} {q : Queue}
      (found : t.queues.queues.find? queue = some q)
      (free : ∀ f ∈ fence, t.queues.checkFenceSubmittable f = .ok ())
      (ready : ∀ c ∈ submits.flatMap (·.commandBuffers),
        t.commands.checkSubmittable t.queues c = .ok ()) :
      Move t (t.withBatch queue submits (t.batchOf q submits fence))
  /-- A retirement goes through. -/
  | retired {r : Retirement} {bs : List Batch} {u : Trackers} (passes : Passes t r bs u) : Move t u

/-- No move is a move. -/
theorem move_of_steady (h : Steady t u) : Move t u :=
  .refenced h.commands (by rw [h.queues]) fun g => .inl (by rw [h.queues])

theorem move_refl (t : Trackers) : Move t t := move_of_steady (refl_of Steady t)

theorem move_of_refused {v : Violation} (h : Refused t v u) : Move t u := h.2 ▸ move_refl t

/-! ## Operations on the queues -/

section OnQueues

variable {α : Type} {x : Track QueueTracker α} {good : α → QueueTracker → Prop}

/-- An operation on fences and semaphores that is refused or changes fences that are not
in use by work in flight. -/
theorem refenced_of_ends (hx : x.Ends t.queues good (Refused t.queues))
    (queues : ∀ a q, good a q → q.queues = t.queues.queues)
    (view : ∀ a q, good a q → ∀ g, q.fences.find? g = t.queues.fences.find? g ∨
      (t.queues.fences.find? g = none ∨ t.queues.fenceInFlight g = .ok false) ∧
        ∀ queue s, q.fences.find? g ≠ some (.inUse queue s)) :
    (onQueues x).Ends t (fun _ u => Move t u) fun _ u => Move t u := by
  unfold onQueues
  rw [Track.ends_within]
  refine hx.mono (fun a q hq => ?_) fun _ q hq => ?_
  · exact .refenced (refl_of CommandTracker.Inherits _) (queues a q hq) (view a q hq)
  · rw [hq.2]
    exact move_refl t

end OnQueues

theorem addQueue_moves (queue : Handle) : (onQueues (QueueTracker.addQueue queue)).Confined Move := by
  intro t
  unfold onQueues
  rw [Track.ends_within]
  refine (t.queues.addQueue_ends queue).mono (fun _ q hq => ?_) fun _ q hq => ?_
  · rcases hq with ⟨-, rfl⟩ | ⟨-, -, new, queues, rfl, view⟩
    · exact move_refl t
    · exact .queueMade (refl_of CommandTracker.Inherits _) rfl new view
  · rw [hq.2]
    exact move_refl t

theorem createFence_moves (fence : Handle) (signaled : Bool) :
    (onQueues (QueueTracker.createFence fence signaled)).Confined Move := by
  intro t
  refine refenced_of_ends (t.queues.createFence_ends fence signaled) (fun _ _ h => h.2.1)
    fun _ q hq g => ?_
  obtain ⟨new, -, view⟩ := hq
  rw [view]
  split
  next he =>
    refine .inr ⟨.inl (he ▸ new), fun queue s => ?_⟩
    cases signaled <;> simp
  next => exact .inl rfl

theorem destroyFence_moves (fence : Handle) :
    (onQueues (QueueTracker.destroyFence fence)).Confined Move := by
  intro t
  refine refenced_of_ends (t.queues.destroyFence_ends fence) (fun _ _ h => h.2.1)
    fun _ q hq g => ?_
  obtain ⟨free, -, view⟩ := hq
  rw [view]
  split
  next he => exact .inr ⟨.inr (he ▸ free), fun _ _ h => nomatch h⟩
  next => exact .inl rfl

theorem resetFences_moves (fences : List Handle) :
    (onQueues (QueueTracker.resetFences fences)).Confined Move := by
  intro t
  refine refenced_of_ends (t.queues.resetFences_ends fences) (fun _ _ h => h.2.1)
    fun _ q hq g => ?_
  obtain ⟨free, -, view⟩ := hq
  rw [view]
  split
  next hg => exact .inr ⟨.inr (free g hg), fun _ _ h => nomatch h⟩
  next => exact .inl rfl

theorem createSemaphore_moves (semaphore : Handle) :
    (onQueues (QueueTracker.createSemaphore semaphore)).Confined Move := fun t =>
  refenced_of_ends (t.queues.createSemaphore_ends semaphore) (fun _ _ h => h.1)
    fun _ _ h g => .inl (by rw [h.2])

theorem destroySemaphore_moves (semaphore : Handle) :
    (onQueues (QueueTracker.destroySemaphore semaphore)).Confined Move := fun t =>
  refenced_of_ends (t.queues.destroySemaphore_ends semaphore) (fun _ _ h => h.1)
    fun _ _ h g => .inl (by rw [h.2])

theorem submit_moves (queue : Handle) (submits : List SubmitBatch) (fence : Option Handle) :
    (submit queue submits fence).Confined Move := by
  intro t
  refine (submit_ends t queue submits fence).mono (fun _ u hu => ?_) fun _ _ hu =>
    move_of_refused hu
  obtain ⟨q, found, free, ready, rfl, -⟩ := hu
  exact .submitted found free ready

/-! ## Calls -/

theorem confined_move_of_steady {α : Type} {x : Track Trackers α} (h : x.Confined Steady) :
    x.Confined Move := fun t =>
  (h t).mono (fun _ _ hu => move_of_steady hu) fun _ _ hu => move_of_steady hu

/-- Every call makes a move when it is validated. -/
theorem validate_moves (owners : Owners) (device : Handle) (call : Call) :
    (validate owners device call).Confined Move := by
  have nothing : ∀ {β : Type} {x : Track Trackers β}, x.Confined Move →
      (validate.nothing x).Confined Move := fun hx t =>
    Track.ends_bind.mpr (Track.ends_discard.mpr (hx t))
  by_cases schedules : Schedules call
  · cases call with
    | queueSubmit queue submits fence => exact nothing (submit_moves queue submits fence)
    | destroyFence _ fence => exact nothing (destroyFence_moves fence)
    | resetFences _ fences => exact nothing (resetFences_moves fences)
    | destroySemaphore _ semaphore => exact nothing (destroySemaphore_moves semaphore)
    | _ => exact schedules.elim
  · exact confined_move_of_steady (validate_steady owners device schedules)

/-- Every call makes a move when what it has created is entered. -/
theorem recordCreation_moves (device : Handle) (call : Call) :
    (recordCreation device call).Confined Move := by
  have nothing : ∀ {β : Type} {x : Track Trackers β}, x.Confined Move →
      (recordCreation.nothing x).Confined Move := fun hx t =>
    Track.ends_bind.mpr (Track.ends_discard.mpr (hx t))
  by_cases equips : Equips call
  · cases call with
    | getDeviceQueue _ queue => exact fun t => Track.ends_bind.mpr (addQueue_moves queue t)
    | createFence _ fence signaled => exact nothing (createFence_moves fence signaled)
    | createSemaphore _ semaphore => exact nothing (createSemaphore_moves semaphore)
    | _ => exact equips.elim
  · exact confined_move_of_steady (recordCreation_steady device equips)

end GpuAudit.Trackers
