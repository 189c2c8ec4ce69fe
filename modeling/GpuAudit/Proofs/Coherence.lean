import GpuAudit.Proofs.Fences

/-!
# Fences cohere

`Operated` is what operations on the queues of a device lead to, in any order and with
any other books, as long as none of them raises an internal error.  In all such
queues fences and batches agree, and every call asks of a fence what the batches in
flight say of it: `FencesCohere`.
-/

namespace GpuAudit

/-! ## Runs -/

/-- The operations on the queues of a device. -/
inductive QueueOperation
  | addQueue (queue : Handle)
  | createFence (fence : Handle) (signaled : Bool)
  | destroyFence (fence : Handle)
  | resetFences (fences : List Handle)
  | createSemaphore (semaphore : Handle)
  | destroySemaphore (semaphore : Handle)
  | submit (queue : Handle) (submits : List SubmitBatch) (fence : Option Handle)
  | retire (r : Retirement)

namespace QueueOperation

open Trackers (Move Stops onQueues)
open Track (Mild)

/-- An operation, without its answer. -/
def run : QueueOperation → Track Trackers Unit
  | addQueue queue => discard (onQueues (QueueTracker.addQueue queue))
  | createFence fence signaled => onQueues (QueueTracker.createFence fence signaled)
  | destroyFence fence => onQueues (QueueTracker.destroyFence fence)
  | resetFences fences => onQueues (QueueTracker.resetFences fences)
  | createSemaphore semaphore => onQueues (QueueTracker.createSemaphore semaphore)
  | destroySemaphore semaphore => onQueues (QueueTracker.destroySemaphore semaphore)
  | submit queue submits fence => discard (Trackers.submit queue submits fence)
  | retire r => discard (Trackers.retireUpTo r)

/-- An operation makes a move, unless it raises an internal error. -/
theorem run_moves (op : QueueOperation) (t : Trackers) :
    op.run.Ends t (fun _ u => Move t u) fun v u => v.isFatal = false → Move t u := by
  have always : ∀ {x : Track Trackers Unit}, x.Confined Move →
      x.Ends t (fun _ u => Move t u) fun v u => v.isFatal = false → Move t u :=
    fun hx => (hx t).mono (fun _ _ m => m) fun _ _ m _ => m
  cases op with
  | addQueue queue => exact always (Trackers.addQueue_moves queue).discard
  | createFence fence signaled => exact always (Trackers.createFence_moves fence signaled)
  | destroyFence fence => exact always (Trackers.destroyFence_moves fence)
  | resetFences fences => exact always (Trackers.resetFences_moves fences)
  | createSemaphore semaphore => exact always (Trackers.createSemaphore_moves semaphore)
  | destroySemaphore semaphore => exact always (Trackers.destroySemaphore_moves semaphore)
  | submit queue submits fence => exact always (Trackers.submit_moves queue submits fence).discard
  | retire r =>
      refine Track.ends_discard.mpr ((Trackers.retireUpTo_effect t r).mono
        (fun _ _ passes => .retired passes) fun v u stops mild => ?_)
      cases stops with
      | refused => exact Trackers.move_refl t
      | halfway fatal =>
          rw [mild] at fatal
          cases fatal

/-- The books after operations. -/
def after (t : Trackers) (ops : List QueueOperation) : Trackers :=
  ops.foldl (fun t op => (op.run.on t).state) t

/-- Operations none of which raises an internal error. -/
def Quiet : Trackers → List QueueOperation → Prop
  | _, [] => True
  | t, op :: ops => Mild (op.run.on t).value ∧ Quiet (op.run.on t).state ops

instance decidableQuiet : ∀ t ops, Decidable (Quiet t ops)
  | _, [] => isTrue trivial
  | t, op :: ops =>
      have : Decidable (Quiet (op.run.on t).state ops) := decidableQuiet _ ops
      inferInstanceAs (Decidable (Mild (op.run.on t).value ∧ Quiet (op.run.on t).state ops))

end QueueOperation

namespace QueueTracker

open Track (Mild)

/-- The queues that operations lead to, none of which has raised an internal error.
Each operation may find the other books of the device in any state. -/
inductive Operated : QueueTracker → Prop
  | start : Operated empty
  | step {t : Trackers} (h : Operated t.queues) (op : QueueOperation)
      (mild : Mild (op.run.on t).value) : Operated (op.run.on t).state.queues

theorem Operated.after : ∀ {ops : List QueueOperation} {t : Trackers}, Operated t.queues →
    QueueOperation.Quiet t ops → Operated (QueueOperation.after t ops).queues
  | [], _, h, _ => h
  | op :: _, _, h, quiet => (h.step op quiet.1).after quiet.2

/-- Fences and batches agree after every run without an internal error, and no fence is
in use by a submission that has retired. -/
theorem Operated.guarded {t : QueueTracker} (h : Operated t) : t.Guarded ∧ t.Prompt := by
  induction h with
  | start => exact ⟨guarded_empty, prompt_empty⟩
  | @step t _ op mild ih =>
      have m : Trackers.Move t (op.run.on t).state := by
        cases hx : (op.run.on t).value with
        | ok a => exact (op.run_moves t).good_of_ok hx
        | error v => exact (op.run_moves t).bad_of_error hx (mild v hx)
      exact ⟨m.guarded ih.1, m.prompt ih.1 ih.2⟩

end QueueTracker

namespace Trackers

variable {t : Trackers}

/-- Fences, the batches that carry them and the calls that name them agree. -/
structure FencesCohere (t : Trackers) : Prop where
  /-- A fence is in use by a submission exactly if the batch of the submission is in
  flight and carries it. -/
  inUse : ∀ f queue s, t.queues.fences.find? f = some (.inUse queue s) ↔
    ∃ b, t.queues.Carries queue b f ∧ b.sequence = s
  /-- No other batch carries it. -/
  unique : ∀ f queue b queue' b', t.queues.Carries queue b f → t.queues.Carries queue' b' f →
    queue' = queue ∧ b' = b
  /-- The batch has not retired. -/
  unretired : ∀ f queue b, t.queues.Carries queue b f →
    ∃ q, t.queues.queues.find? queue = some q ∧ q.lastRetired < b.sequence
  /-- A fence that a batch carries has not been destroyed. -/
  live : ∀ f, t.queues.Carried f → t.queues.fences.contains f = true
  /-- A fence has the status signaled exactly if it is stored as signaled. -/
  status : ∀ f x, t.queues.fences.find? f = some x →
    t.queues.fenceStatus f = .ok (decide (x = .signaled))
  /-- Exactly the fences that a batch carries are refused to be destroyed. -/
  destroy : ∀ f x, t.queues.fences.find? f = some x →
    ((QueueTracker.destroyFence f).Refuses t.queues ↔ t.queues.Carried f)
  /-- Exactly the lists with a fence that a batch carries are refused to be reset. -/
  reset : ∀ fs, (∀ f ∈ fs, ∃ x, t.queues.fences.find? f = some x) →
    ((QueueTracker.resetFences fs).Refuses t.queues ↔ ∃ f ∈ fs, t.queues.Carried f)
  /-- Beside what is refused without a fence, exactly the submissions are refused with a
  fence that a batch carries or that is signaled. -/
  submit : ∀ queue submits f x, t.queues.fences.find? f = some x →
    ((Trackers.submit queue submits (some f)).Refuses t ↔
      t.queues.Carried f ∨ x = .signaled ∨ (Trackers.submit queue submits none).Refuses t)
  /-- A retirement signals exactly the fences of the batches of its queue that retire. -/
  retire : ∀ r bs, ((retireUpTo r).on t).value = .ok bs →
    ∃ q, t.queues.queues.find? r.queue = some q ∧
      ∀ f, ((retireUpTo r).on t).state.queues.fences.find? f =
        if ∃ b ∈ q.inFlight, (q.lastRetired < b.sequence ∧ b.sequence ≤ r.upTo) ∧ b.fence = some f
        then some .signaled else t.queues.fences.find? f

theorem fenceStatus_of_prompt (h : t.queues.Guarded) (prompt : t.queues.Prompt) {f : Handle}
    {x : Fence} (hf : t.queues.fences.find? f = some x) :
    t.queues.fenceStatus f = .ok (decide (x = .signaled)) := by
  unfold QueueTracker.fenceStatus
  refine bind_eq_ok_iff.mpr ⟨x, QueueTracker.fence_eq_ok_iff.mpr hf, ?_⟩
  cases x with
  | unsignaled => rfl
  | signaled => rfl
  | inUse queue s =>
      obtain ⟨q, hq, -, -⟩ := h.submitted hf
      refine bind_eq_ok_iff.mpr ⟨q, QueueTracker.queue_eq_ok_iff.mpr hq, ?_⟩
      simpa [Queue.isRetired, pure, Except.pure] using prompt hf hq

/-- Beside what is refused without a fence, exactly the submissions are refused with a live
fence that a batch carries or that is signaled. -/
theorem submit_refuses_iff (h : t.queues.Guarded) (queue : Handle) (submits : List SubmitBatch)
    {f : Handle} {x : Fence} (hf : t.queues.fences.find? f = some x) :
    (submit queue submits (some f)).Refuses t ↔
      t.queues.Carried f ∨ x = .signaled ∨ (submit queue submits none).Refuses t := by
  have passes : (∃ u, t.queues.checkFenceSubmittable f = .ok u) ↔
      ¬t.queues.Carried f ∧ x ≠ .signaled :=
    ⟨fun ⟨_, hu⟩ => (h.checkFenceSubmittable_iff hf).mp hu,
      fun idle => ⟨(), (h.checkFenceSubmittable_iff hf).mpr idle⟩⟩
  rw [(submit_ends t queue submits (some f)).refuses_iff,
    (submit_ends t queue submits none).refuses_iff, submit_answers_iff, submit_answers_iff]
  simp only [Option.mem_def, Option.some.injEq, forall_eq', passes]
  simp only [reduceCtorEq, false_implies, implies_true]
  tauto

/-- In every run without an internal error, fences, the batches that carry them and the
calls that name them agree. -/
theorem fencesCohere_of_operated (h : t.queues.Operated) : t.FencesCohere := by
  obtain ⟨guarded, prompt⟩ := h.guarded
  constructor
  case inUse =>
    intro f queue s
    constructor
    · intro hf
      obtain ⟨q, hq, -, batch⟩ := guarded.submitted hf
      obtain ⟨b, hb, number, carries⟩ := batch (prompt hf hq)
      exact ⟨b, ⟨q, hq, hb, carries⟩, number⟩
    · rintro ⟨b, carries, rfl⟩
      exact guarded.carried carries
  case unique => exact fun _ _ _ _ _ => guarded.unique
  case unretired => exact fun _ _ _ => guarded.unretired
  case live =>
    rintro f ⟨queue, b, carries⟩
    rw [Registry.contains_eq_isSome, guarded.carried carries, Option.isSome_some]
  case status => exact fun _ _ => fenceStatus_of_prompt guarded prompt
  case destroy => exact fun _ _ => guarded.destroyFence_refuses_iff
  case reset => exact fun _ => guarded.resetFences_refuses_iff
  case submit => exact fun queue submits _ _ => submit_refuses_iff guarded queue submits
  case retire =>
    intro r bs ha
    have passes := (retireUpTo_effect t r).good_of_ok ha
    obtain ⟨q, hq, range, rfl⟩ := passes.due
    refine ⟨q, hq, fun f => ?_⟩
    rw [passes.queues]
    exact guarded.fence_passed hq range f

/-- Two queues have work with a fence each, and the first of two submissions to one of
them has retired. -/
def guarding : List QueueOperation :=
  [.addQueue ⟨1, .queue⟩, .addQueue ⟨2, .queue⟩,
   .createFence ⟨3, .fence⟩ false, .createFence ⟨4, .fence⟩ false, .createFence ⟨5, .fence⟩ false,
   .submit ⟨1, .queue⟩ [] (some ⟨3, .fence⟩), .submit ⟨2, .queue⟩ [] (some ⟨4, .fence⟩),
   .submit ⟨1, .queue⟩ [] (some ⟨5, .fence⟩), .retire ⟨⟨1, .queue⟩, 1⟩]

/-- The fence of the submission that is still in flight there is carried, so it cannot
be destroyed; the fence of the other queue has the same number and is not signaled. -/
theorem fencesCohere_of_guarding :
    (QueueOperation.after .empty guarding).queues.Carried ⟨5, .fence⟩ ∧
    (QueueTracker.destroyFence ⟨5, .fence⟩).Refuses (QueueOperation.after .empty guarding).queues ∧
    (QueueOperation.after .empty guarding).queues.fenceStatus ⟨3, .fence⟩ = .ok true ∧
    (QueueOperation.after .empty guarding).queues.fenceStatus ⟨4, .fence⟩ = .ok false := by
  have coheres := fencesCohere_of_operated (t := QueueOperation.after .empty guarding)
    (QueueTracker.Operated.start.after (by decide +kernel))
  have inUse : (QueueOperation.after .empty guarding).queues.fences.find? ⟨5, .fence⟩ =
      some (.inUse ⟨1, .queue⟩ 2) := by decide +kernel
  obtain ⟨b, carries, -⟩ := (coheres.inUse _ _ _).mp inUse
  have carried : (QueueOperation.after .empty guarding).queues.Carried ⟨5, .fence⟩ :=
    ⟨_, b, carries⟩
  refine ⟨carried, (coheres.destroy _ _ inUse).mpr carried, ?_, ?_⟩
  · exact coheres.status _ .signaled (by decide +kernel)
  · exact coheres.status _ (.inUse ⟨2, .queue⟩ 1) (by decide +kernel)

end Trackers

end GpuAudit
