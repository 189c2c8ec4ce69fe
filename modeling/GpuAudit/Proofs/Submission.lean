import GpuAudit.Submission
import GpuAudit.Proofs.Recording

/-!
# Submission and retirement keep the books consistent

A submission is checked as a whole and then entered in one step, `withBatch`.  A
retirement may stop half way, at a command buffer that is gone, but what it has
done so far is consistent.
-/

namespace GpuAudit

open Track (Refused)

/-! ## Submission -/

namespace CommandTracker

variable {t : CommandTracker} {c : Handle}

/-- Submitting changes the last submission of the command buffers and nothing else. -/
theorem find?_submitted (s : Submission) (g : Handle) : ∀ (cbs : List Handle) (t : CommandTracker),
    (t.submitted cbs s).buffers.find? g =
      if g ∈ cbs then (t.buffers.find? g).map fun b => { b with lastSubmission := some s }
      else t.buffers.find? g
  | [], t => by simp [submitted]
  | c :: cbs, t => by
      show ((t.change c _).submitted cbs s).buffers.find? g = _
      rw [find?_submitted s g cbs, find?_change]
      by_cases hg : g = c
      · subst hg
        by_cases hc : g ∈ cbs <;> cases t.buffers.find? g <;> simp [hc]
      · simp [hg]

theorem pools_submitted (s : Submission) : ∀ (cbs : List Handle) (t : CommandTracker),
    (t.submitted cbs s).pools = t.pools
  | [], _ => rfl
  | c :: cbs, t => pools_submitted s cbs (t.change c _)

theorem touches_submitted {cbs : List Handle} {s : Submission} {memory : Handle} :
    (t.submitted cbs s).Touches c memory ↔ t.Touches c memory := by
  unfold Touches
  rw [find?_submitted]
  split
  · cases t.buffers.find? c <;> simp
  · exact Iff.rfl

theorem Member.submitted {cbs : List Handle} {s : Submission} (h : t.Member c) :
    (t.submitted cbs s).Member c := by
  obtain ⟨b, p, hb, hp, hc⟩ := h
  unfold Member
  rw [find?_submitted, pools_submitted, hb]
  split
  · exact ⟨_, p, rfl, hp, hc⟩
  · exact ⟨b, p, rfl, hp, hc⟩

/-- Only executable command buffers pass the check of a submission. -/
theorem executable_of_submittable {queues : QueueTracker} {v : Unit}
    (h : t.checkSubmittable queues c = .ok v) :
    ∃ b, t.buffers.find? c = some b ∧ b.state = .executable := by
  obtain ⟨b, hl, h⟩ := bind_eq_ok_iff.mp h
  refine ⟨b, lookup_eq_ok_iff.mp hl, Decidable.byContradiction fun hs => ?_⟩
  rw [if_pos hs] at h
  cases h

theorem pooled_submitted {cbs : List Handle} {s : Submission} (h : t.Pooled)
    (ready : ∀ c ∈ cbs, ∃ b, t.buffers.find? c = some b ∧ b.state = .executable) :
    (t.submitted cbs s).Pooled := by
  have after : ∀ c b, (t.submitted cbs s).buffers.find? c = some b → ∃ b',
      t.buffers.find? c = some b' ∧ ((c ∉ cbs ∧ b = b') ∨
        (b.state = .executable ∧ t.Member c)) := fun c b hb => by
    rw [find?_submitted] at hb
    split at hb
    next hc =>
      obtain ⟨b', hb', he⟩ := ready c hc
      rw [hb', Option.map_some] at hb
      cases hb
      exact ⟨b', hb', .inr ⟨he, h.member hb' (by rw [he]; decide)⟩⟩
    next hc => exact ⟨b, hb, .inl ⟨hc, rfl⟩⟩
  constructor
  · intro q p c hq hc
    rw [pools_submitted] at hq
    obtain ⟨b, hb, he⟩ := h.listed q p c hq hc
    rw [find?_submitted, hb]
    split
    · exact ⟨_, rfl, he⟩
    · exact ⟨b, rfl, he⟩
  · intro c b hb
    obtain ⟨b', hb', ⟨-, rfl⟩ | ⟨-, hm⟩⟩ := after c b hb
    · exact (h.pooled c b hb').imp_left Member.submitted
    · exact .inl hm.submitted
  · intro c b hb hs
    obtain ⟨b', hb', ⟨-, rfl⟩ | ⟨he, -⟩⟩ := after c b hb
    · exact h.submitted c b hb' hs
    · exact he

end CommandTracker

namespace Trackers

variable {t u : Trackers} {gone : List Handle} {queue : Handle}

/-- The books after a batch has been submitted to a queue. -/
def withBatch (t : Trackers) (queue : Handle) (submits : List SubmitBatch) (b : Batch) : Trackers :=
  { t with
    commands := t.commands.submitted b.commandBuffers ⟨queue, b.sequence, b.fence⟩
    queues := enterBatch t.queues queue submits b }

/-- The batch that a submission makes. -/
def batchOf (t : Trackers) (q : Queue) (submits : List SubmitBatch) (fence : Option Handle) :
    Batch where
  sequence := q.lastSubmitted + 1
  commandBuffers := submits.flatMap (·.commandBuffers)
  fence := fence
  waitSemaphores := submits.flatMap (·.waitSemaphores)
  memory := t.commands.memoryOf (submits.flatMap (·.commandBuffers))

theorem asks_checkSemaphores (s : SubmitBatch) : (checkSemaphores s).Asks := by
  unfold checkSemaphores
  refine (Track.Asks.forM (fun semaphore => ?_) _).bind fun _ =>
    Track.Asks.forM (fun semaphore => ?_) _
  · refine (Track.asks_query fun t => t.mild_semaphore semaphore).bind fun state => ?_
    split
    · exact Track.asks_throw rfl
    · exact Track.asks_warn _
    · exact Track.asks_pure _
  · refine (Track.asks_query fun t => t.mild_semaphore semaphore).bind fun state => ?_
    by_cases signaled : state = .signaled
    · rw [if_pos signaled]
      exact Track.asks_throw rfl
    · rw [if_neg signaled]
      exact Track.asks_pure _

/-- A submission is entered as one batch and answered with its number, or refused. -/
theorem submit_ends (t : Trackers) (queue : Handle) (submits : List SubmitBatch)
    (fence : Option Handle) :
    (submit queue submits fence).Ends t
      (fun s u => ∃ q, t.queues.queues.find? queue = some q ∧
        (∀ f ∈ fence, t.queues.checkFenceSubmittable f = .ok ()) ∧
        (∀ c ∈ submits.flatMap (·.commandBuffers),
          t.commands.checkSubmittable t.queues c = .ok ()) ∧
        u = t.withBatch queue submits (t.batchOf q submits fence) ∧
        s = q.lastSubmitted + 1) (Refused t) := by
  unfold submit
  refine Track.Asks.before (Track.asks_query fun t => t.queues.mild_queue queue)
    (fun q hq => ?_) fun _ hv => ⟨hv, rfl⟩
  rw [Track.on_query, QueueTracker.queue_eq_ok_iff] at hq
  rcases fence with _ | fence
  case' none => have free : ∀ f ∈ (none : Option Handle),
      t.queues.checkFenceSubmittable f = .ok () := fun _ hf => nomatch hf
  case' some =>
    refine Track.Asks.before
      (Track.asks_query fun t => t.queues.mild_checkFenceSubmittable fence) (fun _ hf => ?_)
      fun _ hv => ⟨hv, rfl⟩
    have free : ∀ f ∈ some fence, t.queues.checkFenceSubmittable f = .ok () := fun f he => by
      cases he
      exact hf
  all_goals
    rw [Track.ends_bind]
    refine (Track.ends_forM_check (fun c => t.commands.checkSubmittable t.queues c = .ok ())
      (fun c => ?_) _).mono (fun _ u hu => ?_) fun _ _ h => h
    · rw [Track.ends_query, Track.ends_ofExcept]
      exact ⟨fun _ h => ⟨rfl, h⟩, fun v hv =>
        ⟨t.commands.mild_checkSubmittable t.queues c v hv, rfl⟩⟩
    · obtain ⟨rfl, ready⟩ := hu
      refine Track.Asks.before (Track.Asks.forM (fun s => (asks_checkSemaphores s).within
        fun _ => rfl) submits) (fun _ _ => ?_) fun _ hv => ⟨hv, rfl⟩
      exact ⟨q, hq, free, ready, rfl, rfl⟩

/-- A submission is entered where its queue is tracked and every check passes. -/
theorem submit_answers_iff (t : Trackers) (queue : Handle) (submits : List SubmitBatch)
    (fence : Option Handle) : (submit queue submits fence).Answers t ↔
      (∃ q, t.queues.queue queue = .ok q) ∧
      (∀ f ∈ fence, ∃ u, t.queues.checkFenceSubmittable f = .ok u) ∧
      ((submits.flatMap (·.commandBuffers)).forM fun cb =>
        Track.query fun t => t.commands.checkSubmittable t.queues cb).Answers t ∧
      (submits.forM fun s => onQueues (checkSemaphores s)).Answers t := by
  have buffers : ((submits.flatMap (·.commandBuffers)).forM fun cb =>
      Track.query fun t : Trackers => t.commands.checkSubmittable t.queues cb).Asks :=
    Track.Asks.forM (fun c => Track.asks_query fun t =>
      t.commands.mild_checkSubmittable t.queues c) _
  have semaphores : (submits.forM fun s => onQueues (checkSemaphores s)).Asks :=
    Track.Asks.forM (fun s => (asks_checkSemaphores s).within fun _ => rfl) submits
  unfold submit
  rw [(Track.asks_query fun t => t.queues.mild_queue queue).answers_bind]
  simp only [Track.on_query]
  rw [← exists_and_right]
  refine exists_congr fun q => and_congr_right fun _ => ?_
  cases fence with
  | none =>
      simp only [reduceCtorEq, Option.mem_def, false_implies, implies_true, true_and]
      rw [buffers.answers_and, semaphores.answers_and]
      exact and_congr_right fun _ => and_iff_left ⟨_, rfl⟩
  | some f =>
      simp only [Option.mem_def, Option.some.injEq, forall_eq']
      rw [(Track.asks_query fun t => t.queues.mild_checkFenceSubmittable f).answers_and,
        buffers.answers_and, semaphores.answers_and]
      exact and_congr_right fun _ => and_congr_right fun _ => and_iff_left ⟨_, rfl⟩

/-- The books are consistent after a submission. -/
theorem Sound.withBatch (h : t.Sound) {q : Queue} (hq : t.queues.queues.find? queue = some q)
    {submits : List SubmitBatch} {b : Batch} (hb : b.sequence = q.lastSubmitted + 1)
    (ready : ∀ c ∈ b.commandBuffers,
      ∃ r, t.commands.buffers.find? c = some r ∧ r.state = .executable) :
    (t.withBatch queue submits b).Sound where
  linked := h.linked.congr h.linked.tallied (fun _ _ => Iff.rfl) (fun _ _ => Iff.rfl)
    (fun _ _ => Iff.rfl) fun _ _ => CommandTracker.touches_submitted
  chained := h.chained
  pooled := CommandTracker.pooled_submitted h.pooled ready
  kept := by
    intro g q' hq'
    rcases Registry.found_after_modify hq hq' with ⟨-, rfl⟩ | ⟨-, hq'⟩
    · exact (h.kept queue q hq).push hb
    · exact h.kept g q' hq'

/-! ## Retirement -/

/-- Only the queues hold work, so the other books do not depend on them. -/
theorem Sound.withQueues (h : t.Sound) {queues : QueueTracker} (kept : queues.Kept) :
    ({ t with queues } : Trackers).Sound :=
  ⟨⟨h.linked.tallied, h.linked.bound, h.linked.touched⟩, h.chained, h.pooled, kept⟩

theorem Sound.cleared (h : t.Sound) (cb : Handle) :
    (t.recycled cb fun b => .fresh b.pool).Sound :=
  ⟨h.linked.recycled cb fun _ => rfl, h.chained,
    h.pooled.change (fun _ => rfl) (.inr fun _ _ => rfl) fun _ _ hs => absurd rfl hs, h.kept⟩

/-- A command buffer whose submission retires is made fresh or left as it is; the
retirement stops only at one that is gone. -/
theorem retireCommandBuffer_ends (h : t.Linked) (sequence : Nat) (cb : Handle) :
    (retireCommandBuffer sequence cb).Ends t
      (fun _ u => ∃ b, t.commands.buffers.find? cb = some b ∧
        (u = t ∨ (b.lastSubmission.map (·.sequence) = some sequence ∧ b.state = .executable) ∧
          u = t.recycled cb fun b => .fresh b.pool))
      fun _ u => t.commands.buffers.find? cb = none ∧ u = t := by
  unfold retireCommandBuffer
  rw [Track.ends_bind, Track.ends_get]
  split
  next hb => exact ⟨hb, rfl⟩
  next b hb =>
    split
    next due =>
      rw [Track.ends_bind]
      refine (clear_ends h hb).mono (fun _ u hu => ?_) fun _ _ hf => hf.elim
      exact ⟨b, hb, .inr ⟨⟨due.1, due.2.1⟩, hu⟩⟩
    next _ => exact ⟨b, hb, .inl rfl⟩

/-- What an operation leaves that only retires work. -/
structure Retires (t u : Trackers) : Prop where
  /-- The books agree. -/
  sound : u.Sound
  /-- Every pool lists what it listed. -/
  members : ∀ c, t.commands.Member c → u.commands.Member c
  /-- No allocation gets more links. -/
  counted : t.memory.Counted → u.memory.Counted

theorem retireBatch_ends (h : Retires t u) (b : Batch) :
    (retireBatch b).Ends u (fun _ v => Retires t v) fun _ v => Retires t v := by
  have signaled : Retires t { u with queues := afterBatch u.queues b } :=
    ⟨h.sound.withQueues h.sound.kept, h.members, h.counted⟩
  unfold retireBatch
  rw [Track.ends_bind, Track.ends_modify]
  refine Track.Ends.forM_keeps (Retires t) signaled fun c _ v hv => ?_
  refine (retireCommandBuffer_ends hv.sound.linked b.sequence c).mono (fun _ w hw => ?_)
    fun _ w hw => ?_
  · obtain ⟨r, -, rfl | ⟨-, rfl⟩⟩ := hw
    · exact hv
    · exact ⟨hv.sound.cleared c, fun k hk => (hv.members k hk).change fun _ => rfl,
        fun few => (hv.counted few).forget c⟩
  · rw [hw.2]
    exact hv

theorem checkRetirement_eq_ok_iff {q : Queue} {r : Retirement} {v : Unit} :
    checkRetirement q r = .ok v ↔ q.lastRetired ≤ r.upTo ∧ r.upTo ≤ q.lastSubmitted := by
  unfold checkRetirement
  split
  · simp
    omega
  · split
    · simp
      omega
    · simp
      omega

theorem fatal_checkRetirement {q : Queue} {r : Retirement} {v : Violation}
    (h : checkRetirement q r = .error v) : v.isFatal = true := by
  unfold checkRetirement at h
  split at h
  · cases h
    rfl
  · split at h
    · cases h
      rfl
    · cases h

/-- Queues have their work in order after one of them has retired. -/
theorem kept_retired (h : t.queues.Kept) {q : Queue} {r : Retirement}
    (hq : t.queues.queues.find? r.queue = some q)
    (hr : q.lastRetired ≤ r.upTo ∧ r.upTo ≤ q.lastSubmitted) :
    ({ t.queues with queues := t.queues.queues.modify r.queue (·.retired r.upTo) } :
      QueueTracker).Kept := by
  intro g q' hq'
  rcases Registry.found_after_modify hq hq' with ⟨-, rfl⟩ | ⟨-, hq'⟩
  · exact (h r.queue q hq).retired hr.1 hr.2
  · exact h g q' hq'

/-- A retirement leaves consistent books, even where it stops. -/
theorem retireUpTo_ends (h : t.Sound) (r : Retirement) :
    (retireUpTo r).Ends t (fun _ u => Retires t u) fun _ u => Retires t u := by
  have same : Retires t t := ⟨h, fun _ hc => hc, fun few => few⟩
  unfold retireUpTo
  refine Track.Asks.before (Track.asks_query fun t => t.queues.mild_queue r.queue)
    (fun q hq => ?_) fun _ _ => same
  rw [Track.on_query, QueueTracker.queue_eq_ok_iff] at hq
  rw [Track.ends_bind, Track.ends_ofExcept]
  refine ⟨fun _ hr => ?_, fun _ _ => same⟩
  rw [Track.ends_bind, Track.ends_modify, Track.ends_bind]
  have moved : Retires t { t with queues := { t.queues with
      queues := t.queues.queues.modify r.queue (·.retired r.upTo) } } :=
    ⟨h.withQueues (kept_retired h.kept hq (checkRetirement_eq_ok_iff.mp hr)),
      fun _ hc => hc, fun few => few⟩
  refine (Track.Ends.forM_keeps (Retires t) moved fun b _ u hu => retireBatch_ends hu b).mono
    (fun _ u hu => ?_) fun _ _ hu => hu
  split
  · exact hu
  · exact hu

end Trackers

end GpuAudit
