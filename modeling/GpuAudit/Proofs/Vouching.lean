import GpuAudit.Proofs.InFlight
import GpuAudit.Proofs.Returns
import GpuAudit.Proofs.Sparing
import GpuAudit.Proofs.Successive

/-!
# Command buffers vouch for their batches

The record of a command buffer names its last submission.  `Vouched` says that this is
the batch in flight that lists the command buffer, or a later one on the same queue if
the command buffer was begun for simultaneous use.  Every call keeps this, whatever the
books are and wherever it stops, since it spares command buffers in flight; and every
retirement does, since it returns only command buffers whose last batch is due.  A
submission keeps it if no command buffer that it lists is in flight on another queue.

A run that submits each command buffer to one queue only makes no other submissions
(`Reached.unshared`).
-/

namespace GpuAudit

/-! ## The record of a command buffer in flight -/

/-- The record of a command buffer vouches for its part in a batch: the command buffer was
last submitted in the batch, or again to the queue of the batch and for simultaneous use. -/
def CommandTracker.Vouches (t : CommandTracker) (queue : Handle) (sequence : Nat) (c : Handle) :
    Prop :=
  ∃ r s, t.buffers.find? c = some r ∧ r.state = .executable ∧ r.lastSubmission = some s ∧
    s.queue = queue ∧ sequence ≤ s.sequence ∧
    (r.usage.contains CommandBufferUsage.simultaneousUse = true ∨ sequence = s.sequence)

/-- Every command buffer vouches for its part in the batches in flight. -/
def Vouched (commands : CommandTracker) (queues : QueueTracker) : Prop :=
  ∀ queue q, queues.queues.find? queue = some q → ∀ b ∈ q.inFlight, ∀ c ∈ b.commandBuffers,
    commands.Vouches queue b.sequence c

section Vouched

variable {commands : CommandTracker} {queues queues' : QueueTracker} {c : Handle}

theorem vouched_empty : Vouched .empty .empty := by
  intro queue q hq
  simp [QueueTracker.empty] at hq

theorem Vouched.fewer (h : Vouched commands queues) (sheds : queues.Sheds queues') :
    Vouched commands queues' := sheds.all h

/-- A command buffer that vouches for a batch in flight is in flight itself. -/
theorem CommandTracker.Vouches.unretired {queue : Handle} {q : Queue} {b : Batch}
    (h : commands.Vouches queue b.sequence c) (kept : queues.Kept)
    (hq : queues.queues.find? queue = some q) (hb : b ∈ q.inFlight) :
    commands.isInFlight queues c = true := by
  obtain ⟨r, s, hr, -, hs, rfl, later, -⟩ := h
  have := ((kept s.queue q hq).sequence hb).1
  exact CommandTracker.isInFlight_iff.mpr ⟨r, s, q, hr, hs, hq, by omega⟩

end Vouched

/-- A command buffer may be submitted if it is executable, and again while it is in flight if
it was begun for simultaneous use. -/
theorem CommandTracker.checkSubmittable_eq_ok_iff {t : CommandTracker} {queues : QueueTracker}
    {c : Handle} {v : Unit} : t.checkSubmittable queues c = .ok v ↔
      ∃ r, t.buffers.find? c = some r ∧ r.state = .executable ∧
        (t.isInFlight queues c = true →
          r.usage.contains CommandBufferUsage.simultaneousUse = true) := by
  unfold checkSubmittable
  rw [bind_eq_ok_iff]
  refine exists_congr fun r => ?_
  rw [lookup_eq_ok_iff]
  refine and_congr_right fun hr => ?_
  unfold isInFlight
  rw [hr, Option.bind_some]
  by_cases ready : r.state = .executable
  · rw [if_neg (not_not_intro ready)]
    cases r.lastSubmission with
    | none => simp [ready]
    | some s =>
        cases r.usage.contains CommandBufferUsage.simultaneousUse <;>
          cases queues.isRetired s <;> simp [ready]
  · simp [ready]

namespace Trackers

variable {t u : Trackers} {queue c : Handle}

/-! ## Calls -/

/-- What spares command buffers in flight lets them vouch. -/
theorem vouched_of_spares (h : Vouched t.commands t.queues) (kept : t.queues.Kept)
    (spares : Spares t u) : Vouched u.commands u.queues := by
  intro queue q hq b hb c hc
  rw [spares.queues] at hq
  have vouches := h queue q hq b hb c hc
  obtain ⟨r, s, hr, ready, rest⟩ := id vouches
  exact ⟨r, s, spares.buffers c r hr ready (vouches.unretired kept hq hb), ready, rest⟩

/-- A submission lets command buffers vouch, if none of its own is in flight on another
queue. -/
theorem vouched_withBatch (h : Vouched t.commands t.queues) (kept : t.queues.Kept) {q : Queue}
    (hq : t.queues.queues.find? queue = some q) {submits : List SubmitBatch}
    {fence : Option Handle}
    (ready : ∀ c ∈ submits.flatMap (·.commandBuffers),
      t.commands.checkSubmittable t.queues c = .ok ())
    (only : ∀ c ∈ submits.flatMap (·.commandBuffers), t.queues.OnlyOn queue c) :
    Vouched (t.withBatch queue submits (t.batchOf q submits fence)).commands
      (t.withBatch queue submits (t.batchOf q submits fence)).queues := by
  have marked : ∀ c ∈ submits.flatMap (·.commandBuffers), ∀ r, t.commands.buffers.find? c = some r →
      (t.commands.submitted (submits.flatMap (·.commandBuffers))
        ⟨queue, q.lastSubmitted + 1, fence⟩).buffers.find? c =
          some { r with lastSubmission := some ⟨queue, q.lastSubmitted + 1, fence⟩ } := by
    intro c listed r hr
    rw [CommandTracker.find?_submitted, if_pos listed, hr, Option.map_some]
  -- What was in flight before may have been submitted again.
  have old : ∀ g q', t.queues.queues.find? g = some q' → ∀ b ∈ q'.inFlight,
      ∀ c ∈ b.commandBuffers,
        (t.withBatch queue submits (t.batchOf q submits fence)).commands.Vouches g b.sequence c := by
    intro g q' hq' b hb c hc
    have vouches := h g q' hq' b hb c hc
    obtain ⟨r, s, hr, executable, rest⟩ := id vouches
    by_cases listed : c ∈ submits.flatMap (·.commandBuffers)
    · obtain rfl := only c listed g q' hq' ⟨b, hb, hc⟩
      rw [hq, Option.some.injEq] at hq'
      subst hq'
      obtain ⟨r', hr', -, again⟩ := CommandTracker.checkSubmittable_eq_ok_iff.mp (ready c listed)
      rw [hr, Option.some.injEq] at hr'
      subst hr'
      refine ⟨_, _, marked c listed r hr, executable, rfl, rfl, ?_,
        .inl (again (vouches.unretired kept hq hb))⟩
      exact Nat.le_succ_of_le ((kept g q hq).sequence hb).2
    · refine ⟨r, s, ?_, executable, rest⟩
      exact (CommandTracker.find?_submitted _ c _ _).trans ((if_neg listed).trans hr)
  intro g q' hq' b hb c hc
  rcases Registry.found_after_modify hq hq' with ⟨rfl, rfl⟩ | ⟨-, hq'⟩
  · rcases List.mem_append.mp hb with before | new
    · exact old g q hq b before c hc
    · rw [List.mem_singleton.mp new] at hc ⊢
      obtain ⟨r, hr, executable⟩ := CommandTracker.executable_of_submittable (ready c hc)
      exact ⟨_, _, marked c hc r hr, executable, rfl, rfl, Nat.le_refl _, .inr rfl⟩
  · exact old g q' hq' b hb c hc

theorem vouched_submit (h : Vouched t.commands t.queues) (kept : t.queues.Kept)
    {submits : List SubmitBatch} {fence : Option Handle}
    (only : ∀ c ∈ submits.flatMap (·.commandBuffers), t.queues.OnlyOn queue c) :
    let u := ((submit queue submits fence).on t).state
    Vouched u.commands u.queues := by
  refine Track.Ends.state (P := fun u : Trackers => Vouched u.commands u.queues) ?_
  refine (submit_ends t queue submits fence).mono (fun _ u hu => ?_) fun _ u hu => ?_
  · obtain ⟨q, hq, -, ready, rfl, -⟩ := hu
    exact vouched_withBatch h kept hq ready only
  · rw [hu.2]
    exact h

/-- A new queue has nothing in flight, and everything else stays. -/
theorem addQueue_idle (queue : Handle) (t : Trackers) :
    let u := ((onQueues (QueueTracker.addQueue queue)).on t).state
    u.commands = t.commands ∧ t.queues.Sheds u.queues := by
  refine Track.Ends.state (P := fun u : Trackers =>
    u.commands = t.commands ∧ t.queues.Sheds u.queues) ?_
  unfold onQueues
  rw [Track.ends_within]
  refine (t.queues.addQueue_ends queue).mono (fun _ u hu => ?_) fun _ u hu => ?_
  · rcases hu with ⟨-, rfl⟩ | ⟨-, -, -, queues, rfl, view⟩
    · exact ⟨rfl, QueueTracker.sheds_of_queues rfl⟩
    · exact ⟨rfl, QueueTracker.sheds_of_new view⟩
  · rw [hu.2]
    exact ⟨rfl, QueueTracker.sheds_of_queues rfl⟩

/-- A call is validated by a submission, or spares command buffers in flight. -/
theorem validate_submits (owners : Owners) (device : Handle) (call : Call) (t : Trackers) :
    (∃ queue submits fence, call = .queueSubmit queue submits fence ∧
      ((validate owners device call).on t).state = ((submit queue submits fence).on t).state) ∨
    Spares t ((validate owners device call).on t).state := by
  by_cases submits : ∃ queue submits fence, call = .queueSubmit queue submits fence
  · obtain ⟨queue, submits, fence, rfl⟩ := submits
    exact .inl ⟨queue, submits, fence, rfl, state_nothing (submit queue submits fence) t⟩
  · refine .inr ((validate_spares owners device fun queue work fence he => ?_).state t)
    exact submits ⟨queue, work, fence, he⟩

/-- What a call has created is entered by a new queue, or spares command buffers in flight. -/
theorem recordCreation_adds (device : Handle) (call : Call) (t : Trackers) :
    (∃ queue, ((recordCreation device call).on t).state =
      ((onQueues (QueueTracker.addQueue queue)).on t).state) ∨
    Spares t ((recordCreation device call).on t).state := by
  by_cases adds : ∃ d queue, call = .getDeviceQueue d queue
  · obtain ⟨d, queue, rfl⟩ := adds
    exact .inl ⟨queue, Track.state_bind_pure _ _ t⟩
  · exact .inr ((recordCreation_spares device fun d queue he => adds ⟨d, queue, he⟩).state t)

/-! ## Retirements -/

/-- What holds while a retirement is under way that began with certain books. -/
structure Underway (r : Retirement) (t u : Trackers) : Prop where
  /-- What is in flight once the queue has moved on stays. -/
  spares : Spares (advance r t) u
  /-- No command buffer is submitted. -/
  commands : t.commands.Inherits u.commands

/-- What is due may be returned to its pool: a command buffer whose last submission is one
of the batches that are due is not in flight any more. -/
theorem Underway.idle {r : Retirement} (h : Underway r t u) (vouched : Vouched t.commands t.queues)
    {q : Queue} (hq : t.queues.queues.find? r.queue = some q) {b : Batch} (hb : b ∈ q.due r.upTo)
    (hc : c ∈ b.commandBuffers) {x : CommandBuffer} (hx : u.commands.buffers.find? c = some x)
    (last : x.lastSubmission.map (·.sequence) = some b.sequence) :
    u.commands.Idle u.queues c := by
  obtain ⟨flying, early⟩ := Queue.mem_due hb
  refine CommandTracker.idle_of_retired (Bool.eq_false_iff.mpr fun flies => ?_)
  obtain ⟨x', s, q', hx', hs, hq', later⟩ := CommandTracker.isInFlight_iff.mp flies
  cases hx.symm.trans hx'
  obtain ⟨old, ho, hos, -⟩ := h.commands c x s hx hs
  obtain ⟨r', s', hr', -, hs', here, -⟩ := vouched r.queue q hq b flying c hc
  cases ho.symm.trans hr'
  cases hos.symm.trans hs'
  rw [hs, Option.map_some, Option.some.injEq] at last
  have moved : (advance r t).queues.queues.find? s.queue = some (q.retired r.upTo) := by
    show (t.queues.queues.modify r.queue _).find? s.queue = _
    rw [Registry.find?_modify, if_pos here, here, hq, Option.map_some]
  rw [h.spares.queues, moved, Option.some.injEq] at hq'
  rw [← hq'] at later
  have : r.upTo < s.sequence := later
  omega

theorem retireCommandBuffer_underway {r : Retirement} (h : Underway r t u)
    (vouched : Vouched t.commands t.queues) {q : Queue}
    (hq : t.queues.queues.find? r.queue = some q) {b : Batch} (hb : b ∈ q.due r.upTo)
    (hc : c ∈ b.commandBuffers) :
    (retireCommandBuffer b.sequence c).Ends u (fun _ => Underway r t) fun _ => Underway r t := by
  unfold retireCommandBuffer
  rw [Track.ends_bind, Track.ends_get]
  split
  next => exact h
  next x hx =>
    split
    next due =>
      have idle := h.idle vouched hq hb hc hx due.1
      have cleared : ∀ w, Limited c u w ∧ Steady u w → Underway r t w := fun w hw =>
        ⟨trans_of Spares h.spares (spares_of_limited idle hw.1),
          trans_of CommandTracker.Inherits h.commands hw.2.commands⟩
      rw [Track.ends_bind]
      exact ((clear_limited c u).and (clear_steady c u)).mono (fun _ => cleared) fun _ => cleared
    next => exact h

theorem retireBatch_underway {r : Retirement} (h : Underway r t u)
    (vouched : Vouched t.commands t.queues) {q : Queue}
    (hq : t.queues.queues.find? r.queue = some q) {b : Batch} (hb : b ∈ q.due r.upTo) :
    (retireBatch b).Ends u (fun _ => Underway r t) fun _ => Underway r t := by
  have spared : Spares u { u with queues := afterBatch u.queues b } :=
    spares_of_leaves rfl (refl_of CommandTracker.Leaves u.commands)
  have signaled : Underway r t { u with queues := afterBatch u.queues b } :=
    ⟨trans_of Spares h.spares spared, h.commands⟩
  unfold retireBatch
  rw [Track.ends_bind, Track.ends_modify]
  exact Track.Ends.forM_keeps (Underway r t) signaled fun c hc _ hw =>
    retireCommandBuffer_underway hw vouched hq hb hc

/-- A retirement lets command buffers vouch, even where it stops. -/
theorem vouched_retireUpTo (h : Vouched t.commands t.queues) (kept : t.queues.Kept)
    (r : Retirement) :
    let u := ((retireUpTo r).on t).state
    Vouched u.commands u.queues := by
  by_cases range : ∃ q, t.queues.queues.find? r.queue = some q ∧
      q.lastRetired ≤ r.upTo ∧ r.upTo ≤ q.lastSubmitted
  · obtain ⟨q, hq, range⟩ := range
    have moved : Vouched (advance r t).commands (advance r t).queues :=
      h.fewer (t.queues.sheds_retired r)
    have started : Underway r t (advance r t) :=
      ⟨refl_of Spares _, refl_of CommandTracker.Inherits t.commands⟩
    have ends : (retireUpTo r).Ends t (fun _ => Underway r t) fun _ => Underway r t :=
      (ends_retireUpTo hq range).mpr (Track.Ends.forM_keeps (Underway r t) started
        fun b hb _ hu => retireBatch_underway hu h hq hb)
    exact vouched_of_spares moved (kept_retired kept hq range) ends.state.spares
  · have same : ((retireUpTo r).on t).state = t :=
      ((retireUpTo_refused fun q hq hr => range ⟨q, hq, hr⟩).mono (fun _ _ hu => hu.elim)
        fun _ _ hu => hu).state
    rw [same]
    exact h

/-- A retirement sheds batches, even where it stops. -/
theorem sheds_retireUpTo (t : Trackers) (r : Retirement) :
    t.queues.Sheds ((retireUpTo r).on t).state.queues := by
  have moved : ∀ bs, t.queues.Sheds (t.queues.passed r bs) := fun bs g q' hq' =>
    t.queues.sheds_retired r g q' (t.queues.queues_passed r bs ▸ hq')
  refine Track.Ends.state (P := fun u : Trackers => t.queues.Sheds u.queues) ?_
  refine (retireUpTo_effect t r).mono (fun bs _ passes => ?_) fun _ _ stops => ?_
  · exact passes.queues ▸ moved bs
  · cases stops with
    | refused => exact QueueTracker.sheds_of_queues rfl
    | halfway _ _ _ _ queues => exact queues ▸ moved _

end Trackers

/-! ## Runs -/

namespace Layer

variable {l : Layer} {config : Config} {device : Handle} {session : Session}

/-- The hooks that submit to a queue of a device no command buffer that is in flight on
another one. -/
def Unshared (device : Handle) (l : Layer) (hook : Hook) : Prop :=
  ∀ work ∈ hook.submission?, l.drained.owners[work.1]? = some device →
    ∀ session ∈ l.drained.sessions[device]?, ∀ c ∈ work.2.flatMap (·.commandBuffers),
      session.trackers.queues.OnlyOn work.1 c

instance (l : Layer) (hook : Hook) : Decidable (Unshared device l hook) :=
  inferInstanceAs (Decidable (∀ work ∈ hook.submission?, _))

/-- What the hooks keep of the books of all devices, with the command buffers of one. -/
structure Vouching (device other : Handle) (t : Trackers) : Prop where
  /-- Last submissions are those of batches in flight. -/
  scheduled : t.Scheduled
  /-- The command buffers of the device vouch for their batches. -/
  vouched : other = device → Vouched t.commands t.queues

/-- The calls that submit to one device no command buffer in flight on another queue. -/
def SubmitsUnshared (device other : Handle) (t : Trackers) (call : Call) : Prop :=
  other = device → ∀ queue submits fence, call = .queueSubmit queue submits fence →
    ∀ c ∈ submits.flatMap (·.commandBuffers), t.queues.OnlyOn queue c

theorem vouching_invariant (device : Handle) :
    SessionInvariant (fun _ => Vouching device) fun _ => SubmitsUnshared device where
  empty _ _ _ := ⟨Trackers.scheduled_empty, fun _ => vouched_empty⟩
  lose _ _ _ _ _ h := h
  retire _ _ _ r h := ⟨h.scheduled.retire r, fun he =>
    Trackers.vouched_retireUpTo (h.vouched he) h.scheduled.guarded.kept r⟩
  validate owners other t call h may _ := by
    have kept := h.scheduled.guarded.kept
    refine ⟨((Trackers.validate_moves owners other call).state t).scheduled h.scheduled,
      fun he => ?_⟩
    rcases Trackers.validate_submits owners other call t with
      ⟨queue, submits, fence, submitted, left⟩ | spares
    · rw [left]
      exact Trackers.vouched_submit (h.vouched he) kept (may he queue submits fence submitted)
    · exact Trackers.vouched_of_spares (h.vouched he) kept spares
  record _ other t call h := by
    refine ⟨((Trackers.recordCreation_moves other call).state t).scheduled h.scheduled,
      fun he => ?_⟩
    rcases Trackers.recordCreation_adds other call t with ⟨queue, left⟩ | spares
    · obtain ⟨commands, fewer⟩ := Trackers.addQueue_idle queue t
      rw [left, commands]
      exact (h.vouched he).fewer fewer
    · exact Trackers.vouched_of_spares (h.vouched he) h.scheduled.guarded.kept spares

theorem vouching_of_reached (h : Reached (Unshared device) config l) :
    l.Holds fun _ => Vouching device := by
  refine holds_of_reached (vouching_invariant device)
    (fun k call ok _ other s hs _ he queue submits fence hc => ?_) h
  subst hc he
  obtain ⟨hf, owner⟩ := session_of_call hs
  exact ok (queue, submits) rfl (owner queue rfl) s hf

end Layer

/-! ## One queue for each command buffer -/

/-- A hook submits every command buffer to its own queue. -/
def Hook.KeepsHome (home : Handle → Handle) (hook : Hook) : Prop :=
  ∀ work ∈ hook.submission?, ∀ c ∈ work.2.flatMap (·.commandBuffers), home c = work.1

instance (home : Handle → Handle) (hook : Hook) : Decidable (hook.KeepsHome home) :=
  inferInstanceAs (Decidable (∀ work ∈ hook.submission?, _))

namespace QueueTracker

variable {t : QueueTracker}

/-- Every command buffer in flight is in flight on its own queue. -/
def AtHome (home : Handle → Handle) (t : QueueTracker) : Prop :=
  ∀ queue q, t.queues.find? queue = some q → ∀ b ∈ q.inFlight, ∀ c ∈ b.commandBuffers,
    home c = queue

theorem atHome_empty {home : Handle → Handle} : empty.AtHome home := by
  intro queue q hq
  simp [empty] at hq

theorem AtHome.fewer {home : Handle → Handle} (h : t.AtHome home) {t' : QueueTracker}
    (sheds : t.Sheds t') : t'.AtHome home := sheds.all h

end QueueTracker

/-- A submission of command buffers to their own queue. -/
theorem Trackers.atHome_withBatch {home : Handle → Handle} {t : Trackers}
    (h : t.queues.AtHome home) {queue : Handle} {q : Queue}
    (hq : t.queues.queues.find? queue = some q) {submits : List SubmitBatch}
    {fence : Option Handle} (homes : ∀ c ∈ submits.flatMap (·.commandBuffers), home c = queue) :
    (t.withBatch queue submits (t.batchOf q submits fence)).queues.AtHome home := by
  intro g q' hq' b hb c hc
  rcases Registry.found_after_modify hq hq' with ⟨rfl, rfl⟩ | ⟨-, hq'⟩
  · rcases List.mem_append.mp hb with before | new
    · exact h g q hq b before c hc
    · rw [List.mem_singleton.mp new] at hc
      exact homes c hc
  · exact h g q' hq' b hb c hc

namespace Layer

variable {l : Layer} {config : Config} {device : Handle} {home : Handle → Handle}

theorem atHome_invariant (home : Handle → Handle) :
    SessionInvariant (fun _ _ t => t.queues.AtHome home) fun _ _ _ call =>
      ∀ queue submits fence, call = .queueSubmit queue submits fence →
        ∀ c ∈ submits.flatMap (·.commandBuffers), home c = queue where
  empty _ _ _ := QueueTracker.atHome_empty
  lose _ _ _ _ _ h := h
  retire _ _ t r h := h.fewer (Trackers.sheds_retireUpTo t r)
  validate owners device t call h may _ := by
    rcases Trackers.validate_submits owners device call t with
      ⟨queue, submits, fence, submitted, left⟩ | spares
    · rw [left]
      refine Track.Ends.state (P := fun u : Trackers => u.queues.AtHome home) ?_
      refine (Trackers.submit_ends t queue submits fence).mono (fun _ u hu => ?_) fun _ u hu => ?_
      · obtain ⟨q, hq, -, -, rfl, -⟩ := hu
        exact Trackers.atHome_withBatch h hq (may queue submits fence submitted)
      · rw [hu.2]
        exact h
    · exact h.fewer (QueueTracker.sheds_of_queues spares.queues)
  record _ device t call h := by
    rcases Trackers.recordCreation_adds device call t with ⟨queue, left⟩ | spares
    · rw [left]
      exact h.fewer (Trackers.addQueue_idle queue t).2
    · exact h.fewer (QueueTracker.sheds_of_queues spares.queues)

/-- A run that submits each command buffer to one queue only submits none that is in flight
on another queue. -/
theorem Reached.unshared (h : Reached (fun _ hook => hook.KeepsHome home) config l) :
    Reached (Unshared device) config l := by
  induction h with
  | start => exact .start
  | @step k before hook keeps ih =>
      refine ih.step hook fun work hw _ s hs c hc g q hq busy => ?_
      have homes : k.Holds fun _ _ t => t.queues.AtHome home := by
        refine holds_of_reached (atHome_invariant home)
          (fun _ _ ok _ _ _ _ _ queue submits _ he => ?_) before
        subst he
        exact ok (queue, submits) rfl
      obtain ⟨b, hb, listed⟩ := busy
      rw [← keeps work hw c hc]
      exact ((homes.drained (atHome_invariant home).toRetirementInvariant).books device s hs
        g q hq b hb c listed).symm

end Layer

end GpuAudit
