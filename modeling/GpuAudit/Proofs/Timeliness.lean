import GpuAudit.Proofs.InFlight
import GpuAudit.Proofs.Passing
import GpuAudit.Proofs.Returns
import GpuAudit.Proofs.Semaphores

/-!
# Nothing waits longer than its work is in flight

A fence is in use, a semaphore is waited on, and a command buffer that was begun for one
submission keeps its last submission, until the retirement of the work comes by.  The books
are `Timely` if each of these belongs to work in flight.

Calls keep this: those that submit nothing let no fence, no semaphore and no command buffer
begin to wait, and a submission puts its own batch in flight.  A retirement keeps it if it
goes through, since it comes by all batches that are due.  One that stops half way would not;
but where work in flight has what it needs, a retirement goes through or changes nothing
(`retireUpTo_passes`).
-/

namespace GpuAudit

open Trackers (afterBatch afterSubmit enterBatch)

/-! ## Semaphores -/

/-- A semaphore that units of work leave in the state of a wait is one that they wait on. -/
theorem SubmitBatch.mem_of_leave {h : Handle} : ∀ {submits : List SubmitBatch},
    leave submits h = some .wait → h ∈ submits.flatMap (·.waitSemaphores)
  | s :: submits, waits => by
      rw [leave, Option.or_eq_some_iff] at waits
      rw [List.flatMap_cons]
      rcases waits with later | ⟨-, now⟩
      · exact List.mem_append_right _ (mem_of_leave later)
      · refine List.mem_append_left _ ?_
        unfold leaves at now
        split at now
        · cases now
        · split at now
          next listed => exact listed
          next => cases now

namespace QueueTracker

variable {t u : QueueTracker} {queue : Handle} {q : Queue}

/-- Every semaphore in the state of a wait is waited on by a batch in flight. -/
def Awaited (t : QueueTracker) : Prop :=
  ∀ s, t.semaphores.find? s = some .wait →
    ∃ queue q, t.queues.find? queue = some q ∧ ∃ b ∈ q.inFlight, s ∈ b.waitSemaphores

theorem awaited_empty : empty.Awaited := by
  intro s hs
  simp [empty] at hs

/-- Every queue stays, and no semaphore begins to wait. -/
structure Quiets (t u : QueueTracker) : Prop where
  /-- Every queue stays. -/
  queues : ∀ g q, t.queues.find? g = some q → u.queues.find? g = some q
  /-- No semaphore begins to wait. -/
  semaphores : ∀ s, u.semaphores.find? s = some .wait → t.semaphores.find? s = some .wait

theorem quiets_of_same (queues : u.queues = t.queues) (semaphores : t.SameSemaphores u) :
    t.Quiets u :=
  ⟨fun _ _ hq => queues ▸ hq, fun _ hs => semaphores ▸ hs⟩

theorem Awaited.quiets (h : t.Awaited) (quiets : t.Quiets u) : u.Awaited := by
  intro s hs
  obtain ⟨queue, q, hq, flying⟩ := h s (quiets.semaphores s hs)
  exact ⟨queue, q, quiets.queues queue q hq, flying⟩

theorem addQueue_quiets (queue : Handle) : (addQueue queue).Confined Quiets := by
  intro t
  refine ((t.addQueue_ends queue).and (addQueue_sameSemaphores queue t)).mono
    (fun _ u hu => ?_) fun _ u hu => quiets_of_same (by rw [hu.1.2]) hu.2
  obtain ⟨⟨-, rfl⟩ | ⟨-, -, new, queues, rfl, view⟩, same⟩ := hu
  · exact quiets_of_same rfl same
  · refine ⟨fun g q hq => (view g).trans ((if_neg fun here => ?_).trans hq), fun _ hs => hs⟩
    rw [here, new] at hq
    cases hq

/-- An operation on fences leaves the queues and the semaphores. -/
theorem quiets_of_fences {x : Track QueueTracker Unit} {asked : Prop} {made : QueueTracker → Prop}
    (ends : x.Ends t (fun _ u => asked ∧ u.queues = t.queues ∧ made u) (Track.Refused t))
    (same : x.Ends t (fun _ => t.SameSemaphores) fun _ => t.SameSemaphores) :
    x.Ends t (fun _ => t.Quiets) fun _ => t.Quiets :=
  (ends.and same).mono (fun _ _ hu => quiets_of_same hu.1.2.1 hu.2) fun _ _ hu =>
    quiets_of_same (by rw [hu.1.2]) hu.2

theorem createFence_quiets (fence : Handle) (signaled : Bool) :
    (createFence fence signaled).Confined Quiets := fun t =>
  quiets_of_fences (t.createFence_ends fence signaled) (createFence_sameSemaphores fence signaled t)

theorem destroyFence_quiets (fence : Handle) : (destroyFence fence).Confined Quiets := fun t =>
  quiets_of_fences (t.destroyFence_ends fence) (destroyFence_sameSemaphores fence t)

theorem resetFences_quiets (fences : List Handle) : (resetFences fences).Confined Quiets := fun t =>
  quiets_of_fences (t.resetFences_ends fences) (resetFences_sameSemaphores fences t)

/-- A new semaphore does not wait. -/
theorem createSemaphore_quiets (semaphore : Handle) :
    (createSemaphore semaphore).Confined Quiets := by
  intro t
  unfold createSemaphore
  rw [Track.ends_update_bind]
  refine ⟨fun r hr => ⟨fun _ _ hq => hq, fun s hs => ?_⟩, fun _ _ => quiets_of_same rfl rfl⟩
  have hs : r.find? s = some .wait := hs
  rw [Registry.find?_register hr] at hs
  split at hs
  · cases hs
  · exact hs

theorem destroySemaphore_quiets (semaphore : Handle) :
    (destroySemaphore semaphore).Confined Quiets := by
  intro t
  have same : t.Quiets t := quiets_of_same rfl rfl
  unfold destroySemaphore
  rw [Track.ends_bind, Track.ends_query, Track.ends_ofExcept]
  refine ⟨fun x hx => ?_, fun _ _ => same⟩
  by_cases waits : x = .wait
  · simp only [if_pos waits, Track.ends_bind, Track.ends_throw]
    exact same
  · simp only [if_neg waits]
    rw [Track.ends_update_bind]
    refine ⟨fun struck hr => ⟨fun _ _ hq => hq, fun s hs => ?_⟩, fun _ _ => same⟩
    have hs : struck.2.find? s = some .wait := hs
    rw [Registry.find?_unregister hr] at hs
    split at hs
    · cases hs
    · exact hs

/-- A retirement that goes through comes by every batch that leaves. -/
theorem Awaited.passed {r : Retirement} (h : t.Awaited) (hq : t.queues.find? r.queue = some q)
    (kept : q.Kept) (range : q.lastRetired ≤ r.upTo ∧ r.upTo ≤ q.lastSubmitted) :
    (t.passed r (q.due r.upTo)).Awaited := by
  intro s hs
  have hs := (find?_afterBatches s (q.due r.upTo) _).symm.trans hs
  split at hs
  · exact absurd hs (map_afterRetirement_ne_wait _)
  next missed =>
    obtain ⟨g, q', hq', b, hb, waits⟩ := h s hs
    have found := Registry.find?_modify t.queues r.queue (·.retired r.upTo) g
    rw [hq'] at found
    rw [queues_passed]
    by_cases here : g = r.queue
    · subst here
      cases hq.symm.trans hq'
      refine ⟨r.queue, _, found.trans (if_pos rfl), b, ?_, waits⟩
      refine (kept.mem_retired_iff range).mpr ⟨hb, Nat.lt_of_not_le fun early => missed ?_⟩
      exact ⟨b, (kept.mem_due_iff range).mpr ⟨hb, early⟩, waits⟩
    · exact ⟨g, q', found.trans (if_neg here), b, hb, waits⟩

/-- The batch of a submission waits on the semaphores that the submission leaves so. -/
theorem Awaited.entered (h : t.Awaited) (hq : t.queues.find? queue = some q)
    {submits : List SubmitBatch} {b : Batch}
    (waits : b.waitSemaphores = submits.flatMap (·.waitSemaphores)) :
    (enterBatch t queue submits b).Awaited := by
  have view : ∀ g, (enterBatch t queue submits b).queues.find? g =
      if g = queue then (t.queues.find? g).map (·.push b) else t.queues.find? g :=
    fun g => Registry.find?_modify ..
  intro s hs
  have hs := (find?_afterSubmits s submits t.semaphores).symm.trans hs
  obtain ⟨x, hx, left⟩ := Option.map_eq_some_iff.mp hs
  cases named : SubmitBatch.leave submits s with
  | some y =>
      rw [named] at left
      cases left
      refine ⟨queue, q.push b, by rw [view, if_pos rfl, hq, Option.map_some], b,
        List.mem_append_right _ (List.mem_singleton_self b), ?_⟩
      rw [waits]
      exact SubmitBatch.mem_of_leave named
  | none =>
      rw [named] at left
      cases left
      obtain ⟨g, q', hq', b', hb', listed⟩ := h s hx
      by_cases here : g = queue
      · refine ⟨g, q'.push b, by rw [view, if_pos here, hq', Option.map_some], b',
          List.mem_append_left _ hb', listed⟩
      · exact ⟨g, q', by rw [view, if_neg here, hq'], b', hb', listed⟩

end QueueTracker

/-! ## Command buffers begun for one submission -/

/-- A command buffer that was begun for one submission has no last submission but one in
flight. -/
def Returned (commands : CommandTracker) (queues : QueueTracker) : Prop :=
  ∀ c b s, commands.buffers.find? c = some b →
    b.usage.contains CommandBufferUsage.oneTimeSubmit = true → b.lastSubmission = some s →
    ∃ q, queues.queues.find? s.queue = some q ∧ q.lastRetired < s.sequence

namespace Trackers

variable {t u : Trackers} {gone : List Handle} {r : Retirement}

theorem returned_empty : Returned CommandTracker.empty .empty := by
  intro c b s hb
  simp [CommandTracker.empty] at hb

/-- An edit submits no command buffer, and one that keeps its last submission is not begun
again. -/
theorem Edit.submission (he : Edit gone t u) {c : Handle} {b : CommandBuffer} {s : Submission}
    (hb : u.commands.buffers.find? c = some b) (hs : b.lastSubmission = some s) :
    ∃ old, t.commands.buffers.find? c = some old ∧ old.lastSubmission = some s ∧
      old.usage = b.usage := by
  have changed : ∀ {cb} {f : CommandBuffer → CommandBuffer},
      (t.commands.change cb f).buffers.find? c = some b →
      (∀ b, (f b).lastSubmission = none ∨
        (f b).lastSubmission = b.lastSubmission ∧ (f b).usage = b.usage) →
      ∃ old, t.commands.buffers.find? c = some old ∧ old.lastSubmission = some s ∧
        old.usage = b.usage := by
    intro cb f hb hf
    rw [CommandTracker.find?_change] at hb
    split at hb
    · obtain ⟨old, ho, rfl⟩ := Option.map_eq_some_iff.mp hb
      rcases hf old with none | ⟨same, usage⟩
      · rw [none] at hs
        cases hs
      · exact ⟨old, ho, same.symm.trans hs, usage.symm⟩
    · exact ⟨b, hb, hs, rfl⟩
  cases he with
  | entered new view =>
      have hb := (view c).symm.trans hb
      split at hb
      · cases hb
        cases hs
      · exact ⟨b, hb, hs, rfl⟩
  | begun usage | cleared => exact changed hb fun _ => .inl rfl
  | destroyed given idle old view =>
      have hb := (view c).symm.trans hb
      split at hb
      · cases hb
      · exact ⟨b, hb, hs, rfl⟩
  | finished | touched => exact changed hb fun _ => .inr ⟨rfl, rfl⟩
  | _ => exact ⟨b, hb, hs, rfl⟩

/-- An edit leaves the queues as they are. -/
theorem Edit.queue (he : Edit gone t u) {g : Handle} {q : Queue}
    (hq : t.queues.queues.find? g = some q) : u.queues.queues.find? g = some q := by
  cases he with
  | queueMade new view =>
      refine (view g).trans ((if_neg fun here => ?_).trans hq)
      rw [here, new] at hq
      cases hq
  | _ => exact hq

theorem returned_edits (h : Returned t.commands t.queues) (he : Edits gone t u) :
    Returned u.commands u.queues := by
  induction he with
  | refl => exact h
  | tail _ he ih =>
      intro c b s hb oneTime hs
      obtain ⟨old, ho, hos, usage⟩ := he.submission hb hs
      obtain ⟨q, hq, later⟩ := ih c old s ho (usage ▸ oneTime) hos
      exact ⟨q, he.queue hq, later⟩

/-- A submission is in flight, whatever it lists. -/
theorem returned_withBatch (h : Returned t.commands t.queues) (kept : t.queues.Kept)
    {queue : Handle} {q : Queue} (hq : t.queues.queues.find? queue = some q)
    (submits : List SubmitBatch) {b : Batch} (next : b.sequence = q.lastSubmitted + 1) :
    Returned (t.withBatch queue submits b).commands (t.withBatch queue submits b).queues := by
  have view : ∀ g, (t.withBatch queue submits b).queues.queues.find? g =
      if g = queue then (t.queues.queues.find? g).map (·.push b) else t.queues.queues.find? g :=
    fun g => Registry.find?_modify ..
  intro c x s hx oneTime hs
  have hx : (t.commands.submitted b.commandBuffers _).buffers.find? c = some x := hx
  rw [CommandTracker.find?_submitted] at hx
  split at hx
  · obtain ⟨old, -, rfl⟩ := Option.map_eq_some_iff.mp hx
    cases hs
    refine ⟨q.push b, by rw [view, if_pos rfl, hq, Option.map_some], ?_⟩
    have := (kept queue q hq).inRange
    show q.lastRetired < b.sequence
    omega
  · obtain ⟨q', hq', later⟩ := h c x s hx oneTime hs
    rw [view, hq']
    split
    · exact ⟨q'.push b, rfl, later⟩
    · exact ⟨q', rfl, later⟩

/-- A retirement that goes through returns what was last submitted to its queue and is due. -/
theorem Passes.returned {bs : List Batch} (passes : Passes t r bs u) (scheduled : t.Scheduled)
    (h : Returned t.commands t.queues) : Returned u.commands u.queues := by
  obtain ⟨q, hq, range, rfl⟩ := passes.due
  intro c x s hx oneTime hs
  rw [passes.settles.commands, find?_settled] at hx
  obtain ⟨b, hb, he⟩ := Option.map_eq_some_iff.mp hx
  split at he
  · subst he
    cases hs
  next stays =>
    subst he
    obtain ⟨q', hq', later⟩ := h c b s hb oneTime hs
    rw [passes.queues, QueueTracker.queues_passed, Registry.find?_modify, hq']
    split
    next here =>
      rw [here, hq] at hq'
      cases hq'
      refine ⟨q.retired r.upTo, rfl, Nat.lt_of_not_le fun early => stays ?_⟩
      exact (scheduled.returnedBy_own hq range hb oneTime hs here).mpr ⟨later, early⟩
    next => exact ⟨q', rfl, later⟩

/-! ## Books -/

/-- What waits, waits for work in flight. -/
structure Timely (t : Trackers) : Prop where
  /-- Fences in use and last submissions are those of batches in flight until these
  retire. -/
  scheduled : t.Scheduled
  /-- No fence is in use by a submission that has retired. -/
  fences : t.queues.Prompt
  /-- A semaphore in the state of a wait is waited on by a batch in flight. -/
  semaphores : t.queues.Awaited
  /-- A command buffer begun for one submission is returned when that has retired. -/
  returned : Returned t.commands t.queues

theorem timely_empty : empty.Timely where
  scheduled := scheduled_empty
  fences := QueueTracker.prompt_empty
  semaphores := QueueTracker.awaited_empty
  returned := returned_empty

/-- A move keeps the schedule, and no fence stays in use by what has retired. -/
theorem Timely.moved (h : t.Timely) (move : Move t u) (semaphores : u.queues.Awaited)
    (returned : Returned u.commands u.queues) : u.Timely where
  scheduled := move.scheduled h.scheduled
  fences := move.prompt h.scheduled.guarded h.fences
  semaphores := semaphores
  returned := returned

/-- A move that submits nothing, by edits. -/
theorem Timely.edited (h : t.Timely) (move : Move t u) (quiets : t.queues.Quiets u.queues)
    (he : Edits gone t u) : u.Timely :=
  h.moved move (h.semaphores.quiets quiets) (returned_edits h.returned he)

theorem Timely.submit (h : t.Timely) (queue : Handle) (submits : List SubmitBatch)
    (fence : Option Handle) : ((submit queue submits fence).on t).state.Timely := by
  refine Track.Ends.state (P := Timely) ?_
  refine (submit_ends t queue submits fence).mono (fun _ u hu => ?_) fun _ u hu => hu.2 ▸ h
  obtain ⟨q, hq, free, ready, rfl, -⟩ := hu
  have kept := h.scheduled.guarded.kept
  exact h.moved (.submitted hq free ready) (h.semaphores.entered hq rfl)
    (returned_withBatch h.returned kept hq submits rfl)

theorem Passes.timely {bs : List Batch} (passes : Passes t r bs u) (h : t.Timely) : u.Timely := by
  refine h.moved (.retired passes) ?_ (passes.returned h.scheduled h.returned)
  obtain ⟨q, hq, range, rfl⟩ := passes.due
  rw [passes.queues]
  exact h.semaphores.passed hq (h.scheduled.guarded.kept _ q hq) range

/-- A retirement that is ready goes through. -/
theorem Ready.passes (ready : t.Ready r) (linked : t.Linked) :
    ∃ bs, Passes t r bs (t.pass r) := by
  obtain ⟨bs, hv, hu⟩ := (retireUpTo_of_ready linked ready).answers
  exact ⟨bs, hu ▸ (retireUpTo_effect t r).good_of_ok hv⟩

theorem Timely.pass (h : t.Timely) (linked : t.Linked) (ready : t.Ready r) : (t.pass r).Timely := by
  obtain ⟨bs, passes⟩ := ready.passes linked
  exact passes.timely h

/-- Where work in flight has what it needs, a retirement goes through or changes nothing. -/
theorem retireUpTo_passes (linked : t.Linked) (flying : InFlight t.commands t.queues)
    (r : Retirement) : (retireUpTo r).Ends t (Passes t r) fun _ u => u = t := by
  refine (retireUpTo_effect t r).mono (fun _ _ h => h) fun v u stops => ?_
  cases stops with
  | refused => rfl
  | halfway _ found _ parts _ _ gone =>
      obtain ⟨c, hc, none⟩ := gone linked
      have flies := (Queue.mem_due (mem_of_parts parts _ List.mem_concat_self)).1
      obtain ⟨x, -, hx, -⟩ := (flying r.queue _ found _ flies).submitted c hc
      rw [none] at hx
      cases hx

theorem Timely.retire (h : t.Timely) (linked : t.Linked) (flying : InFlight t.commands t.queues)
    (r : Retirement) : ((retireUpTo r).on t).state.Timely :=
  ((retireUpTo_passes linked flying r).mono (fun _ _ passes => passes.timely h)
    fun _ _ same => same ▸ h).state

/-! ## Calls -/

theorem onQueues_quiets {α : Type} {x : Track QueueTracker α}
    (hx : x.Confined QueueTracker.Quiets) :
    (onQueues x).Confined fun t u => t.queues.Quiets u.queues := fun t =>
  Track.ends_within.mpr ((hx t.queues).mono (fun _ _ h => h) fun _ _ h => h)

theorem quiets_of_steady (steady : Steady t u) : t.queues.Quiets u.queues :=
  QueueTracker.quiets_of_same (by rw [steady.queues]) (by rw [steady.queues]; rfl)

/-- A call that submits nothing lets no semaphore begin to wait. -/
theorem validate_quiets (owners : Owners) (device : Handle) {call : Call} (other : ¬Submits call) :
    (validate owners device call).Confined fun t u => t.queues.Quiets u.queues := by
  have nothing : ∀ {β : Type} {x : Track QueueTracker β}, x.Confined QueueTracker.Quiets →
      (validate.nothing (onQueues x)).Confined fun t u => t.queues.Quiets u.queues := fun hx t =>
    ends_nothing.mpr (onQueues_quiets hx t)
  by_cases schedules : Schedules call
  · cases call with
    | queueSubmit => exact absurd trivial other
    | destroyFence _ fence => exact nothing (QueueTracker.destroyFence_quiets fence)
    | resetFences _ fences => exact nothing (QueueTracker.resetFences_quiets fences)
    | destroySemaphore _ semaphore => exact nothing (QueueTracker.destroySemaphore_quiets semaphore)
    | _ => exact schedules.elim
  · exact fun t => (validate_steady owners device schedules t).mono
      (fun _ _ h => quiets_of_steady h) fun _ _ h => quiets_of_steady h

theorem recordCreation_quiets (device : Handle) (call : Call) :
    (recordCreation device call).Confined fun t u => t.queues.Quiets u.queues := by
  have nothing : ∀ {β : Type} {x : Track QueueTracker β}, x.Confined QueueTracker.Quiets →
      (recordCreation.nothing (onQueues x)).Confined fun t u => t.queues.Quiets u.queues :=
    fun hx t => Track.ends_bind.mpr (Track.ends_discard.mpr (onQueues_quiets hx t))
  by_cases equips : Equips call
  · cases call with
    | getDeviceQueue _ queue =>
        exact fun t => Track.ends_bind.mpr (onQueues_quiets (QueueTracker.addQueue_quiets queue) t)
    | createFence _ fence signaled => exact nothing (QueueTracker.createFence_quiets fence signaled)
    | createSemaphore _ semaphore => exact nothing (QueueTracker.createSemaphore_quiets semaphore)
    | _ => exact equips.elim
  · exact fun t => (recordCreation_steady device equips t).mono
      (fun _ _ h => quiets_of_steady h) fun _ _ h => quiets_of_steady h

/-- A call that submits nothing makes edits only, or changes nothing. -/
theorem validate_edits (sound : t.Sound) (owners : Owners) (device : Handle) {call : Call}
    (other : ¬Submits call) (owned : ∀ cb flags, call = .beginCommandBuffer cb flags →
      ∀ b, t.commands.buffers.find? cb = some b → t.commands.Member cb)
    (few : ((validate owners device call).on t).state.memory.Counted) :
    ∃ gone, Edits gone t ((validate owners device call).on t).state := by
  have ends := validate_call_ends sound owners device call owned
  cases hx : ((validate owners device call).on t).value with
  | ok released =>
      rcases ends.good_of_ok hx with edits | ⟨-, queue, submits, fence, -, rfl, -⟩
      · exact ⟨released, edits⟩
      · exact absurd trivial other
  | error v =>
      rcases ends.bad_of_error hx with (refused | uncounted) | ⟨-, edits⟩
      · refine ⟨[], ?_⟩
        rw [refused.2]
      · exact absurd few uncounted.2
      · exact ⟨[], edits⟩

theorem Timely.validate (h : t.Timely) (sound : t.Sound) (owners : Owners) (device : Handle)
    (call : Call) (owned : ∀ cb flags, call = .beginCommandBuffer cb flags →
      ∀ b, t.commands.buffers.find? cb = some b → t.commands.Member cb)
    (few : ((validate owners device call).on t).state.memory.Counted) :
    ((validate owners device call).on t).state.Timely := by
  by_cases submits : Submits call
  · obtain ⟨queue, batches, fence, rfl⟩ := submits.eq
    have left : ((Trackers.validate owners device (.queueSubmit queue batches fence)).on t).state =
        ((Trackers.submit queue batches fence).on t).state := state_nothing _ t
    rw [left]
    exact h.submit queue batches fence
  · obtain ⟨gone, edits⟩ := validate_edits sound owners device submits owned few
    exact h.edited ((validate_moves owners device call).state t)
      ((validate_quiets owners device submits).state t) edits

theorem Timely.record (h : t.Timely) (device : Handle) (call : Call) :
    ((recordCreation device call).on t).state.Timely :=
  h.edited ((recordCreation_moves device call).state t)
    ((recordCreation_quiets device call).state t)
    ((recordCreation_ends t device call).mono (fun _ _ hu => hu.1) fun _ _ hu => hu).state

end Trackers

end GpuAudit
