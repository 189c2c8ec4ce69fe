import GpuAudit.Proofs.Admission
import GpuAudit.Proofs.QueueOwners
import GpuAudit.Proofs.Timeliness
import GpuAudit.Proofs.Waits

/-!
# Waiting until queues are idle

A wait for a queue that has succeeded retires all that was submitted to it, and a wait for a
device does so for each of its queues.  Three things are needed for the retirements to go
through: they are within range, so the queues must have their work in order; the command
buffers of the batches must be live, so work in flight must have what it needs; and the
completions must find the session, so the device must own its queues.

What is left then follows from the books being `Timely`: nothing can wait for work on a queue
that has none in flight.
-/

namespace GpuAudit

/-! ## Queues -/

namespace Queue

/-- The queue after all that was submitted to it has retired. -/
def idled (q : Queue) : Queue :=
  { q with lastRetired := q.lastSubmitted, inFlight := [], memoryRefs := ∅ }

theorem Kept.retired_last {q : Queue} (h : q.Kept) : q.retired q.lastSubmitted = q.idled := by
  have left := h.retired h.inRange (Nat.le_refl _)
  have landed : (q.retired q.lastSubmitted).inFlight = [] := by
    refine List.map_eq_nil_iff.mp (left.ordered.trans ?_)
    show List.range' _ (q.lastSubmitted - q.lastSubmitted) = []
    rw [Nat.sub_self, List.range'_zero]
  have dropped : (q.retired q.lastSubmitted).memoryRefs = ∅ :=
    Std.ExtTreeMap.ext_getElem? fun {memory} => by
      rw [left.counted, landed, Std.ExtTreeMap.getElem?_empty]
      rfl
  exact (Queue.mk.injEq ..).mpr ⟨rfl, rfl, landed, dropped⟩

theorem kept_idled (q : Queue) : q.idled.Kept where
  inRange := Nat.le_refl _
  ordered := by
    show [] = List.range' _ (q.lastSubmitted - q.lastSubmitted)
    rw [Nat.sub_self, List.range'_zero]
  counted _ := by
    show (∅ : Std.ExtTreeMap Handle Nat)[_]? = tally 0
    rw [Std.ExtTreeMap.getElem?_empty]
    rfl

end Queue

namespace Trackers

variable {t u : Trackers} {rs : List Retirement} {waited : Handle → Prop} {q : Queue}

/-! ## Queues without work in flight -/

section Landed

variable {g : Handle} (h : t.Timely)
  (idle : ∀ q, t.queues.queues.find? g = some q → q.inFlight = [])
include h idle

/-- No fence is in use by a queue that has nothing in flight. -/
theorem Timely.fence_landed (f : Handle) (s : Nat) :
    t.queues.fences.find? f ≠ some (.inUse g s) := fun inUse => by
  obtain ⟨q, hq, -, batch⟩ := h.scheduled.guarded.submitted inUse
  obtain ⟨b, hb, -⟩ := batch (h.fences inUse hq)
  rw [idle q hq] at hb
  cases hb

/-- What was last submitted to a queue that has nothing in flight has retired. -/
theorem Timely.landed {c : Handle} {b : CommandBuffer} {s : Submission}
    (hb : t.commands.buffers.find? c = some b) (hs : b.lastSubmission = some s)
    (here : s.queue = g) : ∃ q, t.queues.queues.find? g = some q ∧ s.sequence ≤ q.lastRetired := by
  obtain ⟨-, q, hq, batch⟩ := h.scheduled.placed c b s hb hs
  rw [here] at hq
  refine ⟨q, hq, Nat.le_of_not_lt fun flies => ?_⟩
  obtain ⟨x, hx, -⟩ := batch flies
  rw [idle q hq] at hx
  cases hx

/-- A command buffer begun for one submission has no last submission to such a queue. -/
theorem Timely.oneTime_landed {c : Handle} {b : CommandBuffer} {s : Submission}
    (hb : t.commands.buffers.find? c = some b)
    (oneTime : b.usage.contains CommandBufferUsage.oneTimeSubmit = true)
    (hs : b.lastSubmission = some s) : s.queue ≠ g := fun here => by
  obtain ⟨q, hq, early⟩ := h.landed idle hb hs here
  obtain ⟨q', hq', later⟩ := h.returned c b s hb oneTime hs
  rw [here, hq] at hq'
  cases hq'
  omega

end Landed

/-! ## Retiring all that was submitted -/

/-- Retirements of all that was submitted to the queues waited for, and of nothing else. -/
structure Exhausts (t : Trackers) (waited : Handle → Prop) (rs : List Retirement) : Prop where
  /-- Each goes as far as its queue has submitted. -/
  last : ∀ r ∈ rs, ∃ q, t.queues.queues.find? r.queue = some q ∧ r.upTo = q.lastSubmitted
  /-- There is one for each queue waited for, and for no other queue. -/
  covers : ∀ g q, t.queues.queues.find? g = some q → (waited g ↔ ∃ r ∈ rs, g = r.queue)

theorem Exhausts.agree (h : t.Exhausts waited rs) : Agree rs := by
  intro r hr r' hr' here
  obtain ⟨q, hq, last⟩ := h.last r hr
  obtain ⟨q', hq', last'⟩ := h.last r' hr'
  rw [here, hq'] at hq
  cases hq
  exact last.trans last'.symm

/-- Where work in flight has what it needs, all that was submitted can retire. -/
theorem Exhausts.ready (h : t.Exhausts waited rs) (kept : t.queues.Kept)
    (flying : InFlight t.commands t.queues) : ∀ r ∈ rs, t.Ready r := by
  intro r hr
  obtain ⟨q, hq, last⟩ := h.last r hr
  refine ⟨q, hq, ⟨last ▸ (kept _ q hq).inRange, Nat.le_of_eq last⟩, fun w hw => ?_⟩
  obtain ⟨b, hb, -, hc⟩ := Batch.mem_work.mp hw
  obtain ⟨x, -, hx, -⟩ := (flying _ q hq b (Queue.mem_due hb).1).submitted w.2 hc
  exact ⟨x, hx⟩

theorem exhausts_device (t : Trackers) (device : Handle) :
    t.Exhausts (fun _ => True) (t.impliedRetirements (.deviceWaitIdle device)) where
  last r hr := by
    obtain ⟨⟨g, q⟩, listed, rfl⟩ := List.mem_map.mp hr
    exact ⟨q, Registry.mem_entries.mp listed, rfl⟩
  covers g q hq := by
    refine iff_of_true trivial ⟨⟨g, q.lastSubmitted⟩, ?_, rfl⟩
    exact List.mem_map.mpr ⟨(g, q), Registry.mem_entries.mpr hq, rfl⟩

section Queue

variable {queue : Handle} (hq : t.queues.queues.find? queue = some q)
include hq

theorem idleRetirement_of_found :
    t.queues.idleRetirement queue = .ok ⟨queue, q.lastSubmitted⟩ :=
  bind_eq_ok_iff.mpr ⟨q, QueueTracker.queue_eq_ok_iff.mpr hq, rfl⟩

theorem impliedRetirements_queue :
    t.impliedRetirements (.queueWaitIdle queue) = [⟨queue, q.lastSubmitted⟩] := by
  show (t.queues.idleRetirement queue).toOption.toList = _
  rw [idleRetirement_of_found hq]
  rfl

/-- A wait for a queue that is tracked is not refused, and nothing is found about it. -/
theorem validate_queue (owners : Owners) (device : Handle) :
    (validate owners device (.queueWaitIdle queue)).on t = ⟨.ok [], t, []⟩ := by
  have answer : (Track.query fun t : Trackers => t.queues.queue queue).on t = ⟨.ok q, t, []⟩ := by
    rw [Track.on_query, QueueTracker.queue_eq_ok_iff.mpr hq]
  have dropped : (discard (Track.query fun t : Trackers => t.queues.queue queue)).on t =
      ⟨.ok ⟨⟩, t, []⟩ := by
    unfold Functor.discard Functor.mapConst
    exact Track.on_bind_of_ok answer _
  exact Track.on_bind_of_ok dropped fun _ => pure []

/-- A successful wait for a queue enters nothing. -/
theorem recordCreation_queue (device : Handle) :
    (recordCreation device (.queueWaitIdle queue)).Ends t (fun gained u => gained = [] ∧ u = t)
      fun _ _ => False := by
  show (recordCreation.nothing (Track.query (·.queues.idleRetirement queue))).Ends t _ _
  unfold recordCreation.nothing
  rw [Track.ends_bind, Track.ends_discard, Track.ends_query, idleRetirement_of_found hq,
    Track.ends_ofExcept_ok]
  exact ⟨rfl, rfl⟩

theorem exhausts_queue :
    t.Exhausts (fun g => g = queue) (t.impliedRetirements (.queueWaitIdle queue)) := by
  rw [impliedRetirements_queue hq]
  constructor
  case last =>
    intro r hr
    rw [List.mem_singleton.mp hr]
    exact ⟨q, hq, rfl⟩
  case covers =>
    intro g _ _
    simp

end Queue

/-- A queue is idle when it has retired all, and other queues stay. -/
theorem queues_pass_last {r : Retirement} (kept : t.queues.Kept)
    (hq : t.queues.queues.find? r.queue = some q) (last : r.upTo = q.lastSubmitted) (g : Handle) :
    (t.pass r).queues.queues.find? g =
      (t.queues.queues.find? g).map fun q => if g = r.queue then q.idled else q := by
  rw [found_pass]
  by_cases here : g = r.queue
  · rw [if_pos here, here, hq, Option.map_some, Option.map_some, if_pos rfl, last,
      (kept _ q hq).retired_last]
  · simp [here]

theorem queues_exhausted : ∀ (rs : List Retirement) {t : Trackers}, t.queues.Kept →
    (∀ r ∈ rs, ∃ q, t.queues.queues.find? r.queue = some q ∧ r.upTo = q.lastSubmitted) → ∀ g,
      (rs.foldl pass t).queues.queues.find? g = (t.queues.queues.find? g).map fun q =>
        if ∃ r ∈ rs, g = r.queue then q.idled else q
  | [], t, _, _, g => by simp
  | r :: rs, t, kept, last, g => by
      obtain ⟨⟨q, hq, hr⟩, rest⟩ := List.forall_mem_cons.mp last
      have view := queues_pass_last kept hq hr
      have kept' : (t.pass r).queues.Kept := by
        intro g q' hq'
        rw [view] at hq'
        obtain ⟨q, hq, rfl⟩ := Option.map_eq_some_iff.mp hq'
        split
        · exact q.kept_idled
        · exact kept g q hq
      have rest' : ∀ r' ∈ rs, ∃ q, (t.pass r).queues.queues.find? r'.queue = some q ∧
          r'.upTo = q.lastSubmitted := by
        intro r' hr'
        obtain ⟨q, hq, last⟩ := rest r' hr'
        refine ⟨_, by rw [view, hq, Option.map_some], ?_⟩
        split
        · exact last
        · exact last
      rw [List.foldl_cons, queues_exhausted rs kept' rest' g, view, Option.map_map]
      congr 1
      funext q
      by_cases here : g = r.queue
      · simp [here, Queue.idled]
      · simp [here]

/-- A command buffer stays or is made fresh when retirements pass. -/
theorem buffer_passes (rs : List Retirement) {c : Handle} {b : CommandBuffer}
    (hb : t.commands.buffers.find? c = some b) :
    (rs.foldl pass t).commands.buffers.find? c = some b ∨
      (rs.foldl pass t).commands.buffers.find? c = some (.fresh b.pool) := by
  refine List.foldlRecOn (motive := fun u => u.commands.buffers.find? c = some b ∨
    u.commands.buffers.find? c = some (.fresh b.pool)) rs pass (.inl hb) fun u hu r _ => ?_
  have view : (u.pass r).commands.buffers.find? c = (u.commands.buffers.find? c).map fun b =>
      if b.ReturnedBy (Batch.work (u.due r)) c then .fresh b.pool else b := find?_settled u _ c
  rcases hu with same | fresh
  · rw [view, same, Option.map_some]
    split
    · exact .inr rfl
    · exact .inl rfl
  · rw [view, fresh, Option.map_some]
    split
    · exact .inr rfl
    · exact .inr rfl

/-! ## Books after a wait -/

/-- Books after a wait for queues. -/
structure IdleOn (waited : Handle → Prop) [DecidablePred waited] (t u : Trackers) : Prop where
  /-- The queues waited for have retired all that was submitted to them, and other queues are
  as they were. -/
  queues : ∀ g, u.queues.queues.find? g =
    (t.queues.queues.find? g).map fun q => if waited g then q.idled else q
  /-- No fence is in use by a queue waited for. -/
  fences : ∀ f g s, waited g → u.queues.fences.find? f ≠ some (.inUse g s)
  /-- What was last submitted to a queue waited for has retired. -/
  landed : ∀ c b s, u.commands.buffers.find? c = some b → b.lastSubmission = some s →
    waited s.queue → u.queues.isRetired s = true
  /-- No command buffer begun for one submission is submitted to a queue waited for. -/
  oneTime : ∀ c b s, u.commands.buffers.find? c = some b →
    b.usage.contains CommandBufferUsage.oneTimeSubmit = true → b.lastSubmission = some s →
    ¬waited s.queue
  /-- Each that was is initial, touches nothing and is listed by no allocation. -/
  returned : ∀ c b s, t.commands.buffers.find? c = some b →
    b.usage.contains CommandBufferUsage.oneTimeSubmit = true → b.lastSubmission = some s →
    waited s.queue → u.commands.buffers.find? c = some (.fresh b.pool) ∧
      ∀ m, ¬u.memory.ListsUser m c

/-- The retirements that exhaust queues leave them idle. -/
theorem Exhausts.idleOn [DecidablePred waited] (h : t.Exhausts waited rs) (timely : t.Timely)
    (linked : t.Linked) (flying : InFlight t.commands t.queues) :
    IdleOn waited t (rs.foldl pass t) ∧ (rs.foldl pass t).Timely := by
  have kept := timely.scheduled.guarded.kept
  have queues : ∀ g, (rs.foldl pass t).queues.queues.find? g =
      (t.queues.queues.find? g).map fun q => if waited g then q.idled else q := by
    intro g
    rw [queues_exhausted rs kept h.last]
    cases hq : t.queues.queues.find? g with
    | none => rfl
    | some q => simp only [Option.map_some, h.covers g q hq]
  obtain ⟨timely', linked'⟩ : (rs.foldl pass t).Timely ∧ (rs.foldl pass t).Linked :=
    foldl_pass (P := fun u => u.Timely ∧ u.Linked)
      (fun _ r ready books => ⟨books.1.pass books.2 ready, books.2.pass r⟩) rs kept
      (h.ready kept flying) h.agree ⟨timely, linked⟩
  have idle : ∀ g, waited g → ∀ q, (rs.foldl pass t).queues.queues.find? g = some q →
      q.inFlight = [] := by
    intro g hg q hq
    rw [queues] at hq
    obtain ⟨old, -, rfl⟩ := Option.map_eq_some_iff.mp hq
    rw [if_pos hg]
    rfl
  refine ⟨⟨queues, fun f g s hg => timely'.fence_landed (idle g hg) f s,
    fun c b s hb hs hg => ?_, fun c b s hb oneTime hs hg =>
      timely'.oneTime_landed (idle _ hg) hb oneTime hs rfl, fun c b s hb oneTime hs hg => ?_⟩,
    timely'⟩
  · obtain ⟨q, hq, early⟩ := timely'.landed (idle _ hg) hb hs rfl
    unfold QueueTracker.isRetired
    rw [QueueTracker.queue_eq_ok_iff.mpr hq]
    exact decide_eq_true early
  · rcases buffer_passes rs hb with same | fresh
    · exact absurd rfl (timely'.oneTime_landed (idle _ hg) same oneTime hs)
    · refine ⟨fresh, fun m listed => ?_⟩
      obtain ⟨x, hx, touched⟩ := (linked'.touched c m).mpr listed
      rw [fresh] at hx
      cases hx
      exact Std.ExtTreeSet.not_mem_empty touched

/-- After a wait for all queues, no semaphore waits and no command buffer is in flight. -/
theorem IdleOn.device (h : IdleOn (fun _ => True) t u) (timely : u.Timely) :
    (∀ s, u.queues.semaphores.find? s ≠ some .wait) ∧
      ∀ c, u.commands.isInFlight u.queues c = false := by
  constructor
  · intro s waits
    obtain ⟨g, q, hq, b, hb, -⟩ := timely.semaphores s waits
    rw [h.queues] at hq
    obtain ⟨old, -, rfl⟩ := Option.map_eq_some_iff.mp hq
    rw [if_pos trivial] at hb
    cases hb
  · intro c
    unfold CommandTracker.isInFlight
    cases hs : (u.commands.buffers.find? c).bind (·.lastSubmission) with
    | none => rfl
    | some s =>
        obtain ⟨b, hb, hs⟩ := Option.bind_eq_some_iff.mp hs
        simp [h.landed c b s hb hs trivial]

end Trackers

/-! ## Hooks -/

namespace Layer

open Trackers (IdleOn)

variable {l : Layer} {config : Config} {device : Handle} {session : Session} {call : Call}
  {t : Trackers}

/-- No command buffer in flight on a queue of a device is submitted to another one. -/
def KeepsWorkApart (device : Handle) (l : Layer) : Hook → Prop
  | .pre (.queueSubmit queue submits fence) => l.drained.owners[queue]? = some device →
      ∀ session ∈ l.drained.sessions[device]?, session.halted = false →
        (Trackers.submit queue submits fence).Answers session.trackers →
        ∀ c ∈ submits.flatMap (·.commandBuffers), session.trackers.queues.OnlyOn queue c
  | _ => True

instance (l : Layer) (hook : Hook) : Decidable (KeepsWorkApart device l hook) := by
  unfold KeepsWorkApart
  split
  · infer_instance
  · exact isTrue trivial

/-- The hooks after which a device can be waited for: they count all links, submit to the device
no command buffer in flight on another queue, and give no device the queue of another one. -/
def Quiescible (device : Handle) (l : Layer) (hook : Hook) : Prop :=
  Tame l hook ∧ KeepsWorkApart device l hook ∧ l.KeepsQueuesApart hook

instance (l : Layer) (hook : Hook) : Decidable (Quiescible device l hook) :=
  inferInstanceAs (Decidable (_ ∧ _))

/-- What such hooks keep of the books of all devices, and of those of the one waited for. -/
structure Timed (device : Handle) (owners : Owners) (other : Handle) (t : Trackers) : Prop where
  /-- Work in flight has what it needs. -/
  flying : Flying device owners other t
  /-- What waits, waits for work in flight. -/
  timely : other = device → t.Timely

/-- The calls that count all links and have submitted to one device no command buffer in flight
on another queue. -/
def SubmitsApart (device : Handle) (owners : Owners) (other : Handle) (t : Trackers)
    (call : Call) : Prop :=
  KeepsCounted owners other t call ∧
    (other = device → ∀ queue submits fence, call = .queueSubmit queue submits fence →
      (Trackers.submit queue submits fence).Answers t →
      ∀ c ∈ submits.flatMap (·.commandBuffers), t.queues.OnlyOn queue c)

/-- A submission that is refused changes nothing, so it need not keep work apart. -/
theorem flying_validate {owners : Owners} {other : Handle} (h : Flying device owners other t)
    (apart : SubmitsApart device owners other t call)
    (scope : ∀ h, call.scope = .owner h → owners[h]? = some other) :
    Flying device (givenUp owners ((Trackers.validate owners other call).on t).value) other
      ((Trackers.validate owners other call).on t).state := by
  obtain ⟨few, apart⟩ := apart
  by_cases refused : ∃ queue submits fence, call = .queueSubmit queue submits fence ∧
      ¬(Trackers.submit queue submits fence).Answers t
  · obtain ⟨queue, submits, fence, rfl, refused⟩ := refused
    have same : ((Trackers.validate owners other (.queueSubmit queue submits fence)).on t).state =
        t := by
      refine (Trackers.state_nothing _ t).trans ?_
      cases hv : ((Trackers.submit queue submits fence).on t).value with
      | ok s => exact absurd ⟨s, hv⟩ refused
      | error v => exact ((Trackers.submit_ends t queue submits fence).bad_of_error hv).2
    refine ⟨h.books.validate scope few, fun here => ?_⟩
    rw [same]
    exact h.flying here
  · refine (flying_invariant device).validate owners other t call h ⟨few, ?_⟩ scope
    intro here queue submits fence hc
    refine apart here queue submits fence hc (Classical.byContradiction fun stops => ?_)
    exact refused ⟨queue, submits, fence, hc, stops⟩

theorem timed_invariant (device : Handle) :
    SessionInvariant (Timed device) (SubmitsApart device) where
  empty owners other none :=
    ⟨(flying_invariant device).empty owners other none, fun _ => Trackers.timely_empty⟩
  lose owners owners' other t fewer h :=
    ⟨(flying_invariant device).lose owners owners' other t fewer h.flying, h.timely⟩
  retire owners other t r h := by
    refine ⟨(flying_invariant device).retire owners other t r h.flying, fun here => ?_⟩
    exact (h.timely here).retire h.flying.books.sound.linked (h.flying.flying here) r
  validate owners other t call h apart scope := by
    refine ⟨flying_validate h.flying apart scope, fun here => ?_⟩
    exact (h.timely here).validate h.flying.books.sound owners other call
      (h.flying.books.begun scope) apart.1
  record owners other t call h := by
    refine ⟨(flying_invariant device).record owners other t call h.flying, fun here => ?_⟩
    exact (h.timely here).record other call

theorem timed_of_reached (h : Reached (Quiescible device) config l) : l.Holds (Timed device) := by
  refine holds_of_reached (timed_invariant device) (fun k call ok validated other s hs running =>
    ⟨Counted.validated (validated ▸ ok.1) hs running, fun here queue submits fence hc => ?_⟩) h
  subst hc here
  obtain ⟨found, owner⟩ := session_of_call hs
  exact ok.2.1 (owner queue rfl) s found (Bool.not_eq_true _ ▸ running)

/-! ## Waits -/

/-- Nothing is found about a wait, neither before it nor after it has succeeded, and it leaves
the books given. -/
structure WaitPasses (l : Layer) (device : Handle) (session : Session) (call : Call)
    (t : Trackers) : Prop where
  /-- Nothing is found before the wait. -/
  before : ((preCall call).run l).value = .pass
  /-- Nothing changes before the wait. -/
  unchanged : l.step (.pre call) = l
  /-- Nothing is found after the wait. -/
  after : ((postCall call .success).run (l.step (.pre call))).value = .pass
  /-- The books of the session are the only change. -/
  left : (l.step (.pre call)).step (.post call .success) = l.put device session t

/-- Nothing is found about a call that the books only ask about. -/
theorem validateCall_asks (found : l.sessionFor call = .ok (device, session))
    (running : session.halted = false)
    (asks : (Trackers.validate l.owners device call).on session.trackers =
      ⟨.ok [], session.trackers, []⟩) :
    ((validateCall call).run l).value = .pass ∧ ((validateCall call).run l).state = l := by
  have same : l.put device session session.trackers = l := put_same (session_of_call found).1
  constructor
  · unfold validateCall
    simp only [Logged.run_bind, Logged.run_get, found, running, Bool.false_eq_true, if_false,
      runOn_value, asks]
    exact l.config.validation.verdict_nil
  · rw [validateCall_state, afterValidation_running found (by simp [running]), asks]
    exact same

section Waits

variable (running : session.halted = false) (idle : l.pending = [])
include running idle

/-- A wait passes that implies retirements which can all be applied. -/
theorem waitPasses (found : l.sessionFor call = .ok (device, session))
    (checked : own call = validateCall call) (entered : postCall call .success = recordCall call)
    (asks : (Trackers.validate l.owners device call).on session.trackers =
      ⟨.ok [], session.trackers, []⟩)
    (nothing : (Trackers.recordCreation device call).Ends session.trackers
      (fun gained u => gained = [] ∧ u = session.trackers) fun _ _ => False)
    (owned : ∀ r ∈ session.trackers.impliedRetirements call, l.owners[r.queue]? = some device)
    (linked : session.trackers.Linked) (kept : session.trackers.queues.Kept)
    (ready : ∀ r ∈ session.trackers.impliedRetirements call, session.trackers.Ready r)
    (agree : Trackers.Agree (session.trackers.impliedRetirements call)) :
    l.WaitPasses device session call
      ((session.trackers.impliedRetirements call).foldl Trackers.pass session.trackers) := by
  obtain ⟨quiet, same⟩ := validateCall_asks found running asks
  have unchanged : l.step (.pre call) = l := by
    show ((preCall call).run l).state = l
    rw [preCall_state, ← own_state, checked, drained_idle idle, same]
  have hs := (session_of_call found).1
  have applied := recordCall_observes found running nothing
  have none : ({ l with pending := [] } : Layer) = l := by rw [← idle]
  rw [none, idle, List.nil_append] at applied
  obtain ⟨value, state⟩ := retireAll_passes _ .pass hs running owned linked kept ready agree
  refine ⟨?_, unchanged, ?_, ?_⟩
  · rw [preCall_idle idle, checked, quiet]
  · rw [unchanged, entered, applied.1, value]
  · rw [unchanged]
    show ((postCall call .success).run l).state = _
    rw [entered, applied.2, state]

/-- After every such run, a wait that implies the retirement of all that was submitted to some
queues passes and leaves these idle. -/
theorem idleOn_of_reached (h : Reached (Quiescible device) config l)
    (found : l.sessionFor call = .ok (device, session))
    (checked : own call = validateCall call) (entered : postCall call .success = recordCall call)
    (asks : (Trackers.validate l.owners device call).on session.trackers =
      ⟨.ok [], session.trackers, []⟩)
    (nothing : (Trackers.recordCreation device call).Ends session.trackers
      (fun gained u => gained = [] ∧ u = session.trackers) fun _ _ => False)
    {waited : Handle → Prop} [DecidablePred waited]
    (exhausts : session.trackers.Exhausts waited (session.trackers.impliedRetirements call)) :
    ∃ t, l.WaitPasses device session call t ∧ IdleOn waited session.trackers t ∧ t.Timely := by
  have hs := (session_of_call found).1
  have owns := ownsQueues_of_reached (fun _ _ ok => ok.1) (fun _ _ ok => ok.2.2) h
  obtain ⟨⟨books, flying⟩, timely⟩ := (timed_of_reached h).books device session hs
  have linked := books.sound.linked
  have kept := books.sound.kept
  obtain ⟨empties, timely'⟩ := exhausts.idleOn (timely rfl) linked (flying rfl)
  refine ⟨_, waitPasses running idle found checked entered asks nothing (fun r hr => ?_) linked
    kept (exhausts.ready kept (flying rfl)) exhausts.agree, empties, timely'⟩
  obtain ⟨q, hq, -⟩ := exhausts.last r hr
  exact owns.owner hs hq

/-- After every run that counts all links, submits to a device no command buffer in flight on
another queue and gives no device the queue of another one, a wait for the device passes if it
is not halted and no completion is waiting.  Nothing is found about it, and then all queues of
the device are idle: no fence is in use, no semaphore waits, no command buffer is in flight, and
those that were begun for one submission and submitted are initial again and touch nothing.  A
wait for one queue passes likewise and leaves that queue idle and the others as they were. -/
theorem quiesces_of_reached (h : Reached (Quiescible device) config l)
    (hs : l.sessions[device]? = some session) :
    (∃ t, l.WaitPasses device session (.deviceWaitIdle device) t ∧
      IdleOn (fun _ => True) session.trackers t ∧
      (∀ s, t.queues.semaphores.find? s ≠ some .wait) ∧
      ∀ c, t.commands.isInFlight t.queues c = false) ∧
    ∀ queue q, session.trackers.queues.queues.find? queue = some q →
      ∃ t, l.WaitPasses device session (.queueWaitIdle queue) t ∧
        IdleOn (fun g => g = queue) session.trackers t := by
  have about : l.sessionFor (.deviceWaitIdle device) = .ok (device, session) :=
    deviceSession_eq_ok_iff.mpr ⟨rfl, hs⟩
  obtain ⟨t, passes, empties, timely⟩ := idleOn_of_reached running idle h about rfl rfl rfl
    ⟨rfl, rfl⟩ (session.trackers.exhausts_device device)
  refine ⟨⟨t, passes, empties, empties.device timely⟩, fun queue q hq => ?_⟩
  have owns := ownsQueues_of_reached (fun _ _ ok => ok.1) (fun _ _ ok => ok.2.2) h
  have found : l.sessionFor (.queueWaitIdle queue) = .ok (device, session) :=
    owningSession_eq_ok_iff.mpr ⟨owns.owner hs hq, hs⟩
  obtain ⟨t, passes, empties, -⟩ := idleOn_of_reached running idle h found rfl rfl
    (Trackers.validate_queue hq l.owners device) (Trackers.recordCreation_queue hq device)
    (Trackers.exhausts_queue hq)
  exact ⟨t, passes, empties⟩

end Waits

/-- A command buffer begun for one submission and a fence have been given to one queue, and
another queue waits for the semaphore that is signaled then. -/
def busyTwice : List Hook :=
  [.post (.createDevice ⟨1, .device⟩) .success,
   .post (.getDeviceQueue ⟨1, .device⟩ ⟨2, .queue⟩) .success,
   .post (.getDeviceQueue ⟨1, .device⟩ ⟨3, .queue⟩) .success,
   .post (.createFence ⟨1, .device⟩ ⟨4, .fence⟩ false) .success,
   .post (.createSemaphore ⟨1, .device⟩ ⟨5, .semaphore⟩) .success,
   .post (.createCommandPool ⟨1, .device⟩ ⟨6, .commandPool⟩ .resetCommandBuffer) .success,
   .post (.allocateCommandBuffers ⟨1, .device⟩ ⟨6, .commandPool⟩ [⟨7, .commandBuffer⟩]) .success,
   .pre (.beginCommandBuffer ⟨7, .commandBuffer⟩ .oneTimeSubmit),
   .pre (.endCommandBuffer ⟨7, .commandBuffer⟩),
   .pre (.queueSubmit ⟨2, .queue⟩
    [{ commandBuffers := [⟨7, .commandBuffer⟩], signalSemaphores := [⟨5, .semaphore⟩] }]
    (some ⟨4, .fence⟩)),
   .pre (.queueSubmit ⟨3, .queue⟩ [{ waitSemaphores := [⟨5, .semaphore⟩] }] none)]

/-- A wait for the device passes, frees the fence and the semaphore and returns the command
buffer; a wait for the second queue leaves the first one as it is. -/
theorem quiesces_of_busyTwice :
    ∃ session ∈ ((start {}).run busyTwice).sessions[(⟨1, .device⟩ : Handle)]?,
      (∃ t, ((start {}).run busyTwice).WaitPasses ⟨1, .device⟩ session
          (.deviceWaitIdle ⟨1, .device⟩) t ∧
        session.trackers.queues.fences.find? ⟨4, .fence⟩ = some (.inUse ⟨2, .queue⟩ 1) ∧
        t.queues.fences.find? ⟨4, .fence⟩ ≠ some (.inUse ⟨2, .queue⟩ 1) ∧
        session.trackers.queues.semaphores.find? ⟨5, .semaphore⟩ = some .wait ∧
        t.queues.semaphores.find? ⟨5, .semaphore⟩ ≠ some .wait ∧
        t.commands.buffers.find? ⟨7, .commandBuffer⟩ = some (.fresh ⟨6, .commandPool⟩)) ∧
      ∃ t, ((start {}).run busyTwice).WaitPasses ⟨1, .device⟩ session
          (.queueWaitIdle ⟨3, .queue⟩) t ∧
        t.queues.queues.find? ⟨2, .queue⟩ = session.trackers.queues.queues.find? ⟨2, .queue⟩ := by
  have reached : Reached (Quiescible ⟨1, .device⟩) {} ((start {}).run busyTwice) :=
    Reached.start.run (by decide +kernel)
  have found : ∃ session ∈ ((start {}).run busyTwice).sessions[(⟨1, .device⟩ : Handle)]?,
      session.halted = false ∧
      session.trackers.queues.fences.find? ⟨4, .fence⟩ = some (.inUse ⟨2, .queue⟩ 1) ∧
      session.trackers.queues.semaphores.find? ⟨5, .semaphore⟩ = some .wait ∧
      (∃ b ∈ session.trackers.commands.buffers.find? ⟨7, .commandBuffer⟩,
        b.pool = ⟨6, .commandPool⟩ ∧
        b.usage.contains CommandBufferUsage.oneTimeSubmit = true ∧
        b.lastSubmission.isSome = true) ∧
      (session.trackers.queues.queues.find? ⟨3, .queue⟩).isSome = true := by decide +kernel
  obtain ⟨session, hs, running, fence, semaphore, ⟨b, hb, pool, oneTime, submitted⟩, tracked⟩ :=
    found
  obtain ⟨s, hlast⟩ := Option.isSome_iff_exists.mp submitted
  obtain ⟨q, hq⟩ := Option.isSome_iff_exists.mp tracked
  obtain ⟨⟨t, passes, empties, still, -⟩, each⟩ :=
    quiesces_of_reached running (by decide +kernel) reached hs
  obtain ⟨t', passes', empties'⟩ := each _ q hq
  refine ⟨session, hs, ⟨t, passes, fence, empties.fences _ _ _ trivial, semaphore, still _, ?_⟩,
    t', passes', ?_⟩
  · rw [(empties.returned _ b s hb oneTime hlast trivial).1, pool]
  · rw [empties'.queues]
    simp

end Layer

end GpuAudit
