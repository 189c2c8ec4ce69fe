import GpuAudit.Proofs.Consistency
import GpuAudit.Proofs.Recycling

/-!
# Work in flight keeps what it uses

A command buffer has one last submission, but it may be in several batches in
flight, if it was begun for simultaneous use.  `InFlight` says that the one last
submission speaks for all of them: it went to the queue of each batch, and not
before it.  Then nothing recycles the command buffer before its last batch has
retired, and each batch touches what its command buffers touch.

Every edit keeps this, since edits recycle idle command buffers only, and every
retirement does, since batches retire in order.  A submission keeps it if no command
buffer that it names is in flight on another queue.
-/

namespace GpuAudit

/-! ## Batches that leave -/

namespace QueueTracker

variable {t t' : QueueTracker}

/-- No queue has a batch in flight that it did not have before. -/
def Sheds (t t' : QueueTracker) : Prop :=
  ∀ queue q', t'.queues.find? queue = some q' → ∀ b ∈ q'.inFlight,
    ∃ q, t.queues.find? queue = some q ∧ b ∈ q.inFlight

/-- A queue that retires sheds batches. -/
theorem sheds_retired (t : QueueTracker) (r : Retirement) :
    t.Sheds { t with queues := t.queues.modify r.queue (·.retired r.upTo) } := by
  intro g q' hq' b hb
  have hq' : (t.queues.modify r.queue (·.retired r.upTo)).find? g = some q' := hq'
  rw [Registry.find?_modify] at hq'
  split at hq'
  · obtain ⟨q, hq, rfl⟩ := Option.map_eq_some_iff.mp hq'
    exact ⟨q, hq, Queue.mem_retired hb⟩
  · exact ⟨q', hq', hb⟩

theorem sheds_of_queues (h : t'.queues = t.queues) : t.Sheds t' := fun _ q hq _ hb =>
  ⟨q, h ▸ hq, hb⟩

/-- A new queue has nothing in flight. -/
theorem sheds_of_new {queue : Handle}
    (view : ∀ g, t'.queues.find? g = if g = queue then some .idle else t.queues.find? g) :
    t.Sheds t' := by
  intro g q hq b hb
  rw [view] at hq
  split at hq
  next =>
    cases hq
    cases hb
  next => exact ⟨q, hq, hb⟩

/-- What holds of all batches in flight still holds after some have left. -/
theorem Sheds.all {P : Handle → Batch → Prop} (sheds : t.Sheds t')
    (h : ∀ queue q, t.queues.find? queue = some q → ∀ b ∈ q.inFlight, P queue b) :
    ∀ queue q', t'.queues.find? queue = some q' → ∀ b ∈ q'.inFlight, P queue b := by
  intro queue q' hq' b hb
  obtain ⟨q, hq, hb⟩ := sheds queue q' hq' b hb
  exact h queue q hq b hb

end QueueTracker

/-! ## Command buffers at work -/

/-- A command buffer is in a batch in flight. -/
def QueueTracker.Busy (t : QueueTracker) (c : Handle) : Prop :=
  ∃ queue q, t.queues.find? queue = some q ∧ ∃ b ∈ q.inFlight, c ∈ b.commandBuffers

/-- A command buffer is in no batch in flight on another queue. -/
def QueueTracker.OnlyOn (t : QueueTracker) (queue c : Handle) : Prop :=
  ∀ g q, t.queues.find? g = some q → (∃ b ∈ q.inFlight, c ∈ b.commandBuffers) → g = queue

instance (t : QueueTracker) (queue c : Handle) : Decidable (t.OnlyOn queue c) :=
  t.queues.decidableForall fun g q => (∃ b ∈ q.inFlight, c ∈ b.commandBuffers) → g = queue

/-- What a batch in flight needs of the command buffers. -/
structure CommandTracker.Carries (t : CommandTracker) (queue : Handle) (b : Batch) : Prop where
  /-- Its command buffers were last submitted to its queue, and not before it. -/
  submitted : ∀ c ∈ b.commandBuffers, ∃ r s, t.buffers.find? c = some r ∧
    r.state = .executable ∧ r.lastSubmission = some s ∧ s.queue = queue ∧ b.sequence ≤ s.sequence
  /-- It touches what they touch. -/
  memory : ∀ m, m ∈ b.memory ↔ ∃ c ∈ b.commandBuffers, t.Touches c m

/-- Every batch in flight has what it needs. -/
def InFlight (commands : CommandTracker) (queues : QueueTracker) : Prop :=
  ∀ queue q, queues.queues.find? queue = some q → ∀ b ∈ q.inFlight, commands.Carries queue b

section Frames

variable {commands commands' : CommandTracker} {queues queues' : QueueTracker} {c : Handle}

theorem inFlight_empty : InFlight .empty .empty := by
  intro queue q hq
  simp [QueueTracker.empty] at hq

/-- A batch needs nothing but its own command buffers. -/
theorem CommandTracker.Carries.congr {queue : Handle} {b : Batch} (h : commands.Carries queue b)
    (same : ∀ c ∈ b.commandBuffers, commands'.buffers.find? c = commands.buffers.find? c) :
    commands'.Carries queue b where
  submitted c hc := by
    rw [same c hc]
    exact h.submitted c hc
  memory m := by
    rw [h.memory]
    refine exists_congr fun c => and_congr_right fun hc => ?_
    unfold Touches
    rw [same c hc]

/-- Work in flight depends on the command buffers at work only. -/
theorem InFlight.congr (h : InFlight commands queues)
    (same : ∀ c, queues.Busy c → commands'.buffers.find? c = commands.buffers.find? c) :
    InFlight commands' queues := fun queue q hq b hb =>
  (h queue q hq b hb).congr fun c hc => same c ⟨queue, q, hq, b, hb, hc⟩

/-- Batches may leave. -/
theorem InFlight.fewer (h : InFlight commands queues) (sheds : queues.Sheds queues') :
    InFlight commands queues' := sheds.all h

/-- A command buffer at work is executable and its last submission has not retired. -/
theorem InFlight.unretired (h : InFlight commands queues) (kept : queues.Kept)
    (busy : queues.Busy c) :
    (∃ r, commands.buffers.find? c = some r ∧ r.state = .executable) ∧
      commands.isInFlight queues c = true := by
  obtain ⟨queue, q, hq, b, hb, hc⟩ := busy
  obtain ⟨r, s, hr, ready, hs, rfl, later⟩ := (h queue q hq b hb).submitted c hc
  have := ((kept s.queue q hq).sequence hb).1
  exact ⟨⟨r, hr, ready⟩, CommandTracker.isInFlight_iff.mpr ⟨r, s, q, hr, hs, hq, by omega⟩⟩

theorem InFlight.not_busy (h : InFlight commands queues) (kept : queues.Kept)
    (idle : commands.Idle queues c) : ¬queues.Busy c := fun busy => by
  obtain ⟨⟨r, hr, ready⟩, flies⟩ := h.unretired kept busy
  rw [idle r hr ready] at flies
  cases flies

end Frames

/-! ## Edits -/

namespace Trackers

variable {t u : Trackers} {gone : List Handle} {queue : Handle}

theorem inFlight_change (h : InFlight t.commands t.queues) {cb : Handle}
    {f : CommandBuffer → CommandBuffer} (rest : ¬t.queues.Busy cb) :
    InFlight (t.commands.change cb f) t.queues :=
  h.congr fun c busy => by
    rw [CommandTracker.find?_change]
    split
    next he => exact absurd (he ▸ busy) rest
    next _ => rfl

/-- A recording command buffer is not at work. -/
theorem not_busy_of_recording (h : InFlight t.commands t.queues) (kept : t.queues.Kept)
    {cb : Handle} {b : CommandBuffer} (hb : t.commands.buffers.find? cb = some b)
    (recording : b.state = .recording) : ¬t.queues.Busy cb := fun busy => by
  obtain ⟨⟨r, hr, ready⟩, -⟩ := h.unretired kept busy
  rw [hb] at hr
  cases hr
  rw [recording] at ready
  cases ready

/-- No edit touches what is at work. -/
theorem inFlight_edit (h : InFlight t.commands t.queues) (kept : t.queues.Kept)
    (he : Edit gone t u) : InFlight u.commands u.queues := by
  cases he with
  | entered new view =>
      refine h.congr fun c busy => ?_
      obtain ⟨⟨r, hr, -⟩, -⟩ := h.unretired kept busy
      refine (view c).trans (if_neg fun he => ?_)
      rw [he, new] at hr
      cases hr
  | begun usage idle listed => exact inFlight_change h (h.not_busy kept idle)
  | cleared idle => exact inFlight_change h (h.not_busy kept idle)
  | @destroyed cb b buffers given idle old view =>
      refine h.congr fun c busy => (view c).trans (if_neg fun he => ?_)
      exact h.not_busy kept idle (he ▸ busy)
  | finished old recording =>
      exact inFlight_change h (not_busy_of_recording h kept old recording)
  | touched old recording live new =>
      exact inFlight_change h (not_busy_of_recording h kept old recording)
  | queueMade new view => exact h.fewer (QueueTracker.sheds_of_new view)
  | enrolled | poolMade | poolRemoved => exact h.congr fun _ _ => rfl
  | signaled => exact h
  | allocated | freed | remapped | resources | attached | detached | moved => exact h

theorem inFlight_edits (h : InFlight t.commands t.queues) (sound : t.Sound)
    (he : Edits gone t u) : InFlight u.commands u.queues := by
  suffices hu : u.Sound ∧ InFlight u.commands u.queues from hu.2
  induction he with
  | refl => exact ⟨sound, h⟩
  | tail _ he ih => exact ⟨ih.1.edit he, inFlight_edit ih.2 ih.1.kept he⟩

/-! ## Submissions -/

theorem mem_memoryOf {commands : CommandTracker} {cbs : List Handle} {m : Handle} :
    m ∈ commands.memoryOf cbs ↔ ∃ c ∈ cbs, commands.Touches c m := by
  unfold CommandTracker.memoryOf CommandTracker.Touches
  rw [Handle.mem_ofList, List.mem_flatMap]
  refine exists_congr fun c => and_congr_right fun _ => ?_
  cases commands.buffers.find? c with
  | none => simp
  | some b => simp

/-- A batch may have its command buffers submitted again, later and to its queue. -/
theorem carries_submitted {commands : CommandTracker} {b : Batch} {cbs : List Handle}
    {s : Submission} (h : commands.Carries queue b)
    (again : ∀ c ∈ b.commandBuffers, c ∈ cbs → s.queue = queue ∧ b.sequence ≤ s.sequence) :
    (commands.submitted cbs s).Carries queue b where
  submitted c hc := by
    obtain ⟨r, s', hr, ready, hs, same, later⟩ := h.submitted c hc
    rw [CommandTracker.find?_submitted, hr]
    split
    next hcs => exact ⟨_, s, rfl, ready, rfl, again c hc hcs⟩
    next _ => exact ⟨r, s', rfl, ready, hs, same, later⟩
  memory m := by
    rw [h.memory]
    exact exists_congr fun c => and_congr_right fun _ => CommandTracker.touches_submitted.symm

/-- A new batch has what it needs. -/
theorem carries_batchOf {q : Queue} {submits : List SubmitBatch} {fence : Option Handle}
    (ready : ∀ c ∈ submits.flatMap (·.commandBuffers),
      ∃ r, t.commands.buffers.find? c = some r ∧ r.state = .executable) :
    (t.withBatch queue submits (t.batchOf q submits fence)).commands.Carries queue
      (t.batchOf q submits fence) where
  submitted c hc := by
    obtain ⟨r, hr, executable⟩ := ready c hc
    refine ⟨{ r with lastSubmission := some ⟨queue, q.lastSubmitted + 1, fence⟩ }, _, ?_,
      executable, rfl, rfl, Nat.le_refl _⟩
    show (t.commands.submitted _ _).buffers.find? c = _
    rw [CommandTracker.find?_submitted, hr]
    exact if_pos hc
  memory m := by
    refine mem_memoryOf.trans (exists_congr fun c => and_congr_right fun _ => ?_)
    exact CommandTracker.touches_submitted.symm

/-- A submission keeps work in flight as it should be, if no command buffer it names
is at work on another queue. -/
theorem inFlight_withBatch (h : InFlight t.commands t.queues) (kept : t.queues.Kept) {q : Queue}
    (hq : t.queues.queues.find? queue = some q) {submits : List SubmitBatch}
    {fence : Option Handle}
    (ready : ∀ c ∈ submits.flatMap (·.commandBuffers),
      ∃ r, t.commands.buffers.find? c = some r ∧ r.state = .executable)
    (exclusive : ∀ c ∈ submits.flatMap (·.commandBuffers), t.queues.OnlyOn queue c) :
    InFlight (t.withBatch queue submits (t.batchOf q submits fence)).commands
      (t.withBatch queue submits (t.batchOf q submits fence)).queues := by
  intro g q' hq' b hb
  rcases Registry.found_after_modify hq hq' with ⟨he, rfl⟩ | ⟨hne, hq'⟩
  · rcases List.mem_append.mp hb with old | new
    · rw [he]
      refine carries_submitted (h queue q hq b old) fun c _ _ => ⟨rfl, ?_⟩
      exact Nat.le_succ_of_le ((kept queue q hq).sequence old).2
    · rw [he, List.mem_singleton.mp new]
      exact carries_batchOf ready
  · refine carries_submitted (h g q' hq' b hb) fun c hc hcs => ?_
    exact absurd (exclusive c hcs g q' hq' ⟨b, hb, hc⟩) hne

/-! ## Retirements -/

/-- The command buffers of batches that retire are live, and were submitted nowhere
else since. -/
def Returning (queue : Handle) (bs : List Batch) (t : Trackers) : Prop :=
  ∀ b ∈ bs, ∀ c ∈ b.commandBuffers, ∃ r, t.commands.buffers.find? c = some r ∧
    ∀ s, r.lastSubmission = some s → s.queue = queue

/-- Nothing at work is returned: a command buffer whose last submission retires is in
no batch in flight. -/
theorem not_busy_of_due (h : InFlight t.commands t.queues) (kept : t.queues.Kept) {q : Queue}
    (hq : t.queues.queues.find? queue = some q) {c : Handle} {r : CommandBuffer}
    (hr : t.commands.buffers.find? c = some r) {s : Submission} (hs : r.lastSubmission = some s)
    (here : s.queue = queue) (due : s.sequence ≤ q.lastRetired) : ¬t.queues.Busy c := by
  rintro ⟨g, q', hq', b, hb, hc⟩
  obtain ⟨r', s', hr', -, hs', rfl, later⟩ := (h g q' hq' b hb).submitted c hc
  rw [hr] at hr'
  cases hr'
  rw [hs] at hs'
  cases hs'
  rw [here, hq] at hq'
  cases hq'
  have := ((kept queue q hq).sequence hb).1
  omega

/-- What holds while the batches of a queue retire. -/
structure Retiring (queue : Handle) (bs : List Batch) (q : Queue) (t : Trackers) : Prop where
  /-- The books agree. -/
  sound : t.Sound
  /-- Work in flight has what it needs. -/
  flying : InFlight t.commands t.queues
  /-- The queue has retired the batches. -/
  passed : t.queues.queues.find? queue = some q
  /-- Their command buffers are live and were submitted nowhere else since. -/
  returning : Returning queue bs t

theorem retireCommandBuffer_keeps {bs : List Batch} {q : Queue} (h : Retiring queue bs q t)
    {b : Batch} (hb : b ∈ bs) (due : b.sequence ≤ q.lastRetired) {c : Handle}
    (hc : c ∈ b.commandBuffers) :
    (retireCommandBuffer b.sequence c).Ends t (fun _ u => Retiring queue bs q u)
      fun _ _ => False := by
  obtain ⟨r, hr, here⟩ := h.returning b hb c hc
  refine (retireCommandBuffer_ends h.sound.linked b.sequence c).mono (fun _ u hu => ?_)
    fun _ _ hu => ?_
  · obtain ⟨r', hr', rfl | ⟨⟨hs, -⟩, rfl⟩⟩ := hu
    · exact h
    · rw [hr] at hr'
      cases hr'
      obtain ⟨s, hs, hseq⟩ := Option.map_eq_some_iff.mp hs
      have rest := not_busy_of_due h.flying h.sound.kept h.passed hr hs (here s hs) (hseq ▸ due)
      refine ⟨h.sound.cleared c, inFlight_change h.flying rest, h.passed, fun b' hb' c' hc' => ?_⟩
      obtain ⟨r', hr', here'⟩ := h.returning b' hb' c' hc'
      show ∃ r, (t.commands.change c _).buffers.find? c' = some r ∧ _
      rw [CommandTracker.find?_change, hr']
      split
      · exact ⟨_, rfl, fun s hs => nomatch hs⟩
      · exact ⟨r', rfl, here'⟩
  · rw [hr] at hu
    cases hu.1

theorem retireBatch_keeps {bs : List Batch} {q : Queue} (h : Retiring queue bs q t)
    {b : Batch} (hb : b ∈ bs) (due : b.sequence ≤ q.lastRetired) :
    (retireBatch b).Ends t (fun _ u => Retiring queue bs q u) fun _ _ => False := by
  have signaled : Retiring queue bs q { t with queues := afterBatch t.queues b } :=
    ⟨h.sound.withQueues h.sound.kept, h.flying, h.passed, h.returning⟩
  unfold retireBatch
  rw [Track.ends_bind, Track.ends_modify]
  exact Track.Ends.forM_keeps (Retiring queue bs q) signaled fun c hc u hu =>
    retireCommandBuffer_keeps hu hb due hc

/-- The queue moves on before its batches retire one after another. -/
theorem retiring_due (h : t.Sound) (flying : InFlight t.commands t.queues) {q : Queue}
    (hq : t.queues.queues.find? queue = some q) {n : Nat}
    (range : q.lastRetired ≤ n ∧ n ≤ q.lastSubmitted) :
    Retiring queue (q.due n) (q.retired n) { t with
      queues := { t.queues with queues := t.queues.queues.modify queue (·.retired n) } } := by
  constructor
  case sound => exact h.withQueues (kept_retired (r := ⟨queue, n⟩) h.kept hq range)
  case flying => exact flying.fewer (t.queues.sheds_retired ⟨queue, n⟩)
  case passed =>
    show (t.queues.queues.modify queue (·.retired n)).find? queue = _
    rw [Registry.find?_modify, if_pos rfl, hq, Option.map_some]
  case returning =>
    intro b hb c hc
    obtain ⟨x, s, hx, -, hs, here, -⟩ := (flying queue q hq b (Queue.mem_due hb).1).submitted c hc
    refine ⟨x, hx, fun s' hs' => ?_⟩
    rw [hs] at hs'
    cases hs'
    exact here

/-- A queue retires up to every sequence id between the last retired one and the last
submitted one. -/
theorem retireUpTo_keeps (h : t.Sound) (flying : InFlight t.commands t.queues) {r : Retirement}
    {q : Queue} (hq : t.queues.queues.find? r.queue = some q)
    (range : q.lastRetired ≤ r.upTo ∧ r.upTo ≤ q.lastSubmitted) :
    (retireUpTo r).Ends t (fun _ u => InFlight u.commands u.queues) fun _ _ => False := by
  unfold retireUpTo
  rw [Track.ends_bind, Track.ends_query, QueueTracker.queue_eq_ok_iff.mpr hq,
    Track.ends_ofExcept_ok, Track.ends_bind, checkRetirement_eq_ok_iff (v := ()) |>.mpr range,
    Track.ends_ofExcept_ok, Track.ends_bind, Track.ends_modify, Track.ends_bind]
  refine (Track.Ends.forM_keeps (Retiring r.queue (q.due r.upTo) (q.retired r.upTo))
    (retiring_due h flying hq range) fun b hb u hu =>
      retireBatch_keeps hu hb (Queue.mem_due hb).2).mono (fun _ u hu => ?_) fun _ _ hu => hu
  split
  · exact hu.flying
  · exact hu.flying

/-- Where there is nothing to retire, nothing changes. -/
theorem retireUpTo_refused {r : Retirement}
    (out : ∀ q, t.queues.queues.find? r.queue = some q →
      ¬(q.lastRetired ≤ r.upTo ∧ r.upTo ≤ q.lastSubmitted)) :
    (retireUpTo r).Ends t (fun _ _ => False) fun _ u => u = t := by
  unfold retireUpTo
  rw [Track.ends_bind, Track.ends_query, Track.ends_ofExcept]
  refine ⟨fun q hq => ?_, fun _ _ => rfl⟩
  rw [QueueTracker.queue_eq_ok_iff] at hq
  rw [Track.ends_bind, Track.ends_ofExcept]
  exact ⟨fun _ hr => absurd (checkRetirement_eq_ok_iff.mp hr) (out q hq), fun _ _ => rfl⟩

theorem inFlight_retireUpTo (h : t.Sound) (flying : InFlight t.commands t.queues)
    (r : Retirement) : InFlight ((retireUpTo r).on t).state.commands
      ((retireUpTo r).on t).state.queues := by
  by_cases range : ∃ q, t.queues.queues.find? r.queue = some q ∧
      q.lastRetired ≤ r.upTo ∧ r.upTo ≤ q.lastSubmitted
  · obtain ⟨q, hq, range⟩ := range
    obtain ⟨_, -, hu⟩ := (retireUpTo_keeps h flying hq range).answers
    exact hu
  · have same : ((retireUpTo r).on t).state = t :=
      ((retireUpTo_refused fun q hq hr => range ⟨q, hq, hr⟩).mono (fun _ _ hu => hu.elim)
        fun _ _ hu => hu).state
    rw [same]
    exact flying

/-! ## What work in flight protects -/

/-- A command buffer at work cannot be recycled. -/
theorem not_retired_of_busy (flying : InFlight t.commands t.queues) (kept : t.queues.Kept)
    {c : Handle} (busy : t.queues.Busy c) : ¬t.Retired c := fun retired => by
  have flies := (flying.unretired kept busy).2
  rw [retired.2] at flies
  cases flies

/-- What a batch in flight touches is live and lists the command buffers that touch it. -/
theorem Linked.carried (h : t.Linked) {b : Batch} (carries : t.commands.Carries queue b)
    {m : Handle} (hm : m ∈ b.memory) : ∃ x, t.memory.objects.find? m = some x ∧
      ∀ c ∈ b.commandBuffers, t.commands.Touches c m → c ∈ x.commandBuffers := by
  obtain ⟨c, -, touches⟩ := (carries.memory m).mp hm
  obtain ⟨x, hx, -⟩ := (h.touched c m).mp touches
  refine ⟨x, hx, fun c' _ touches' => ?_⟩
  obtain ⟨x', hx', listed⟩ := (h.touched c' m).mp touches'
  rw [hx] at hx'
  cases hx'
  exact listed

/-- An allocation that a batch in flight touches cannot be freed. -/
theorem Linked.free_carried (h : t.Linked) {b : Batch} (carries : t.commands.Carries queue b)
    {m : Handle} (hm : m ∈ b.memory) : ∃ bindings users,
      ((MemoryTracker.free m).on t.memory).value = .error (.freedMemRef m bindings users) ∧
      ((MemoryTracker.free m).on t.memory).state = t.memory := by
  obtain ⟨c, hc, touches⟩ := (carries.memory m).mp hm
  obtain ⟨x, hx, listed⟩ := h.carried carries hm
  have linked := MemoryObject.links_pos_of_used (listed c hc touches)
  obtain ⟨v, hv, rfl, same⟩ := (MemoryTracker.free_linked_ends h.tallied hx linked).stops
  exact ⟨_, _, hv, same⟩

end Trackers

/-- The submission that a hook is about to forward. -/
def Hook.submission? : Hook → Option (Handle × List SubmitBatch)
  | .pre (.queueSubmit queue submits _) => some (queue, submits)
  | _ => none

/-! ## Runs -/

namespace Layer

open Trackers (Books)

variable {l : Layer} {config : Config} {device queue : Handle} {session : Session} {q : Queue}

/-- The hooks that count all links and submit to a queue of a device no command buffer
that is in flight on another one. -/
def Exclusive (device : Handle) (l : Layer) (hook : Hook) : Prop :=
  Tame l hook ∧ ∀ work ∈ hook.submission?, l.drained.owners[work.1]? = some device →
    ∀ session ∈ l.drained.sessions[device]?, ∀ c ∈ work.2.flatMap (·.commandBuffers),
      session.trackers.queues.OnlyOn work.1 c

instance (l : Layer) (hook : Hook) : Decidable (Exclusive device l hook) :=
  inferInstanceAs (Decidable (_ ∧ _))

/-- What the hooks keep of the books of all devices, with the work in flight of one. -/
structure Flying (device : Handle) (owners : Owners) (other : Handle) (t : Trackers) : Prop where
  /-- The books agree. -/
  books : Books owners other t
  /-- Work in flight on the device has what it needs. -/
  flying : other = device → InFlight t.commands t.queues

/-- The calls that count all links and submit to one device no command buffer in flight
on another queue. -/
def MaySubmit (device : Handle) (owners : Owners) (other : Handle) (t : Trackers) (call : Call) :
    Prop :=
  KeepsCounted owners other t call ∧
    (other = device → ∀ queue submits fence, call = .queueSubmit queue submits fence →
      ∀ c ∈ submits.flatMap (·.commandBuffers), t.queues.OnlyOn queue c)

theorem flying_invariant (device : Handle) :
    SessionInvariant (Flying device) (MaySubmit device) where
  empty owners other none := ⟨books_invariant.empty owners other none, fun _ => inFlight_empty⟩
  lose _ _ _ _ fewer h := ⟨h.books.lose fewer, h.flying⟩
  retire _ _ _ r h := ⟨h.books.retire r, fun he =>
    Trackers.inFlight_retireUpTo h.books.sound (h.flying he) r⟩
  validate owners other t call h may scope := by
    obtain ⟨few, may⟩ := may
    refine ⟨h.books.validate scope few, fun he => ?_⟩
    have sound := h.books.sound
    have flying := h.flying he
    have ends := Trackers.validate_call_ends sound owners other call (h.books.begun scope)
    cases hx : ((Trackers.validate owners other call).on t).value with
    | ok released =>
        rcases ends.good_of_ok hx with edits | ⟨-, queue, submits, fence, q, hc, hq, ready, hu⟩
        · exact Trackers.inFlight_edits flying sound edits
        · rw [hu]
          refine Trackers.inFlight_withBatch flying sound.kept hq (fun c hc => ?_)
            (may he queue submits fence hc)
          exact CommandTracker.executable_of_submittable (ready c hc)
    | error v =>
        rcases ends.bad_of_error hx with (refused | uncounted) | ⟨-, edits⟩
        · rw [refused.2]
          exact flying
        · exact absurd few uncounted.2
        · exact Trackers.inFlight_edits flying sound edits
  record owners other t call h := by
    refine ⟨h.books.record call, fun he => ?_⟩
    have edits := ((Trackers.recordCreation_ends t other call).mono (fun _ _ hu => hu.1)
      fun _ _ hu => hu).state
    exact Trackers.inFlight_edits (h.flying he) h.books.sound edits

theorem flying_of_reached (h : Reached (Exclusive device) config l) : l.Holds (Flying device) := by
  refine holds_of_reached (flying_invariant device) (fun k call ok validated other s hs running =>
    ⟨Counted.validated (validated ▸ ok.1) hs running, fun he queue submits fence hc => ?_⟩) h
  subst hc he
  obtain ⟨hf, owner⟩ := session_of_call hs
  exact ok.2 (queue, submits) rfl (owner queue rfl) s hf

/-- In every run that submits no command buffer in flight on another queue, the batches
in flight on a device have executable command buffers that were submitted to their queue
and not since to another, and touch exactly what these touch, which is live.  So none of
it can be freed or recycled, and the queue can retire as far as it has submitted. -/
theorem work_of_reached (h : Reached (Exclusive device) config l)
    (hs : l.sessions[device]? = some session)
    (hq : session.trackers.queues.queues.find? queue = some q) :
    let t := session.trackers
    (∀ b ∈ q.inFlight,
      (∀ c ∈ b.commandBuffers, ∃ r s, t.commands.buffers.find? c = some r ∧
        r.state = .executable ∧ r.lastSubmission = some s ∧ s.queue = queue ∧
        b.sequence ≤ s.sequence) ∧
      (∀ m, m ∈ b.memory ↔ ∃ c ∈ b.commandBuffers, t.commands.Touches c m) ∧
      (∀ m ∈ b.memory, ∃ x, t.memory.objects.find? m = some x ∧
        ∀ c ∈ b.commandBuffers, t.commands.Touches c m → c ∈ x.commandBuffers) ∧
      ∀ c ∈ b.commandBuffers,
        (∀ usage, (Trackers.begin c usage).Refuses t) ∧ (Trackers.reset c).Refuses t ∧
        (∀ pool cbs, c ∈ cbs → (Trackers.freeCommandBuffers pool cbs).Refuses t) ∧
        ∀ r, t.commands.buffers.find? c = some r →
          (Trackers.resetPool r.pool).Refuses t ∧ (Trackers.destroyPool r.pool).Refuses t) ∧
    (∀ m, m ∈ q.memoryRefs ↔ ∃ b ∈ q.inFlight, m ∈ b.memory) ∧
    (∀ m ∈ q.memoryRefs, ∃ bindings users,
      ((MemoryTracker.free m).on t.memory).value = .error (.freedMemRef m bindings users) ∧
      ((MemoryTracker.free m).on t.memory).state = t.memory) ∧
    ∀ n, q.lastRetired ≤ n → n ≤ q.lastSubmitted →
      ∃ batches, ((Trackers.retireUpTo ⟨queue, n⟩).on t).value = .ok batches := by
  intro t
  obtain ⟨⟨sound, -⟩, flying⟩ := (flying_of_reached h).books device session hs
  have flying : InFlight t.commands t.queues := flying rfl
  have carries := flying queue q hq
  have refs : ∀ m, m ∈ q.memoryRefs ↔ ∃ b ∈ q.inFlight, m ∈ b.memory := fun _ =>
    (sound.kept queue q hq).mem_memoryRefs
  refine ⟨fun b hb => ⟨(carries b hb).submitted, (carries b hb).memory, fun m hm => ?_,
    fun c hc => ?_⟩, refs, fun m hm => ?_, fun n low high => ?_⟩
  · exact sound.linked.carried (carries b hb) hm
  · have still : ¬t.Retired c :=
      Trackers.not_retired_of_busy flying sound.kept ⟨queue, q, hq, b, hb, hc⟩
    exact ⟨Trackers.refuses_begin sound still, Trackers.refuses_reset sound still,
      fun pool cbs => Trackers.refuses_freeCommandBuffers sound still pool,
      fun r hr => ⟨Trackers.refuses_resetPool sound still hr,
        Trackers.refuses_destroyPool sound still hr⟩⟩
  · obtain ⟨b, hb, hm⟩ := (refs m).mp hm
    exact sound.linked.free_carried (carries b hb) hm
  · obtain ⟨batches, answer, -⟩ :=
      (Trackers.retireUpTo_keeps (r := ⟨queue, n⟩) sound flying hq ⟨low, high⟩).answers
    exact ⟨batches, answer⟩

/-- The submitted command buffer touches the allocation, which cannot be freed, and its
queue can retire it. -/
theorem work_of_filling : ∃ session ∈ ((start {}).run filling).sessions[(⟨1, .device⟩ : Handle)]?,
    (∃ bindings users,
      ((MemoryTracker.free ⟨3, .deviceMemory⟩).on session.trackers.memory).value =
        .error (.freedMemRef ⟨3, .deviceMemory⟩ bindings users)) ∧
    ∃ batches, ((Trackers.retireUpTo ⟨⟨2, .queue⟩, 1⟩).on session.trackers).value =
      .ok batches := by
  have reached : Reached (Exclusive ⟨1, .device⟩) {} ((start {}).run filling) :=
    Reached.start.run (by decide +kernel)
  have found : ∃ session ∈ ((start {}).run filling).sessions[(⟨1, .device⟩ : Handle)]?,
      ∃ q ∈ session.trackers.queues.queues.find? ⟨2, .queue⟩,
        (⟨3, .deviceMemory⟩ : Handle) ∈ q.memoryRefs ∧ q.lastRetired ≤ 1 ∧ 1 ≤ q.lastSubmitted := by
    decide +kernel
  obtain ⟨session, hs, q, hq, touched, low, high⟩ := found
  obtain ⟨-, -, free, retires⟩ := work_of_reached reached hs hq
  obtain ⟨bindings, users, refused, -⟩ := free _ touched
  exact ⟨session, hs, ⟨bindings, users, refused⟩, retires 1 low high⟩

end Layer

end GpuAudit
