import GpuAudit.Proofs.Histories
import GpuAudit.Proofs.Passing
import GpuAudit.Proofs.Returns

/-!
# Successive retirements

Two retirements of one queue come to the same as one.  `stepwise_of_reached` is the
theorem: a queue that has retired up to one id and goes on to a later one answers,
and leaves, what it does when it retires up to the later id at once.  The latter moves
the queue on before it goes through any batch, while the former has gone through the
first batches by then; but what is done for a batch overlooks how far its queue has
retired, so the queue may as well move on afterwards.  This needs nothing of the books,
and holds where a retirement stops.

Retirements of different queues may come in either order (`exchange_of_reached`).  Here
the books have to agree: which of the two returns a command buffer that was submitted to
both queues depends on the order, and only links that are entered on both sides are
released alike.
-/

namespace GpuAudit

/-! ## Changes that operations overlook -/

namespace Track

variable {σ τ α β : Type} {f : σ → σ}

/-- An operation overlooks a change of the state: its answer is the same, and the change
may as well come afterwards. -/
def Overlooks (f : σ → σ) (x : Track σ α) : Prop :=
  ∀ s, (x.on (f s)).value = (x.on s).value ∧ (x.on (f s)).state = f (x.on s).state

theorem overlooks_pure (a : α) : (pure a : Track σ α).Overlooks f := fun _ => ⟨rfl, rfl⟩

theorem overlooks_throw (v : Violation) : (throw v : Track σ α).Overlooks f := fun _ => ⟨rfl, rfl⟩

theorem overlooks_debug (message : String) : (debug message).Overlooks f := fun _ => ⟨rfl, rfl⟩

theorem overlooks_query {question : σ → Except Violation α}
    (same : ∀ s, question (f s) = question s) : (query question).Overlooks f :=
  fun s => ⟨same s, rfl⟩

theorem overlooks_modify {change : σ → σ} (commute : ∀ s, change (f s) = f (change s)) :
    (modify change : Track σ PUnit).Overlooks f := fun s => ⟨rfl, commute s⟩

theorem Overlooks.bind {x : Track σ α} {g : α → Track σ β} (hx : x.Overlooks f)
    (hg : ∀ a, (g a).Overlooks f) : (x >>= g).Overlooks f := by
  intro s
  obtain ⟨value, state⟩ := hx s
  cases ha : x.on s with
  | mk answer t notes =>
      cases hb : x.on (f s) with
      | mk answer' t' notes' =>
          rw [ha, hb] at value state
          obtain rfl : answer' = answer := value
          obtain rfl : t' = f t := state
          cases answer' with
          | ok a =>
              rw [on_bind_of_ok ha, on_bind_of_ok hb]
              exact hg a t
          | error v =>
              rw [on_bind_of_error ha, on_bind_of_error hb]
              exact ⟨rfl, rfl⟩

/-- What is read of the state does not change either. -/
theorem overlooks_get_bind {g : σ → Track σ β} (same : ∀ s, g (f s) = g s)
    (hg : ∀ s, (g s).Overlooks f) : ((get : Track σ σ) >>= g).Overlooks f := by
  intro s
  rw [on_bind_of_ok (on_get s), on_bind_of_ok (on_get (f s)), same]
  exact hg s s

theorem Overlooks.discard {x : Track σ α} (hx : x.Overlooks f) : (discard x).Overlooks f := by
  have plain : (Functor.discard x : Track σ PUnit) = x >>= fun _ => pure ⟨⟩ :=
    map_eq_pure_bind (fun _ => PUnit.unit) x
  rw [plain]
  exact hx.bind fun _ => overlooks_pure _

theorem Overlooks.restate {x : Track σ α} (hx : x.Overlooks f) (g : Violation → Violation) :
    (x.restate g).Overlooks f := by
  intro s
  rw [on_restate, on_restate]
  exact ⟨congrArg (Except.mapError g) (hx s).1, (hx s).2⟩

/-- An operation on a part overlooks what does not change the part. -/
theorem overlooks_within {get : σ → τ} {set : τ → σ → σ} {x : Track τ α}
    (same : ∀ s, get (f s) = get s) (apart : ∀ t s, set t (f s) = f (set t s)) :
    (within get set x).Overlooks f := by
  intro s
  rw [on_within, on_within, same]
  exact ⟨rfl, apart _ s⟩

theorem Overlooks.forM {g : β → Track σ PUnit} (hg : ∀ b, (g b).Overlooks f) (bs : List β) :
    (bs.forM g).Overlooks f := by
  induction bs with
  | nil => exact overlooks_pure _
  | cons b bs ih => exact (hg b).bind fun _ => ih

/-- So the operation ends as it does without the change, with the change made after it. -/
theorem Overlooks.ends {x : Track σ α} (hx : x.Overlooks f) {s : σ} {good : α → σ → Prop}
    {bad : Violation → σ → Prop} :
    x.Ends (f s) good bad ↔ x.Ends s (fun a t => good a (f t)) fun v t => bad v (f t) := by
  obtain ⟨value, state⟩ := hx s
  rw [ends_iff, ends_iff, value, state]

/-- An operation that has answered ends with the answer. -/
theorem ends_of_ok {x : Track σ α} {s : σ} {a : α} (ha : (x.on s).value = .ok a)
    {good : α → σ → Prop} {bad : Violation → σ → Prop} :
    x.Ends s good bad ↔ good a (x.on s).state := by
  unfold Ends
  rw [ha]

/-- An operation ends with its answer, and in the state that it leaves. -/
theorem ends_self (x : Track σ α) (s : σ) :
    x.Ends s (fun a t => (x.on s).value = .ok a ∧ (x.on s).state = t)
      fun v t => (x.on s).value = .error v ∧ (x.on s).state = t :=
  ends_iff.mpr ⟨fun _ ha => ⟨ha, rfl⟩, fun _ hv => ⟨hv, rfl⟩⟩

theorem toOption_eq_some_iff {answer : Except Violation α} {a : α} :
    answer.toOption = some a ↔ answer = .ok a := by
  cases answer with
  | ok b => simp [Except.toOption]
  | error v => simp [Except.toOption]

end Track

open Track (Overlooks)

namespace Queue

variable {a b : Nat}

/-! ## One queue -/

/-- What is due up to a later id is what was due before, and what is due then. -/
theorem due_append_due (q : Queue) (ordered : a ≤ b) :
    q.due a ++ (q.retired a).due b = q.due b := by
  suffices lists : ∀ bs : List Batch,
      bs.takeWhile (·.sequence ≤ a) ++ (bs.dropWhile (·.sequence ≤ a)).takeWhile (·.sequence ≤ b) =
        bs.takeWhile (·.sequence ≤ b) from lists q.inFlight
  intro bs
  induction bs with
  | nil => rfl
  | cons x bs ih =>
      by_cases early : x.sequence ≤ a
      · have later : x.sequence ≤ b := Nat.le_trans early ordered
        simp [early, later, ih]
      · simp [List.takeWhile_cons, early]

/-- A queue that has retired twice is as far as if it had only retired the second time. -/
theorem retired_retired (q : Queue) (ordered : a ≤ b) : (q.retired a).retired b = q.retired b := by
  have flying : ∀ bs : List Batch, (bs.dropWhile (·.sequence ≤ a)).dropWhile (·.sequence ≤ b) =
      bs.dropWhile (·.sequence ≤ b) := by
    intro bs
    induction bs with
    | nil => rfl
    | cons x bs ih =>
        by_cases early : x.sequence ≤ a
        · have later : x.sequence ≤ b := Nat.le_trans early ordered
          simp [early, later, ih]
        · simp [List.dropWhile_cons, early]
  refine (Queue.mk.injEq ..).mpr ⟨rfl, rfl, flying q.inFlight, ?_⟩
  rw [← q.due_append_due ordered, List.foldl_append]
  rfl

/-- Nothing is due up to the id that the queue has retired up to. -/
theorem Kept.due_lastRetired {q : Queue} (h : q.Kept) : q.due q.lastRetired = [] := by
  rw [List.eq_nil_iff_forall_not_mem]
  intro x hx
  obtain ⟨flies, early⟩ := mem_due hx
  exact absurd (h.sequence flies).1 (Nat.not_lt.mpr early)

theorem Kept.retired_lastRetired {q : Queue} (h : q.Kept) : q.retired q.lastRetired = q := by
  have whole := q.due_append_retired q.lastRetired
  rw [h.due_lastRetired, List.nil_append] at whole
  refine (Queue.mk.injEq ..).mpr ⟨rfl, rfl, whole, ?_⟩
  rw [h.due_lastRetired]
  rfl

end Queue

namespace Trackers

variable {t u : Trackers} {r r' : Retirement} {q : Queue} {bs bs' : List Batch}

/-! ## Batches of one queue -/

/-- The books after a queue has moved on, before its batches are dealt with. -/
def advance (r : Retirement) (t : Trackers) : Trackers :=
  { t with queues := { t.queues with
      queues := t.queues.queues.modify r.queue (·.retired r.upTo) } }

theorem advance_advance (t : Trackers) {queue : Handle} {a b : Nat} (ordered : a ≤ b) :
    advance ⟨queue, b⟩ (advance ⟨queue, a⟩ t) = advance ⟨queue, b⟩ t := by
  have queues : (t.queues.queues.modify queue (·.retired a)).modify queue (·.retired b) =
      t.queues.queues.modify queue (·.retired b) := by
    ext1 g
    simp only [Registry.find?_modify]
    split
    · simp [Function.comp_def, Queue.retired_retired _ ordered]
    · rfl
  simp only [advance, queues]

theorem advance_lastRetired (hq : t.queues.queues.find? r.queue = some q) (kept : q.Kept)
    (current : r.upTo = q.lastRetired) : advance r t = t := by
  have queues : t.queues.queues.modify r.queue (·.retired r.upTo) = t.queues.queues := by
    ext1 g
    rw [Registry.find?_modify]
    split
    next here => rw [here, hq, Option.map_some, current, kept.retired_lastRetired]
    next => rfl
  simp only [advance, queues]

theorem change_overlooks (r : Retirement) (cb : Handle) (f : CommandBuffer → CommandBuffer) :
    (modify fun t => { t with commands := t.commands.change cb f } :
      Track Trackers PUnit).Overlooks (advance r) :=
  Track.overlooks_modify fun _ => rfl

theorem releaseLinks_overlooks (r : Retirement) (cb : Handle) (memories : List Handle) :
    (releaseLinks cb memories).Overlooks (advance r) := by
  refine Overlooks.forM (fun memory => ?_) memories
  have link : (onMemory (MemoryTracker.removeCommandBuffer memory cb)).Overlooks (advance r) :=
    Track.overlooks_within (fun _ => rfl) fun _ _ => rfl
  exact link.discard.restate _

theorem clear_overlooks (r : Retirement) (cb : Handle) : (clear cb).Overlooks (advance r) := by
  have asked : (Track.query (·.commands.lookup cb) : Track Trackers _).Overlooks (advance r) :=
    Track.overlooks_query fun _ => rfl
  have released : (releaseAll cb).Overlooks (advance r) :=
    asked.bind fun b => (change_overlooks r cb _).bind fun _ => releaseLinks_overlooks r cb _
  exact released.bind fun _ => change_overlooks r cb _

theorem retireCommandBuffer_overlooks (r : Retirement) (s : Nat) (cb : Handle) :
    (retireCommandBuffer s cb).Overlooks (advance r) := by
  refine Track.overlooks_get_bind (fun _ => rfl) fun t => ?_
  split
  · exact Track.overlooks_throw _
  · split
    · exact (clear_overlooks r cb).bind fun _ => Track.overlooks_debug _
    · exact Track.overlooks_pure _

/-- What is done for a batch that retires overlooks how far its queue has retired. -/
theorem retireBatch_overlooks (r : Retirement) (b : Batch) :
    (retireBatch b).Overlooks (advance r) := by
  have signaled : (modify fun t => { t with queues := afterBatch t.queues b } :
      Track Trackers PUnit).Overlooks (advance r) := Track.overlooks_modify fun _ => rfl
  exact signaled.bind fun _ =>
    Overlooks.forM (retireCommandBuffer_overlooks r b.sequence) b.commandBuffers

theorem retireBatches_overlooks (r : Retirement) (bs : List Batch) :
    (bs.forM retireBatch).Overlooks (advance r) := Overlooks.forM (retireBatch_overlooks r) bs

/-- In its range a retirement ends as the batches do that are due. -/
theorem ends_retireUpTo (hq : t.queues.queues.find? r.queue = some q)
    (range : q.lastRetired ≤ r.upTo ∧ r.upTo ≤ q.lastSubmitted)
    {good : List Batch → Trackers → Prop} {bad : Violation → Trackers → Prop} :
    (retireUpTo r).Ends t good bad ↔
      ((q.due r.upTo).forM retireBatch).Ends (advance r t) (fun _ => good (q.due r.upTo)) bad := by
  have passes : checkRetirement q r = .ok () := checkRetirement_eq_ok_iff.mpr range
  unfold retireUpTo
  rw [Track.ends_bind, Track.ends_query, QueueTracker.queue_eq_ok_iff.mpr hq,
    Track.ends_ofExcept_ok, Track.ends_bind, passes, Track.ends_ofExcept_ok, Track.ends_bind,
    Track.ends_modify, Track.ends_bind]
  have noted : ∀ u, (do
      if !(q.due r.upTo).isEmpty then
        Track.debug s!"{r.queue} retired {(q.due r.upTo).length} submission(s) up to {r.upTo}"
      return q.due r.upTo : Track Trackers (List Batch)).Ends u good bad ↔
        good (q.due r.upTo) u := by
    intro u
    split
    · exact Iff.rfl
    · exact Iff.rfl
  simp only [noted]
  exact Iff.rfl

/-- The queue after it has retired, and how far the retirement was allowed to go. -/
theorem found_retireUpTo (done : ((retireUpTo r).on t).value = .ok bs) :
    ∃ q, t.queues.queues.find? r.queue = some q ∧
      (q.lastRetired ≤ r.upTo ∧ r.upTo ≤ q.lastSubmitted) ∧ bs = q.due r.upTo ∧
      ((retireUpTo r).on t).state.queues.queues.find? r.queue = some (q.retired r.upTo) := by
  have passes := (retireUpTo_effect t r).good_of_ok done
  obtain ⟨q, hq, range, due⟩ := passes.due
  refine ⟨q, hq, range, due, ?_⟩
  rw [passes.queues, QueueTracker.queues_passed, Registry.find?_modify, if_pos rfl, hq,
    Option.map_some]

/-- A queue that has retired up to one id goes on to a later one as it does at once. -/
theorem ends_retireUpTo_stepwise {queue : Handle} {a b : Nat}
    (hq : t.queues.queues.find? queue = some q) (ordered : a ≤ b) (within : b ≤ q.lastSubmitted)
    (done : ((retireUpTo ⟨queue, a⟩).on t).value = .ok bs)
    {good : List Batch → Trackers → Prop} {bad : Violation → Trackers → Prop} :
    (retireUpTo ⟨queue, b⟩).Ends t good bad ↔
      (retireUpTo ⟨queue, b⟩).Ends ((retireUpTo ⟨queue, a⟩).on t).state
        (fun bs' => good (bs ++ bs')) bad := by
  obtain ⟨q', hq', range, rfl, found⟩ := found_retireUpTo done
  obtain rfl : q' = q := Option.some.inj (hq'.symm.trans hq)
  -- What the first retirement has done for its batches.
  have first : ((q'.due a).forM retireBatch).Ends (advance ⟨queue, a⟩ t)
      (fun _ u => ((retireUpTo ⟨queue, a⟩).on t).state = u) fun _ _ => False := by
    refine (ends_retireUpTo hq range).mp ((Track.ends_self _ t).mono (fun _ _ h => h.2) ?_)
    intro v u h
    rw [done] at h
    cases h.1
  rw [ends_retireUpTo (r := ⟨queue, b⟩) hq ⟨Nat.le_trans range.1 ordered, within⟩,
    ends_retireUpTo (r := ⟨queue, b⟩) found ⟨ordered, within⟩, ← q'.due_append_due ordered,
    Track.ends_forM_append, ← advance_advance t ordered, (retireBatches_overlooks _ _).ends]
  obtain ⟨_, answer, left⟩ := first.answers
  rw [left, Track.ends_of_ok answer]

/-- A retirement up to the id that its queue has retired up to changes nothing. -/
theorem retireUpTo_current (hq : t.queues.queues.find? r.queue = some q) (kept : q.Kept)
    (current : r.upTo = q.lastRetired) :
    ((retireUpTo r).on t).value = .ok [] ∧ ((retireUpTo r).on t).state = t := by
  have range : q.lastRetired ≤ r.upTo ∧ r.upTo ≤ q.lastSubmitted := by
    have := kept.inRange
    omega
  have nothing : q.due r.upTo = [] := by rw [current, kept.due_lastRetired]
  have ends := (ends_retireUpTo hq range).mp (Track.ends_self (retireUpTo r) t)
  rw [nothing, advance_lastRetired hq kept current] at ends
  exact ends

/-! ## Different queues -/

/-- Where links are entered on both sides, a retirement answers exactly if it is ready. -/
theorem retireUpTo_eq_ok_iff (linked : t.Linked) :
    ((retireUpTo r).on t).value = .ok bs ↔ t.Ready r ∧ bs = t.due r := by
  constructor
  · intro done
    have passes := (retireUpTo_effect t r).good_of_ok done
    obtain ⟨q, hq, -, due⟩ := passes.due
    exact ⟨passes.ready, due.trans (due_of_found hq).symm⟩
  · rintro ⟨ready, rfl⟩
    obtain ⟨bs, done, -⟩ := (retireUpTo_of_ready linked ready).answers
    obtain ⟨q, hq, -, due, -⟩ := found_retireUpTo done
    rw [done, due, due_of_found hq]

theorem state_retireUpTo (linked : t.Linked) (done : ((retireUpTo r).on t).value = .ok bs) :
    ((retireUpTo r).on t).state = t.pass r :=
  ((retireUpTo_effect t r).good_of_ok done).eq_pass linked

end Trackers

/-! ## In every run -/

namespace Layer

variable {allowed : Layer → Hook → Prop} {config : Config} {l : Layer} {device : Handle}
  {session : Session}

/-- A queue that has retired up to one id goes on to a later one with the answer, and the
books, of a retirement up to the later id at once: it stops for the same reason, or the
batches that the two return come to those of the one.  Up to the id that it has retired up
to, the queue returns nothing and leaves the books as they are. -/
theorem stepwise_of_reached (h : Reached allowed config l)
    (hs : l.sessions[device]? = some session) {queue : Handle} {q : Queue} {a b : Nat}
    {bs : List Batch} (hq : session.trackers.queues.queues.find? queue = some q)
    (ordered : a ≤ b) (within : b ≤ q.lastSubmitted)
    (done : ((Trackers.retireUpTo ⟨queue, a⟩).on session.trackers).value = .ok bs) :
    let first := ((Trackers.retireUpTo ⟨queue, a⟩).on session.trackers).state
    let second := (Trackers.retireUpTo ⟨queue, b⟩).on first
    let whole := (Trackers.retireUpTo ⟨queue, b⟩).on session.trackers
    (whole.value = second.value.map (bs ++ ·) ∧ whole.state = second.state) ∧
      (((Trackers.retireUpTo ⟨queue, a⟩).on first).value = .ok [] ∧
        ((Trackers.retireUpTo ⟨queue, a⟩).on first).state = first) ∧
      ((Trackers.retireUpTo ⟨queue, q.lastRetired⟩).on session.trackers).value = .ok [] ∧
        ((Trackers.retireUpTo ⟨queue, q.lastRetired⟩).on session.trackers).state =
          session.trackers := by
  intro first second whole
  have kept : q.Kept := (scheduled_of_reached h hs).guarded.kept queue q hq
  have ends := (Trackers.ends_retireUpTo_stepwise hq ordered within done).mp
    (Track.ends_self (Trackers.retireUpTo ⟨queue, b⟩) session.trackers)
  obtain ⟨q', hq', range, -, found⟩ := Trackers.found_retireUpTo done
  obtain rfl : q' = q := Option.some.inj (hq'.symm.trans hq)
  refine ⟨?_, ?_, ?_⟩
  · show whole.value = second.value.map (bs ++ ·) ∧ whole.state = second.state
    cases hx : second.value with
    | ok bs' => exact ends.good_of_ok hx
    | error v => exact ends.bad_of_error hx
  · exact Trackers.retireUpTo_current (r := ⟨queue, a⟩) found (kept.retired range.1 range.2) rfl
  · exact Trackers.retireUpTo_current (r := ⟨queue, _⟩) hq kept rfl

/-- Three submissions to one queue: the first signals a fence and gives back its command
buffer, and the others share one. -/
def thrice : List Hook :=
  [.post (.createDevice ⟨1, .device⟩) .success,
   .post (.getDeviceQueue ⟨1, .device⟩ ⟨2, .queue⟩) .success,
   .post (.createFence ⟨1, .device⟩ ⟨3, .fence⟩ false) .success,
   .post (.createCommandPool ⟨1, .device⟩ ⟨4, .commandPool⟩ .empty) .success,
   .post (.allocateCommandBuffers ⟨1, .device⟩ ⟨4, .commandPool⟩
     [⟨5, .commandBuffer⟩, ⟨6, .commandBuffer⟩]) .success,
   .pre (.beginCommandBuffer ⟨5, .commandBuffer⟩ CommandBufferUsage.oneTimeSubmit),
   .pre (.endCommandBuffer ⟨5, .commandBuffer⟩),
   .pre (.beginCommandBuffer ⟨6, .commandBuffer⟩
     (CommandBufferUsage.oneTimeSubmit.union CommandBufferUsage.simultaneousUse)),
   .pre (.endCommandBuffer ⟨6, .commandBuffer⟩),
   .pre (.queueSubmit ⟨2, .queue⟩ [{ commandBuffers := [⟨5, .commandBuffer⟩] }]
     (some ⟨3, .fence⟩)),
   .pre (.queueSubmit ⟨2, .queue⟩ [{ commandBuffers := [⟨6, .commandBuffer⟩] }] none),
   .pre (.queueSubmit ⟨2, .queue⟩ [{ commandBuffers := [⟨6, .commandBuffer⟩] }] none)]

/-- The first batch retires, and then the two others; at once, the three do. -/
theorem stepwise_of_thrice :
    ∃ session ∈ ((start {}).run thrice).sessions[(⟨1, .device⟩ : Handle)]?,
    ∃ bs bs' : List Batch, bs.length = 1 ∧ bs'.length = 2 ∧
      ((Trackers.retireUpTo ⟨⟨2, .queue⟩, 1⟩).on session.trackers).value = .ok bs ∧
      ((Trackers.retireUpTo ⟨⟨2, .queue⟩, 3⟩).on session.trackers).value = .ok (bs ++ bs') := by
  have reached : Reached Tame {} ((start {}).run thrice) := Reached.start.run (by decide +kernel)
  have found : ∃ session ∈ ((start {}).run thrice).sessions[(⟨1, .device⟩ : Handle)]?,
      ∃ q ∈ session.trackers.queues.queues.find? ⟨2, .queue⟩, 3 ≤ q.lastSubmitted ∧
        ((Trackers.retireUpTo ⟨⟨2, .queue⟩, 1⟩).on
          session.trackers).value.toOption.map List.length = some 1 ∧
        ((Trackers.retireUpTo ⟨⟨2, .queue⟩, 3⟩).on ((Trackers.retireUpTo ⟨⟨2, .queue⟩, 1⟩).on
          session.trackers).state).value.toOption.map List.length = some 2 := by
    decide +kernel
  obtain ⟨session, hs, q, hq, within, first, second⟩ := found
  obtain ⟨bs, done, one⟩ := Option.map_eq_some_iff.mp first
  obtain ⟨bs', done', two⟩ := Option.map_eq_some_iff.mp second
  rw [Track.toOption_eq_some_iff] at done done'
  have stepwise := (stepwise_of_reached reached hs hq (by decide) within done).1.1
  rw [done'] at stepwise
  exact ⟨session, hs, bs, bs', one, two, done, stepwise⟩

/-- Retirements of different queues that go through one after the other go through in the
opposite order.  Each returns the same batches, and the books are the same in the end. -/
theorem exchange_of_reached (h : Reached Tame config l)
    (hs : l.sessions[device]? = some session) {r r' : Retirement} {bs bs' : List Batch}
    (away : r.queue ≠ r'.queue)
    (first : ((Trackers.retireUpTo r).on session.trackers).value = .ok bs)
    (second : ((Trackers.retireUpTo r').on
      ((Trackers.retireUpTo r).on session.trackers).state).value = .ok bs') :
    ((Trackers.retireUpTo r').on session.trackers).value = .ok bs' ∧
      ((Trackers.retireUpTo r).on
        ((Trackers.retireUpTo r').on session.trackers).state).value = .ok bs ∧
      ((Trackers.retireUpTo r).on ((Trackers.retireUpTo r').on session.trackers).state).state =
        ((Trackers.retireUpTo r').on
          ((Trackers.retireUpTo r).on session.trackers).state).state := by
  have linked := ((books_of_reached h).books device session hs).sound.linked
  generalize session.trackers = t at first second linked ⊢
  obtain ⟨ready, due⟩ := (Trackers.retireUpTo_eq_ok_iff linked).mp first
  have left := Trackers.state_retireUpTo linked first
  rw [left] at second ⊢
  obtain ⟨ready', due'⟩ := (Trackers.retireUpTo_eq_ok_iff (linked.pass r)).mp second
  -- The other queue is where it was, so the second retirement might have come first.
  rw [Trackers.ready_pass_away away.symm] at ready'
  rw [Trackers.due_pass t away] at due'
  have other : ((Trackers.retireUpTo r').on t).value = .ok bs' :=
    (Trackers.retireUpTo_eq_ok_iff linked).mpr ⟨ready', due'⟩
  have left' := Trackers.state_retireUpTo linked other
  rw [left', Trackers.state_retireUpTo (linked.pass r) second]
  have again : ((Trackers.retireUpTo r).on (t.pass r')).value = .ok bs := by
    rw [Trackers.retireUpTo_eq_ok_iff (linked.pass r'), Trackers.ready_pass_away away,
      Trackers.due_pass t away.symm]
    exact ⟨ready, due⟩
  refine ⟨other, again, ?_⟩
  rw [Trackers.state_retireUpTo (linked.pass r') again]
  exact t.pass_comm fun here => absurd here.symm away

/-- A command buffer has been submitted to both queues, so the queue that retires first
returns it; either order leaves the same. -/
theorem exchange_of_doubled :
    ∃ session ∈ ((start {}).run doubled).sessions[(⟨1, .device⟩ : Handle)]?,
    ∃ bs bs' : List Batch, bs.length = 1 ∧ bs'.length = 1 ∧
      ((Trackers.retireUpTo ⟨⟨2, .queue⟩, 1⟩).on session.trackers).value = .ok bs ∧
      ((Trackers.retireUpTo ⟨⟨3, .queue⟩, 1⟩).on session.trackers).value = .ok bs' ∧
      ((Trackers.retireUpTo ⟨⟨2, .queue⟩, 1⟩).on
          ((Trackers.retireUpTo ⟨⟨3, .queue⟩, 1⟩).on session.trackers).state).state =
        ((Trackers.retireUpTo ⟨⟨3, .queue⟩, 1⟩).on
          ((Trackers.retireUpTo ⟨⟨2, .queue⟩, 1⟩).on session.trackers).state).state := by
  have reached : Reached Tame {} ((start {}).run doubled) := Reached.start.run (by decide +kernel)
  have found : ∃ session ∈ ((start {}).run doubled).sessions[(⟨1, .device⟩ : Handle)]?,
      ((Trackers.retireUpTo ⟨⟨2, .queue⟩, 1⟩).on
        session.trackers).value.toOption.map List.length = some 1 ∧
      ((Trackers.retireUpTo ⟨⟨3, .queue⟩, 1⟩).on ((Trackers.retireUpTo ⟨⟨2, .queue⟩, 1⟩).on
        session.trackers).state).value.toOption.map List.length = some 1 := by
    decide +kernel
  obtain ⟨session, hs, first, second⟩ := found
  obtain ⟨bs, done, one⟩ := Option.map_eq_some_iff.mp first
  obtain ⟨bs', done', another⟩ := Option.map_eq_some_iff.mp second
  rw [Track.toOption_eq_some_iff] at done done'
  obtain ⟨other, -, same⟩ := exchange_of_reached reached hs (by decide) done done'
  exact ⟨session, hs, bs, bs', one, another, done, other, same⟩

end Layer

end GpuAudit
