import GpuAudit.Proofs.Fences
import GpuAudit.Proofs.Consistency

/-!
# Which command buffers a retirement returns

A command buffer records its last submission.  `Scheduled` says that the batch of that
submission is in flight, and lists the command buffer, until it retires.  Every hook
keeps this, whatever the calls and the completions are.

A retirement should return the command buffers whose last submission retires.  It
compares numbers only, and command buffers that were begun for simultaneous use may
have been submitted to several queues.  So it returns one too many if a batch that
retires has the number of the last submission, which went to another queue.
-/

namespace GpuAudit

/-! ## The last submission -/

/-- The last submission of a command buffer is in flight, and its batch lists the command
buffer, until it retires. -/
def Placed (commands : CommandTracker) (queues : QueueTracker) : Prop :=
  ∀ c b s, commands.buffers.find? c = some b → b.lastSubmission = some s →
    b.state = .executable ∧ ∃ q, queues.queues.find? s.queue = some q ∧
      (q.lastRetired < s.sequence → ∃ x ∈ q.inFlight, x.sequence = s.sequence ∧
        c ∈ x.commandBuffers)

section Placed

variable {commands commands' : CommandTracker} {queues queues' : QueueTracker} {q : Queue}

theorem placed_empty : Placed .empty .empty := by
  intro c b s hb
  simp [CommandTracker.empty] at hb

/-- Queues may lose batches that retire and get new ones. -/
theorem Placed.mono (h : Placed commands queues) (inherits : commands.Inherits commands')
    (later : ∀ g q, queues.queues.find? g = some q → ∃ q', queues'.queues.find? g = some q' ∧
      q.lastRetired ≤ q'.lastRetired ∧
      ∀ x ∈ q.inFlight, q'.lastRetired < x.sequence → x ∈ q'.inFlight) :
    Placed commands' queues' := by
  intro c b s hb hs
  obtain ⟨old, ho, hs, ready⟩ := inherits c b s hb hs
  obtain ⟨executable, q, hq, batch⟩ := h c old s ho hs
  obtain ⟨q', hq', further, stays⟩ := later s.queue q hq
  refine ⟨ready executable, q', hq', fun due => ?_⟩
  obtain ⟨x, hx, number, listed⟩ := batch (Nat.lt_of_le_of_lt further due)
  exact ⟨x, stays x hx (number ▸ due), number, listed⟩

theorem Placed.same (h : Placed commands queues) (inherits : commands.Inherits commands')
    (same : ∀ g q, queues.queues.find? g = some q → queues'.queues.find? g = some q) :
    Placed commands' queues' :=
  h.mono inherits fun g q hq => ⟨q, same g q hq, Nat.le_refl _, fun _ hx _ => hx⟩

/-- A queue may retire, even if the retirement stops half way. -/
theorem Placed.passed {r : Retirement} (h : Placed commands queues) (kept : queues.Kept)
    (inherits : commands.Inherits commands') (hq : queues.queues.find? r.queue = some q)
    (range : q.lastRetired ≤ r.upTo ∧ r.upTo ≤ q.lastSubmitted) (bs : List Batch) :
    Placed commands' (queues.passed r bs) := by
  refine h.mono inherits fun g q' hq' => ?_
  rw [QueueTracker.queues_passed, Registry.find?_modify]
  split
  next here =>
    subst here
    rw [hq] at hq'
    cases hq'
    refine ⟨q.retired r.upTo, by rw [hq, Option.map_some], range.1, fun x hx later => ?_⟩
    exact ((kept _ q hq).mem_retired_iff range).mpr ⟨hx, later⟩
  next => exact ⟨q', hq', Nat.le_refl _, fun _ hx _ => hx⟩

end Placed

namespace Trackers

variable {t u : Trackers}

/-- Fences in use and last submissions are those of batches in flight until these
retire. -/
structure Scheduled (t : Trackers) : Prop where
  /-- Fences and batches agree. -/
  guarded : t.queues.Guarded
  /-- Command buffers and batches agree. -/
  placed : Placed t.commands t.queues

theorem scheduled_empty : empty.Scheduled := ⟨QueueTracker.guarded_empty, placed_empty⟩

/-- A submission places its command buffers. -/
theorem placed_withBatch (h : Placed t.commands t.queues) {queue : Handle} {q : Queue}
    (hq : t.queues.queues.find? queue = some q) (submits : List SubmitBatch) {b : Batch}
    (ready : ∀ c ∈ b.commandBuffers,
      ∃ r, t.commands.buffers.find? c = some r ∧ r.state = .executable) :
    Placed (t.withBatch queue submits b).commands (t.withBatch queue submits b).queues := by
  have view : ∀ g, (t.withBatch queue submits b).queues.queues.find? g =
      if g = queue then (t.queues.queues.find? g).map (·.push b) else t.queues.queues.find? g :=
    fun g => Registry.find?_modify ..
  intro c r s hr hs
  have hr : (t.commands.submitted b.commandBuffers _).buffers.find? c = some r := hr
  rw [CommandTracker.find?_submitted] at hr
  split at hr
  next listed =>
    obtain ⟨old, ho, executable⟩ := ready c listed
    rw [ho, Option.map_some, Option.some.injEq] at hr
    subst hr
    cases hs
    refine ⟨executable, q.push b, by rw [view, if_pos rfl, hq, Option.map_some], fun _ => ?_⟩
    exact ⟨b, List.mem_append_right _ (List.mem_singleton_self b), rfl, listed⟩
  next =>
    obtain ⟨executable, q', hq', batch⟩ := h c r s hr hs
    refine ⟨executable, ?_⟩
    rw [view]
    split
    next here =>
      rw [hq', Option.map_some]
      refine ⟨q'.push b, rfl, fun later => ?_⟩
      obtain ⟨x, hx, rest⟩ := batch later
      exact ⟨x, List.mem_append_left _ hx, rest⟩
    next => exact ⟨q', hq', batch⟩

theorem Move.scheduled (m : Move t u) (h : t.Scheduled) : u.Scheduled := by
  refine ⟨m.guarded h.guarded, ?_⟩
  cases m with
  | queueMade commands _ new view =>
      refine h.placed.same commands fun g q hq => ?_
      rw [view, if_neg fun he => ?_]
      · exact hq
      · rw [he, new] at hq
        cases hq
  | refenced commands queues _ =>
      refine h.placed.same commands fun g q hq => ?_
      rw [queues]
      exact hq
  | submitted found _ ready =>
      exact placed_withBatch h.placed found _ fun c hc =>
        CommandTracker.executable_of_submittable (ready c hc)
  | retired passes =>
      obtain ⟨q, hq, range, rfl⟩ := passes.due
      rw [passes.queues, passes.settles.commands]
      exact h.placed.passed h.guarded.kept (inherits_settled t _) hq range _

theorem Stops.scheduled {r : Retirement} {v : Violation} (s : Stops t r v u) (h : t.Scheduled) :
    u.Scheduled := by
  refine ⟨s.guarded h.guarded, ?_⟩
  cases s with
  | refused => exact h.placed
  | halfway _ found range _ queues commands =>
      rw [queues]
      exact h.placed.passed h.guarded.kept commands found range _

theorem Scheduled.retire (h : t.Scheduled) (r : Retirement) : ((retireUpTo r).on t).state.Scheduled :=
  ((retireUpTo_effect t r).mono (fun _ _ passes => (Move.retired passes).scheduled h)
    fun _ _ stops => stops.scheduled h).state

end Trackers

/-! ## Runs -/

namespace Layer

variable {l : Layer} {allowed : Layer → Hook → Prop} {config : Config} {device : Handle}
  {session : Session}

/-- Every hook keeps the schedule. -/
theorem scheduled_invariant :
    SessionInvariant (fun _ _ t => t.Scheduled) fun _ _ _ _ => True where
  empty _ _ _ := Trackers.scheduled_empty
  lose _ _ _ _ _ h := h
  retire _ _ _ r h := h.retire r
  validate owners device t call h _ _ :=
    ((Trackers.validate_moves owners device call).state t).scheduled h
  record _ device t call h := ((Trackers.recordCreation_moves device call).state t).scheduled h

/-- In every session of every run, whatever the calls and the completions are, fences in use
and last submissions are those of batches in flight until these retire. -/
theorem scheduled_of_reached (h : Reached allowed config l)
    (hs : l.sessions[device]? = some session) : session.trackers.Scheduled :=
  (holds_of_reached scheduled_invariant (fun _ _ _ _ _ _ _ _ => trivial) h).books device session hs

end Layer

/-! ## What a retirement returns -/

namespace Trackers

variable {t u : Trackers} {r : Retirement} {q : Queue}

/-- A retirement returns the command buffers of its own queue: those that were begun for
one submission, and whose last submission it retires. -/
structure ReturnsOwn (t : Trackers) (r : Retirement) (q : Queue) (u : Trackers) : Prop where
  /-- A command buffer that was last submitted to another queue stays as it is. -/
  elsewhere : ∀ c b s, t.commands.buffers.find? c = some b → b.lastSubmission = some s →
    s.queue ≠ r.queue → u.commands.buffers.find? c = some b
  /-- One that was begun for one submission is made fresh, and what it touched lists it no
  more, exactly if its last submission retires. -/
  returned : ∀ c b, t.commands.buffers.find? c = some b →
    b.usage.contains CommandBufferUsage.oneTimeSubmit = true →
    ((u.commands.buffers.find? c = some (.fresh b.pool) ∧
        ∀ m ∈ b.memoryRefs, ¬u.memory.ListsUser m c) ↔
      ∃ s, b.lastSubmission = some s ∧ s.queue = r.queue ∧
        q.lastRetired < s.sequence ∧ s.sequence ≤ r.upTo)

/-- A batch that retires has a command buffer begun for one submission whose last
submission, of the same number, went to another queue. -/
def Confuses (t : Trackers) (r : Retirement) (q : Queue) : Prop :=
  ∃ c b s x, t.commands.buffers.find? c = some b ∧
    b.usage.contains CommandBufferUsage.oneTimeSubmit = true ∧ b.lastSubmission = some s ∧
    s.queue ≠ r.queue ∧ x ∈ q.inFlight ∧ x.sequence = s.sequence ∧ x.sequence ≤ r.upTo ∧
    c ∈ x.commandBuffers

/-- A command buffer is returned exactly if a batch that retires lists it and has the
number of its last submission. -/
theorem Scheduled.returnedBy_iff (h : t.Scheduled) (hq : t.queues.queues.find? r.queue = some q)
    (range : q.lastRetired ≤ r.upTo ∧ r.upTo ≤ q.lastSubmitted) {c : Handle} {b : CommandBuffer}
    (hb : t.commands.buffers.find? c = some b) :
    b.ReturnedBy (Batch.work (q.due r.upTo)) c ↔
      b.usage.contains CommandBufferUsage.oneTimeSubmit = true ∧
      ∃ s x, b.lastSubmission = some s ∧ x ∈ q.inFlight ∧ x.sequence = s.sequence ∧
        x.sequence ≤ r.upTo ∧ c ∈ x.commandBuffers := by
  have kept := h.guarded.kept _ q hq
  constructor
  · rintro ⟨w, hw, rfl, last, -, oneTime⟩
    obtain ⟨x, hx, number, listed⟩ := Batch.mem_work.mp hw
    obtain ⟨s, hs, same⟩ := Option.map_eq_some_iff.mp last
    obtain ⟨flying, early⟩ := Queue.mem_due hx
    exact ⟨oneTime, s, x, hs, flying, number.trans same.symm, early, listed⟩
  · rintro ⟨oneTime, s, x, hs, flying, number, early, listed⟩
    refine ⟨(x.sequence, c), Batch.mem_work.mpr ⟨x, ?_, rfl, listed⟩, rfl, ?_, ?_, oneTime⟩
    · exact (kept.mem_due_iff range).mpr ⟨flying, early⟩
    · rw [hs, Option.map_some, number]
    · exact (h.placed c b s hb hs).1

/-- A command buffer whose last submission went to the queue is returned exactly if that
retires. -/
theorem Scheduled.returnedBy_own (h : t.Scheduled) (hq : t.queues.queues.find? r.queue = some q)
    (range : q.lastRetired ≤ r.upTo ∧ r.upTo ≤ q.lastSubmitted) {c : Handle} {b : CommandBuffer}
    (hb : t.commands.buffers.find? c = some b)
    (oneTime : b.usage.contains CommandBufferUsage.oneTimeSubmit = true) {s : Submission}
    (hs : b.lastSubmission = some s) (here : s.queue = r.queue) :
    b.ReturnedBy (Batch.work (q.due r.upTo)) c ↔
      q.lastRetired < s.sequence ∧ s.sequence ≤ r.upTo := by
  rw [h.returnedBy_iff hq range hb]
  constructor
  · rintro ⟨-, s', x, hs', flying, number, early, -⟩
    rw [hs] at hs'
    cases hs'
    rw [← number]
    exact ⟨((h.guarded.kept _ q hq).sequence flying).1, early⟩
  · rintro ⟨later, early⟩
    obtain ⟨-, q', hq', batch⟩ := h.placed c b s hb hs
    rw [here, hq] at hq'
    cases hq'
    obtain ⟨x, flying, number, listed⟩ := batch later
    exact ⟨oneTime, s, x, hs, flying, number, by omega, listed⟩

/-- A command buffer begun for one submission is made fresh exactly if it is returned. -/
theorem Settles.fresh_iff {ws : List (Nat × Handle)} (settles : Settles t ws u) {c : Handle}
    {b : CommandBuffer} (hb : t.commands.buffers.find? c = some b)
    (oneTime : b.usage.contains CommandBufferUsage.oneTimeSubmit = true) :
    u.commands.buffers.find? c = some (.fresh b.pool) ↔ b.ReturnedBy ws c := by
  rw [settles.find? hb]
  split
  next returned => simp [returned]
  next stays =>
    refine ⟨fun same => ?_, fun returned => absurd returned stays⟩
    rw [Option.some.injEq] at same
    rw [same, CommandBuffer.fresh_not_oneTime] at oneTime
    cases oneTime

/-- A retirement returns its own command buffers, and none else, exactly if it confuses no
other queue's submission with its own. -/
theorem Scheduled.returnsOwn_iff (h : t.Scheduled) (hq : t.queues.queues.find? r.queue = some q)
    (range : q.lastRetired ≤ r.upTo ∧ r.upTo ≤ q.lastSubmitted)
    (settles : Settles t (Batch.work (q.due r.upTo)) u) :
    t.ReturnsOwn r q u ↔ ¬t.Confuses r q := by
  constructor
  · rintro own ⟨c, b, s, x, hb, oneTime, hs, away, flying, number, early, listed⟩
    have returned : b.ReturnedBy (Batch.work (q.due r.upTo)) c :=
      (h.returnedBy_iff hq range hb).mpr ⟨oneTime, s, x, hs, flying, number, early, listed⟩
    have same := own.elsewhere c b s hb hs away
    rw [(settles.fresh_iff hb oneTime).mpr returned, Option.some.injEq] at same
    rw [← same, CommandBuffer.fresh_not_oneTime] at oneTime
    cases oneTime
  · intro distinct
    have elsewhere : ∀ {c b s}, t.commands.buffers.find? c = some b →
        b.lastSubmission = some s → s.queue ≠ r.queue →
        ¬b.ReturnedBy (Batch.work (q.due r.upTo)) c := by
      intro c b s hb hs away returned
      obtain ⟨oneTime, s', x, hs', flying, number, early, listed⟩ :=
        (h.returnedBy_iff hq range hb).mp returned
      rw [hs] at hs'
      cases hs'
      exact distinct ⟨c, b, s, x, hb, oneTime, hs, away, flying, number, early, listed⟩
    constructor
    · intro c b s hb hs away
      rw [settles.find? hb, if_neg (elsewhere hb hs away)]
    · intro c b hb oneTime
      rw [settles.fresh_iff hb oneTime]
      constructor
      · rintro ⟨returned, -⟩
        obtain ⟨-, s, x, hs, -⟩ := (h.returnedBy_iff hq range hb).mp returned
        have here : s.queue = r.queue :=
          Decidable.byContradiction fun away => elsewhere hb hs away returned
        exact ⟨s, hs, here, (h.returnedBy_own hq range hb oneTime hs here).mp returned⟩
      · rintro ⟨s, hs, here, due⟩
        have returned := (h.returnedBy_own hq range hb oneTime hs here).mpr due
        exact ⟨returned, fun m hm listed => (settles.freed m c listed).2 b hb returned hm⟩

end Trackers

namespace Layer

variable {l : Layer} {allowed : Layer → Hook → Prop} {config : Config} {device : Handle}
  {session : Session}

/-- In every session of every run, a retirement that goes through returns the command
buffers of its queue, and none else, exactly if no batch that it retires has a command
buffer, begun for one submission, whose last submission got the same number on another
queue. -/
theorem returnsOwn_of_reached (h : Reached allowed config l)
    (hs : l.sessions[device]? = some session) {r : Retirement} {bs : List Batch}
    (done : ((Trackers.retireUpTo r).on session.trackers).value = .ok bs) :
    ∃ q, session.trackers.queues.queues.find? r.queue = some q ∧
      (session.trackers.ReturnsOwn r q ((Trackers.retireUpTo r).on session.trackers).state ↔
        ¬session.trackers.Confuses r q) := by
  have passes := (Trackers.retireUpTo_effect session.trackers r).good_of_ok done
  obtain ⟨q, hq, range, rfl⟩ := passes.due
  exact ⟨q, hq, (scheduled_of_reached h hs).returnsOwn_iff hq range passes.settles⟩

/-- A command buffer begun for one submission, and for simultaneous use, has been
submitted to two queues. -/
def doubled : List Hook :=
  [.post (.createDevice ⟨1, .device⟩) .success,
   .post (.getDeviceQueue ⟨1, .device⟩ ⟨2, .queue⟩) .success,
   .post (.getDeviceQueue ⟨1, .device⟩ ⟨3, .queue⟩) .success,
   .post (.createCommandPool ⟨1, .device⟩ ⟨4, .commandPool⟩ .empty) .success,
   .post (.allocateCommandBuffers ⟨1, .device⟩ ⟨4, .commandPool⟩ [⟨5, .commandBuffer⟩]) .success,
   .pre (.beginCommandBuffer ⟨5, .commandBuffer⟩
     (CommandBufferUsage.oneTimeSubmit.union CommandBufferUsage.simultaneousUse)),
   .pre (.endCommandBuffer ⟨5, .commandBuffer⟩),
   .pre (.queueSubmit ⟨2, .queue⟩ [{ commandBuffers := [⟨5, .commandBuffer⟩] }] none),
   .pre (.queueSubmit ⟨3, .queue⟩ [{ commandBuffers := [⟨5, .commandBuffer⟩] }] none)]

/-- Before the second submission, the retirement of the first returns its command
buffer. -/
theorem returnsOwn_of_doubled :
    ∃ session ∈ ((start {}).run (doubled.take 8)).sessions[(⟨1, .device⟩ : Handle)]?,
      ∃ q, session.trackers.ReturnsOwn ⟨⟨2, .queue⟩, 1⟩ q
          ((Trackers.retireUpTo ⟨⟨2, .queue⟩, 1⟩).on session.trackers).state ∧
        ((Trackers.retireUpTo ⟨⟨2, .queue⟩, 1⟩).on
          session.trackers).state.commands.buffers.find? ⟨5, .commandBuffer⟩ =
            some (.fresh ⟨4, .commandPool⟩) := by
  have reached : Reached Tame {} ((start {}).run (doubled.take 8)) :=
    Reached.start.run (by decide +kernel)
  have found : ∃ session ∈ ((start {}).run (doubled.take 8)).sessions[(⟨1, .device⟩ : Handle)]?,
      ((Trackers.retireUpTo ⟨⟨2, .queue⟩, 1⟩).on session.trackers).value.isOk = true ∧
      (∀ c b, session.trackers.commands.buffers.find? c = some b →
        ∀ s ∈ b.lastSubmission, s.queue = ⟨2, .queue⟩) ∧
      ((Trackers.retireUpTo ⟨⟨2, .queue⟩, 1⟩).on
        session.trackers).state.commands.buffers.find? ⟨5, .commandBuffer⟩ =
          some (.fresh ⟨4, .commandPool⟩) := by decide +kernel
  obtain ⟨session, hs, done, here, fresh⟩ := found
  cases hx : ((Trackers.retireUpTo ⟨⟨2, .queue⟩, 1⟩).on session.trackers).value with
  | error v =>
      rw [hx] at done
      cases done
  | ok bs =>
      obtain ⟨q, -, own⟩ := returnsOwn_of_reached reached hs hx
      refine ⟨session, hs, q, own.mpr ?_, fresh⟩
      rintro ⟨c, b, s, x, hb, -, hsub, away, -⟩
      exact away (here c b hb s hsub)

/-- After the second submission, the retirement of the first returns the command buffer
all the same, although the second has not retired. -/
theorem returned_of_doubled :
    ∃ session ∈ ((start {}).run doubled).sessions[(⟨1, .device⟩ : Handle)]?,
      Reached Tame {} ((start {}).run doubled) ∧ session.halted = false ∧
      ((Trackers.retireUpTo ⟨⟨2, .queue⟩, 1⟩).on session.trackers).value.isOk = true ∧
      (∃ b s q, session.trackers.commands.buffers.find? ⟨5, .commandBuffer⟩ = some b ∧
        b.lastSubmission = some s ∧ session.trackers.queues.queues.find? s.queue = some q ∧
        q.lastRetired < s.sequence) ∧
      ∀ q, ¬session.trackers.ReturnsOwn ⟨⟨2, .queue⟩, 1⟩ q
        ((Trackers.retireUpTo ⟨⟨2, .queue⟩, 1⟩).on session.trackers).state := by
  have reached : Reached Tame {} ((start {}).run doubled) := Reached.start.run (by decide +kernel)
  have found : ∃ session ∈ ((start {}).run doubled).sessions[(⟨1, .device⟩ : Handle)]?,
      session.halted = false ∧
      ((Trackers.retireUpTo ⟨⟨2, .queue⟩, 1⟩).on session.trackers).value.isOk = true ∧
      (∃ b ∈ session.trackers.commands.buffers.find? ⟨5, .commandBuffer⟩,
        ∃ s ∈ b.lastSubmission, ∃ q ∈ session.trackers.queues.queues.find? s.queue,
          q.lastRetired < s.sequence ∧ s.queue ≠ ⟨2, .queue⟩ ∧
          ((Trackers.retireUpTo ⟨⟨2, .queue⟩, 1⟩).on
            session.trackers).state.commands.buffers.find? ⟨5, .commandBuffer⟩ ≠ some b) := by
    decide +kernel
  obtain ⟨session, hs, runs, done, b, hb, s, hsub, q, hq, later, away, changed⟩ := found
  refine ⟨session, hs, reached, runs, done, ⟨b, s, q, hb, hsub, hq, later⟩, fun q own => ?_⟩
  exact changed (own.elsewhere _ b s hb hsub away)

end Layer

end GpuAudit
