import GpuAudit.Proofs.Protection
import GpuAudit.Proofs.Successive

/-!
# Retirements that stop

A retirement that is out of range is refused before anything changes.  One in range moves
its queue on before it deals with the command buffers of the batches that are due, so if it
stops at one of these, the queue has moved all the same: `stopped_moved`.

So a retirement that stops has changed nothing exactly if no retirement in range stops.
Where links are entered on both sides, that is so exactly if the command buffers of all
batches that are due are still tracked.
-/

namespace GpuAudit

/-- A queue in which something is due is not as it was after it has retired. -/
theorem Queue.retired_ne {q : Queue} {n : Nat} (due : q.due n ≠ []) : q.retired n ≠ q := by
  intro same
  have parts := q.due_append_retired n
  rw [same] at parts
  exact due (by simpa using parts)

namespace Trackers

variable {t : Trackers} {r : Retirement}

/-- A retirement is in range: its queue is tracked, and it neither goes back nor goes past
the latest submission. -/
def InRange (t : Trackers) (r : Retirement) : Prop :=
  ∃ q, t.queues.queues.find? r.queue = some q ∧ q.lastRetired ≤ r.upTo ∧ r.upTo ≤ q.lastSubmitted

/-- If the retirement stops, nothing has changed. -/
def Atomic (t : Trackers) (r : Retirement) : Prop :=
  ∀ v, ((retireUpTo r).on t).value = .error v → ((retireUpTo r).on t).state = t

/-- A retirement in range that stops has moved its queue on, which had something to retire. -/
theorem stopped_moved (range : t.InRange r) {v : Violation}
    (stopped : ((retireUpTo r).on t).value = .error v) :
    ∃ q, t.queues.queues.find? r.queue = some q ∧ q.due r.upTo ≠ [] ∧
      ((retireUpTo r).on t).state.queues.queues.find? r.queue = some (q.retired r.upTo) := by
  obtain ⟨q, hq, range⟩ := range
  have stops := (retireUpTo_effect t r).bad_of_error stopped
  generalize ((retireUpTo r).on t).state = u at stops ⊢
  cases stops with
  | refused out => exact absurd range (out q hq).1
  | @halfway _ q' front back b _ found _ parts queues _ _ =>
      cases hq.symm.trans found
      refine ⟨q, hq, by simp [parts], ?_⟩
      rw [queues, QueueTracker.queues_passed, Registry.find?_modify, if_pos rfl, hq,
        Option.map_some]

/-- A retirement that is out of range is refused. -/
theorem unchanged_of_not_inRange (out : ¬t.InRange r) : t.Atomic r := by
  intro v stopped
  have stops := (retireUpTo_effect t r).bad_of_error stopped
  generalize ((retireUpTo r).on t).state = u at stops ⊢
  cases stops with
  | refused => rfl
  | halfway _ found range => exact absurd ⟨_, found, range⟩ out

/-- A retirement changes nothing when it stops exactly if it does not stop in range. -/
theorem atomic_iff_answers : t.Atomic r ↔ (t.InRange r → (retireUpTo r).Answers t) := by
  constructor
  · intro atomic range
    cases done : ((retireUpTo r).on t).value with
    | ok bs => exact ⟨bs, done⟩
    | error v =>
        obtain ⟨q, hq, due, moved⟩ := stopped_moved range done
        rw [atomic v done, hq, Option.some.injEq] at moved
        exact absurd moved.symm (Queue.retired_ne due)
  · intro answers
    by_cases range : t.InRange r
    · intro v stopped
      obtain ⟨bs, done⟩ := answers range
      exact nomatch done.symm.trans stopped
    · exact unchanged_of_not_inRange range

/-- The command buffers of all batches are tracked that the retirement takes off its queue. -/
def DueTracked (t : Trackers) (r : Retirement) : Prop :=
  ∀ q, t.queues.queues.find? r.queue = some q → ∀ b ∈ q.inFlight, b.sequence ≤ r.upTo →
    ∀ c ∈ b.commandBuffers, t.commands.contains c = true

/-- Where the books agree, a retirement in range goes through exactly if the command
buffers of what is due are tracked. -/
theorem Sound.answers_iff_dueTracked (h : t.Sound) (range : t.InRange r) :
    (retireUpTo r).Answers t ↔ t.DueTracked r := by
  obtain ⟨q, hq, range⟩ := range
  have due : ∀ b, b ∈ q.due r.upTo ↔ b ∈ q.inFlight ∧ b.sequence ≤ r.upTo := fun b =>
    (h.kept _ q hq).mem_due_iff range
  have live : ∀ c, t.commands.contains c = true ↔ ∃ x, t.commands.buffers.find? c = some x :=
    fun c => by rw [CommandTracker.contains, Registry.contains_eq_isSome, Option.isSome_iff_exists]
  constructor
  · rintro ⟨bs, done⟩ q' hq' b flying early c listed
    cases hq.symm.trans hq'
    obtain ⟨⟨q', hq', -, tracked⟩, -⟩ := (retireUpTo_eq_ok_iff h.linked).mp done
    cases hq.symm.trans hq'
    exact (live c).mpr (tracked (b.sequence, c)
      (Batch.mem_work.mpr ⟨b, (due b).mpr ⟨flying, early⟩, rfl, listed⟩))
  · intro tracked
    refine ⟨t.due r, (retireUpTo_eq_ok_iff h.linked).mpr ⟨⟨q, hq, range, fun w hw => ?_⟩, rfl⟩⟩
    obtain ⟨b, hb, -, listed⟩ := Batch.mem_work.mp hw
    obtain ⟨flying, early⟩ := (due b).mp hb
    exact (live w.2).mp (tracked q hq b flying early w.2 listed)

end Trackers

/-! ## Runs -/

namespace Layer

variable {l : Layer} {allowed : Layer → Hook → Prop} {config : Config} {device : Handle}
  {session : Session}

/-- In every session of every run, a retirement changes nothing when it stops exactly if it
does not stop in range; and in runs that count all links it does not stop in range exactly
if the command buffers of the batches that are due are tracked. -/
theorem atomic_iff_of_reached (h : Reached allowed config l)
    (hs : l.sessions[device]? = some session) (r : Retirement) :
    let t := session.trackers
    (t.Atomic r ↔ (t.InRange r → (Trackers.retireUpTo r).Answers t)) ∧
      ((∀ k hook, allowed k hook → Tame k hook) →
        (t.Atomic r ↔ (t.InRange r → t.DueTracked r))) := by
  refine ⟨Trackers.atomic_iff_answers, fun tame => ?_⟩
  have sound := ((books_of_reached (h.mono tame)).books device session hs).sound
  rw [Trackers.atomic_iff_answers]
  exact forall_congr' sound.answers_iff_dueTracked

/-- While the command buffer that two queues have in flight is tracked, retirements that
stop change nothing. -/
theorem atomic_of_shared :
    ∃ session ∈ ((start {}).run shared).sessions[(⟨1, .device⟩ : Handle)]?,
      ∀ upTo, session.trackers.Atomic ⟨⟨2, .queue⟩, upTo⟩ := by
  have reached : Reached Tame {} ((start {}).run shared) := Reached.start.run (by decide +kernel)
  have found : ∃ session ∈ ((start {}).run shared).sessions[(⟨1, .device⟩ : Handle)]?,
      ∀ q ∈ session.trackers.queues.queues.find? ⟨2, .queue⟩, ∀ b ∈ q.inFlight,
        ∀ c ∈ b.commandBuffers, session.trackers.commands.contains c = true := by decide +kernel
  obtain ⟨session, hs, tracked⟩ := found
  refine ⟨session, hs, fun upTo => ?_⟩
  exact ((atomic_iff_of_reached reached hs _).2 fun _ _ tame => tame).mpr
    fun _ q hq b flying _ => tracked q hq b flying

/-- The command buffer is given up while the other queue still has it in flight. -/
def orphaned : List Hook :=
  shared ++ [.pre (.freeCommandBuffers ⟨1, .device⟩ ⟨4, .commandPool⟩ [⟨5, .commandBuffer⟩])]

/-- Then the retirement of the other queue stops, and has taken the batch off the queue. -/
theorem moved_of_orphaned :
    ∃ session ∈ ((start {}).run orphaned).sessions[(⟨1, .device⟩ : Handle)]?,
      Reached Tame {} ((start {}).run orphaned) ∧ session.halted = false ∧
      (∃ v, ((Trackers.retireUpTo ⟨⟨2, .queue⟩, 1⟩).on session.trackers).value = .error v) ∧
      (session.trackers.queues.queues.find? ⟨2, .queue⟩).map (·.lastRetired) = some 0 ∧
      (((Trackers.retireUpTo ⟨⟨2, .queue⟩, 1⟩).on
        session.trackers).state.queues.queues.find? ⟨2, .queue⟩).map (·.lastRetired) = some 1 := by
  have reached : Reached Tame {} ((start {}).run orphaned) := Reached.start.run (by decide +kernel)
  have found : ∃ session ∈ ((start {}).run orphaned).sessions[(⟨1, .device⟩ : Handle)]?,
      session.halted = false ∧
      ((Trackers.retireUpTo ⟨⟨2, .queue⟩, 1⟩).on session.trackers).value.isOk = false ∧
      (session.trackers.queues.queues.find? ⟨2, .queue⟩).map (·.lastRetired) = some 0 ∧
      (((Trackers.retireUpTo ⟨⟨2, .queue⟩, 1⟩).on
        session.trackers).state.queues.queues.find? ⟨2, .queue⟩).map (·.lastRetired) = some 1 := by
    decide +kernel
  obtain ⟨session, hs, runs, stopped, before, after⟩ := found
  refine ⟨session, hs, reached, runs, ?_, before, after⟩
  cases done : ((Trackers.retireUpTo ⟨⟨2, .queue⟩, 1⟩).on session.trackers).value with
  | ok bs =>
      rw [done] at stopped
      cases stopped
  | error v => exact ⟨v, rfl⟩

end Layer

end GpuAudit
