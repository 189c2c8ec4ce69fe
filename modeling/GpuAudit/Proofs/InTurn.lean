import Mathlib.Data.List.Chain
import GpuAudit.Proofs.Semaphores

/-!
# Units of work in one call and in turn

A submission checks all its units of work against the semaphores as they were before the
call, and then enters them one after another.  Submitted in turn, each unit of work is
checked against what the units before it have left.

The two ways leave the same semaphores, but they do not accept the same work.  What one
call accepts is accepted in turn exactly if the units that name a semaphore take turns:
`TakeTurns`.  What is accepted in turn is accepted in one call exactly if every semaphore
that several units name is unset before.
-/

namespace GpuAudit

open Trackers (afterSubmit)

/-! ## Units of work at one semaphore -/

namespace SubmitBatch

variable {s : SubmitBatch} {submits : List SubmitBatch} {h : Handle} {x : Option Semaphore}

/-- Whether a unit of work names a semaphore. -/
def names (s : SubmitBatch) (h : Handle) : Bool := h ∈ s.waitSemaphores ∨ h ∈ s.signalSemaphores

/-- A semaphore in a state lets a unit of work pass. -/
structure Admits (s : SubmitBatch) (h : Handle) (x : Option Semaphore) : Prop where
  /-- It is live and not waited on, if the unit waits on it. -/
  waits : h ∈ s.waitSemaphores → ∃ y ∈ x, y ≠ .wait
  /-- It is live and not signaled, if the unit signals it. -/
  signals : h ∈ s.signalSemaphores → ∃ y ∈ x, y ≠ .signaled

/-- A semaphore lets units of work pass one after another, each in the state that those
before it have left. -/
def AdmitsInTurn : List SubmitBatch → Handle → Option Semaphore → Prop
  | [], _, _ => True
  | s :: rest, h, x => s.Admits h x ∧ AdmitsInTurn rest h (x.map (s.leaves h).getD)

/-- No unit of work signals a semaphore that the one before it to name it signals, or
waits on a semaphore that the one before it only waits on. -/
def TakeTurns (submits : List SubmitBatch) (h : Handle) : Prop :=
  (submits.filter (·.names h)).IsChain fun s s' => s'.Admits h (s.leaves h)

theorem names_iff : s.names h = true ↔ h ∈ s.waitSemaphores ∨ h ∈ s.signalSemaphores := by
  simp [names]

theorem admits_of_not_names (unnamed : ¬s.names h = true) : s.Admits h x := by
  rw [names_iff, not_or] at unnamed
  exact ⟨fun waits => absurd waits unnamed.1, fun signals => absurd signals unnamed.2⟩

theorem admits_unset : s.Admits h (some .unset) :=
  ⟨fun _ => ⟨.unset, rfl, nofun⟩, fun _ => ⟨.unset, rfl, nofun⟩⟩

theorem Admits.live (admits : s.Admits h x) (named : s.names h = true) : ∃ y, x = some y := by
  rcases names_iff.mp named with waits | signals
  · exact (admits.waits waits).imp fun _ hy => hy.1
  · exact (admits.signals signals).imp fun _ hy => hy.1

theorem leaves_of_not_names (unnamed : ¬s.names h = true) : s.leaves h = none := by
  rw [names_iff, not_or] at unnamed
  rw [leaves, if_neg unnamed.2, if_neg unnamed.1]

/-- A unit of work leaves a semaphore that it names signaled if it signals it, else waited
on. -/
theorem leaves_of_names (named : s.names h = true) :
    (h ∈ s.signalSemaphores ∧ s.leaves h = some .signaled) ∨
      (h ∈ s.waitSemaphores ∧ s.leaves h = some .wait) := by
  by_cases signals : h ∈ s.signalSemaphores
  · exact .inl ⟨signals, if_pos signals⟩
  · have waits := (names_iff.mp named).resolve_right signals
    exact .inr ⟨waits, by rw [leaves, if_neg signals, if_pos waits]⟩

/-- Only the units of work count that name the semaphore. -/
theorem admits_all_iff : (∀ s ∈ submits, s.Admits h x) ↔
    ∀ s ∈ submits.filter (·.names h), s.Admits h x := by
  constructor
  · exact fun all s hs => all s (List.mem_of_mem_filter hs)
  · intro all s hs
    by_cases named : s.names h = true
    · exact all s (List.mem_filter.mpr ⟨hs, named⟩)
    · exact admits_of_not_names named

/-- The first unit of work to name a semaphore finds the state before, and each later one
what the one before it has left. -/
theorem admitsInTurn_iff : ∀ {submits : List SubmitBatch} {x : Option Semaphore},
    AdmitsInTurn submits h x ↔
      (∀ s ∈ (submits.filter (·.names h)).head?, s.Admits h x) ∧ TakeTurns submits h
  | [], _ => by simp [AdmitsInTurn, TakeTurns]
  | s :: rest, x => by
      unfold AdmitsInTurn TakeTurns
      rw [admitsInTurn_iff]
      by_cases named : s.names h = true
      · rw [List.filter_cons, if_pos named, List.isChain_cons, List.head?_cons]
        simp only [Option.mem_some_iff, forall_eq']
        refine and_congr_right fun admits => and_congr_left fun _ => ?_
        obtain ⟨y, rfl⟩ := admits.live named
        rcases leaves_of_names named with ⟨-, left⟩ | ⟨-, left⟩
        · rw [left]
          rfl
        · rw [left]
          rfl
      · have same : x.map (s.leaves h).getD = x := by
          rw [leaves_of_not_names named]
          cases x <;> rfl
        rw [List.filter_cons, if_neg named, same]
        exact and_iff_right (admits_of_not_names named)

/-- Units of work that all pass a semaphore as it is pass it in turn exactly if they take
turns. -/
theorem admitsInTurn_iff_takeTurns (all : ∀ s ∈ submits, s.Admits h x) :
    AdmitsInTurn submits h x ↔ TakeTurns submits h := by
  rw [admitsInTurn_iff]
  exact and_iff_right fun s hs => admits_all_iff.mp all s (List.mem_of_mem_head? hs)

/-- Two units of work that pass a semaphore as it is, and one after the other, find it
unset: one of them waits on it, and the other signals it. -/
theorem unset_of_follows {s' : SubmitBatch} (named : s.names h = true)
    (named' : s'.names h = true) (admits : s.Admits h x) (admits' : s'.Admits h x)
    (follows : s'.Admits h (s.leaves h)) : x = some .unset := by
  obtain ⟨y, rfl⟩ := admits.live named
  rcases leaves_of_names named with ⟨signals, left⟩ | ⟨waits, left⟩
  · rw [left] at follows
    have waits' : h ∈ s'.waitSemaphores := (names_iff.mp named').resolve_right fun signals' => by
      simpa using follows.signals signals'
    have unsignaled : y ≠ .signaled := by simpa using admits.signals signals
    have unwaited : y ≠ .wait := by simpa using admits'.waits waits'
    cases y <;> simp_all
  · rw [left] at follows
    have signals' : h ∈ s'.signalSemaphores :=
      (names_iff.mp named').resolve_left fun waits' => by simpa using follows.waits waits'
    have unwaited : y ≠ .wait := by simpa using admits.waits waits
    have unsignaled : y ≠ .signaled := by simpa using admits'.signals signals'
    cases y <;> simp_all

/-- Units of work that pass a semaphore in turn all pass it as it is exactly if it is
unset, where several of them name it. -/
theorem admits_all_iff_unset (turns : AdmitsInTurn submits h x) :
    (∀ s ∈ submits, s.Admits h x) ↔ (1 < submits.countP (·.names h) → x = some .unset) := by
  obtain ⟨first, chain⟩ := admitsInTurn_iff.mp turns
  unfold TakeTurns at chain
  have named : ∀ s ∈ submits.filter (·.names h), s.names h = true := fun s hs =>
    (List.mem_filter.mp hs).2
  rw [admits_all_iff, List.countP_eq_length_filter]
  generalize submits.filter (·.names h) = naming at *
  match naming with
  | [] => simp
  | [s] => simpa using first s rfl
  | s :: s' :: rest =>
      constructor
      · intro all _
        exact unset_of_follows (named s (by simp)) (named s' (by simp)) (all s (by simp))
          (all s' (by simp)) (List.isChain_cons_cons.mp chain).1
      · intro unset u _
        rw [unset (by simp)]
        exact admits_unset

end SubmitBatch

/-! ## One call -/

namespace Trackers

open SubmitBatch (Admits AdmitsInTurn TakeTurns)

variable {t : Trackers} {queue : Handle} {submits : List SubmitBatch}

/-- The check of a semaphore that a unit of work waits on. -/
def checkWait (h : Handle) : Track QueueTracker Unit := do
  match ← Track.query (·.semaphore h) with
  | .wait => throw (.invalidState h "already waited on by an unretired submission")
  | .unset => Track.warn (.invalidState h "waited on without a pending signal")
  | .signaled => pure ()

/-- The check of a semaphore that a unit of work signals. -/
def checkSignal (h : Handle) : Track QueueTracker Unit := do
  if (← Track.query (·.semaphore h)) = .signaled then
    throw (.invalidState h "signaled again before any wait consumed the pending signal")

theorem asks_checkWait (h : Handle) : (checkWait h).Asks := by
  refine (Track.asks_query fun t => t.mild_semaphore h).bind fun x => ?_
  cases x with
  | wait => exact Track.asks_throw rfl
  | unset => exact Track.asks_warn _
  | signaled => exact Track.asks_pure ()

theorem asks_checkSignal (h : Handle) : (checkSignal h).Asks := by
  refine (Track.asks_query fun t => t.mild_semaphore h).bind fun x => ?_
  by_cases signaled : x = .signaled
  · rw [if_pos signaled]
    exact Track.asks_throw rfl
  · rw [if_neg signaled]
    exact Track.asks_pure ()

theorem checkWait_answers_iff {t : QueueTracker} {h : Handle} :
    (checkWait h).Answers t ↔ ∃ x ∈ t.semaphores.find? h, x ≠ .wait := by
  unfold checkWait
  rw [(Track.asks_query fun t => t.mild_semaphore h).answers_bind]
  refine exists_congr fun x => and_congr Registry.lookup_eq_ok_iff ?_
  cases x <;> simp [Track.Answers]

theorem checkSignal_answers_iff {t : QueueTracker} {h : Handle} :
    (checkSignal h).Answers t ↔ ∃ x ∈ t.semaphores.find? h, x ≠ .signaled := by
  unfold checkSignal
  rw [(Track.asks_query fun t => t.mild_semaphore h).answers_bind]
  refine exists_congr fun x => and_congr Registry.lookup_eq_ok_iff ?_
  cases x <;> simp [Track.Answers]

/-- A unit of work passes its check where every semaphore lets it pass. -/
theorem checkSemaphores_answers_iff (s : SubmitBatch) (t : QueueTracker) :
    (checkSemaphores s).Answers t ↔ ∀ h, s.Admits h (t.semaphores.find? h) := by
  have loops : checkSemaphores s =
      (s.waitSemaphores.forM checkWait >>= fun _ => s.signalSemaphores.forM checkSignal) := rfl
  rw [loops, (Track.Asks.forM asks_checkWait _).answers_and,
    Track.Asks.answers_forM asks_checkWait, Track.Asks.answers_forM asks_checkSignal]
  simp only [checkWait_answers_iff, checkSignal_answers_iff]
  exact ⟨fun pass h => ⟨pass.1 h, pass.2 h⟩,
    fun admits => ⟨fun h => (admits h).waits, fun h => (admits h).signals⟩⟩

/-- Without command buffers and a fence, one call enters the units of work that its
semaphores let pass as they are. -/
theorem submit_answers_iff_admits (idle : ∀ s ∈ submits, s.commandBuffers = []) :
    (submit queue submits none).Answers t ↔
      t.queues.queues.contains queue = true ∧
        ∀ h, ∀ s ∈ submits, s.Admits h (t.queues.semaphores.find? h) := by
  have nothing : submits.flatMap (·.commandBuffers) = [] := List.flatMap_eq_nil_iff.mpr idle
  have checks : (submits.forM fun s => onQueues (checkSemaphores s)).Answers t ↔
      ∀ s ∈ submits, (checkSemaphores s).Answers t.queues :=
    Track.Asks.answers_forM fun s => (asks_checkSemaphores s).within fun _ => rfl
  have tracked : (∃ q, t.queues.queue queue = .ok q) ↔ t.queues.queues.contains queue = true := by
    rw [Registry.contains_eq_isSome, Option.isSome_iff_exists]
    exact exists_congr fun q => QueueTracker.queue_eq_ok_iff
  have buffers : (([] : List Handle).forM fun cb =>
      Track.query fun t : Trackers => t.commands.checkSubmittable t.queues cb).Answers t :=
    ⟨⟨⟩, rfl⟩
  rw [submit_answers_iff, nothing, checks, tracked]
  simp only [Option.mem_def, reduceCtorEq, false_implies, implies_true, buffers, true_and,
    checkSemaphores_answers_iff]
  exact and_congr_right fun _ => ⟨fun all h s hs => all s hs h, fun all s hs h => all h s hs⟩

/-- Units of work are submitted, each in a call of its own. -/
def submitInTurn (queue : Handle) (submits : List SubmitBatch) : Track Trackers Unit :=
  submits.forM fun s => discard (submit queue [s] none)

/-- One call leaves the semaphores as its units of work leave them one after another. -/
theorem submit_semaphores (answers : (submit queue submits none).Answers t) :
    ((submit queue submits none).on t).state.queues.semaphores =
      submits.foldl afterSubmit t.queues.semaphores := by
  obtain ⟨s, hs⟩ := answers
  obtain ⟨q, -, -, -, entered, -⟩ := (submit_ends t queue submits none).good_of_ok hs
  rw [entered]
  rfl

/-- So do calls of their own. -/
theorem submitInTurn_ends : ∀ (submits : List SubmitBatch) (t : Trackers),
    (submitInTurn queue submits).Ends t
      (fun _ u => u.queues.semaphores = submits.foldl afterSubmit t.queues.semaphores)
      fun _ _ => True
  | [], _ => rfl
  | s :: rest, t => by
      unfold submitInTurn
      rw [Track.ends_forM_cons, Track.ends_discard]
      refine (submit_ends t queue [s] none).mono (fun _ u entered => ?_) fun _ _ _ => trivial
      obtain ⟨q, -, -, -, rfl, -⟩ := entered
      exact submitInTurn_ends rest _

/-- The queue of a submission is tracked afterwards. -/
theorem submit_contains (answers : (submit queue submits none).Answers t) :
    ((submit queue submits none).on t).state.queues.queues.contains queue = true := by
  obtain ⟨s, hs⟩ := answers
  obtain ⟨q, found, -, -, entered, -⟩ := (submit_ends t queue submits none).good_of_ok hs
  rw [entered, Registry.contains_eq_isSome]
  show ((t.queues.queues.modify queue _).find? queue).isSome = true
  rw [Registry.find?_modify, if_pos rfl, found]
  rfl

theorem submitInTurn_cons_answers_iff {s : SubmitBatch} :
    (submitInTurn queue (s :: submits)).Answers t ↔ (submit queue [s] none).Answers t ∧
      (submitInTurn queue submits).Answers ((submit queue [s] none).on t).state := by
  unfold submitInTurn
  rw [Track.answers_iff_ends, Track.ends_forM_cons, Track.ends_discard]
  simp only [← Track.answers_iff_ends]
  constructor
  · intro h
    cases hx : ((submit queue [s] none).on t).value with
    | ok a => exact ⟨⟨a, hx⟩, h.good_of_ok hx⟩
    | error v => exact (h.bad_of_error hx).elim
  · rintro ⟨⟨a, ha⟩, rest⟩
    exact Track.ends_iff.mpr ⟨fun _ _ => rest, fun v hv => nomatch ha.symm.trans hv⟩

/-- In turn, units of work without command buffers are entered that their semaphores let
pass in turn. -/
theorem submitInTurn_answers_iff : ∀ {submits : List SubmitBatch} {t : Trackers},
    (∀ s ∈ submits, s.commandBuffers = []) → ((submitInTurn queue submits).Answers t ↔
      (submits ≠ [] → t.queues.queues.contains queue = true) ∧
        ∀ h, AdmitsInTurn submits h (t.queues.semaphores.find? h))
  | [], t, _ => by simpa [AdmitsInTurn] using ⟨⟨⟩, rfl⟩
  | s :: rest, t, idle => by
      have alone : ∀ u ∈ [s], u.commandBuffers = [] := by simpa using idle s (by simp)
      have ready : (submit queue [s] none).Answers t ↔ t.queues.queues.contains queue = true ∧
          ∀ h, s.Admits h (t.queues.semaphores.find? h) := by
        simpa using submit_answers_iff_admits alone
      rw [submitInTurn_cons_answers_iff,
        submitInTurn_answers_iff fun u hu => idle u (List.mem_cons_of_mem _ hu)]
      have left : (submit queue [s] none).Answers t → ∀ h,
          ((submit queue [s] none).on t).state.queues.semaphores.find? h =
            (t.queues.semaphores.find? h).map (s.leaves h).getD := fun answers h => by
        rw [submit_semaphores answers]
        exact QueueTracker.find?_afterSubmit _ s h
      constructor
      · rintro ⟨answers, -, turns⟩
        obtain ⟨tracked, admits⟩ := ready.mp answers
        exact ⟨fun _ => tracked, fun h => ⟨admits h, left answers h ▸ turns h⟩⟩
      · rintro ⟨tracked, turns⟩
        have answers := ready.mpr ⟨tracked (by simp), fun h => (turns h).1⟩
        exact ⟨answers, fun _ => submit_contains answers, fun h => left answers h ▸ (turns h).2⟩

/-! ## One call and calls in turn -/

/-- What one call accepts is accepted in turn exactly if its units of work take turns at
each semaphore. -/
theorem submitInTurn_answers_iff_takeTurns (idle : ∀ s ∈ submits, s.commandBuffers = [])
    (answers : (submit queue submits none).Answers t) :
    (submitInTurn queue submits).Answers t ↔ ∀ h, TakeTurns submits h := by
  obtain ⟨tracked, admits⟩ := (submit_answers_iff_admits idle).mp answers
  rw [submitInTurn_answers_iff idle, and_iff_right fun _ => tracked]
  exact forall_congr' fun h => SubmitBatch.admitsInTurn_iff_takeTurns (admits h)

/-- What is accepted in turn is accepted in one call exactly if the queue is tracked and
every semaphore that several units of work name is unset. -/
theorem submit_answers_iff_unset (idle : ∀ s ∈ submits, s.commandBuffers = [])
    (answers : (submitInTurn queue submits).Answers t) :
    (submit queue submits none).Answers t ↔ t.queues.queues.contains queue = true ∧
      ∀ h, 1 < submits.countP (·.names h) → t.queues.semaphores.find? h = some .unset := by
  obtain ⟨-, turns⟩ := (submitInTurn_answers_iff idle).mp answers
  rw [submit_answers_iff_admits idle]
  exact and_congr_right fun _ => forall_congr' fun h =>
    SubmitBatch.admits_all_iff_unset (turns h)

/-- Where one call and calls in turn both accept units of work, they leave the same
semaphores.  They accept the same work exactly if what one call accepts takes turns at each
semaphore, and what is accepted in turn finds its queue tracked and every semaphore unset
that several units of work name. -/
theorem submit_iff_submitInTurn (t : Trackers) (queue : Handle) (submits : List SubmitBatch)
    (idle : ∀ s ∈ submits, s.commandBuffers = []) :
    ((submit queue submits none).Answers t ∧ (submitInTurn queue submits).Answers t →
      ((submit queue submits none).on t).state.queues.semaphores =
        ((submitInTurn queue submits).on t).state.queues.semaphores) ∧
    (((submit queue submits none).Answers t ↔ (submitInTurn queue submits).Answers t) ↔
      ((submit queue submits none).Answers t → ∀ h, TakeTurns submits h) ∧
      ((submitInTurn queue submits).Answers t → t.queues.queues.contains queue = true ∧
        ∀ h, 1 < submits.countP (·.names h) → t.queues.semaphores.find? h = some .unset)) := by
  refine ⟨fun ⟨together, a, ha⟩ => ?_, ?_⟩
  · rw [submit_semaphores together]
    exact ((submitInTurn_ends submits t).good_of_ok ha).symm
  · refine iff_iff_implies_and_implies.trans
      (and_congr (forall_congr' fun together => ?_) (forall_congr' fun apart => ?_))
    · exact submitInTurn_answers_iff_takeTurns idle together
    · exact submit_answers_iff_unset idle apart

/-- A queue and a semaphore without a pending signal. -/
def unsetBooks : Trackers :=
  QueueOperation.after .empty [.addQueue ⟨1, .queue⟩, .createSemaphore ⟨2, .semaphore⟩]

/-- A semaphore is signaled, and then waited on. -/
def signaledThenWaited : List SubmitBatch :=
  [{ signalSemaphores := [⟨2, .semaphore⟩] }, { waitSemaphores := [⟨2, .semaphore⟩] }]

/-- Then one call is as good as two. -/
theorem submit_signaledThenWaited :
    (∀ s ∈ signaledThenWaited, s.commandBuffers = []) ∧
      (submit ⟨1, .queue⟩ signaledThenWaited none).Answers unsetBooks ∧
      (submitInTurn ⟨1, .queue⟩ signaledThenWaited).Answers unsetBooks ∧
      ((submit ⟨1, .queue⟩ signaledThenWaited none).on unsetBooks).state.queues.semaphores =
        ((submitInTurn ⟨1, .queue⟩ signaledThenWaited).on unsetBooks).state.queues.semaphores := by
  have idle : ∀ s ∈ signaledThenWaited, s.commandBuffers = [] := by decide
  have together : (submit ⟨1, .queue⟩ signaledThenWaited none).Answers unsetBooks := by
    decide +kernel
  have apart : (submitInTurn ⟨1, .queue⟩ signaledThenWaited).Answers unsetBooks := by
    decide +kernel
  exact ⟨idle, together, apart,
    (submit_iff_submitInTurn unsetBooks ⟨1, .queue⟩ signaledThenWaited idle).1 ⟨together, apart⟩⟩

/-- A semaphore is signaled twice. -/
def signaledTwice : List SubmitBatch :=
  [{ signalSemaphores := [⟨2, .semaphore⟩] }, { signalSemaphores := [⟨2, .semaphore⟩] }]

/-- One call accepts that, although the second signal is refused where it has a call of its
own. -/
theorem submit_signaledTwice :
    (∀ s ∈ signaledTwice, s.commandBuffers = []) ∧
      (submit ⟨1, .queue⟩ signaledTwice none).Answers unsetBooks ∧
      ¬(submitInTurn ⟨1, .queue⟩ signaledTwice).Answers unsetBooks := by
  decide +kernel

end Trackers

end GpuAudit
