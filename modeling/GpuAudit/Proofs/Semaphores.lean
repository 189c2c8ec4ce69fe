import GpuAudit.Proofs.Histories

/-!
# Semaphores and the work that waits on them

A semaphore has one state for all the work in flight that waits on it.  A submission sets
the state of every semaphore that it names, and the last of its units of work that names
the semaphore decides; the retirement of a batch takes a wait back from every semaphore
that the batch waited on, whoever waits on it now.

So a semaphore is in the state of a wait exactly if the last submission of the history
that names it waits on it, and no retirement has come by a batch that waits on it since:
`Waiting`.  Work in flight that waits on the semaphore is not enough.
-/

namespace GpuAudit

open Track (Refused Confined)
open Trackers (afterBatch afterSubmit enterBatch)

/-! ## What operations leave of a semaphore -/

namespace SubmitBatch

/-- The state that a unit of work leaves a semaphore in that it names.  It waits first. -/
def leaves (s : SubmitBatch) (h : Handle) : Option Semaphore :=
  if h ∈ s.signalSemaphores then some .signaled
  else if h ∈ s.waitSemaphores then some .wait
  else none

/-- The state that units of work leave a semaphore in, if one of them names it. -/
def leave : List SubmitBatch → Handle → Option Semaphore
  | [], _ => none
  | s :: rest, h => (leave rest h).or (s.leaves h)

end SubmitBatch

namespace QueueTracker

variable {t : QueueTracker} {h : Handle}

/-- A change that is made to each of several semaphores, where twice is as good as once. -/
theorem find?_modifyAll (change : Semaphore → Semaphore)
    (once : ∀ x, change (change x) = change x) (h : Handle) : ∀ (hs : List Handle) (r : Registry .semaphore Semaphore),
    (hs.foldl (fun r g => r.modify g change) r).find? h =
      if h ∈ hs then (r.find? h).map change else r.find? h
  | [], r => by simp
  | g :: hs, r => by
      rw [List.foldl_cons, find?_modifyAll change once h hs, Registry.find?_modify]
      by_cases here : h = g
      · subst here
        cases r.find? h <;> simp [once]
      · simp [here]

theorem find?_afterSubmit (r : Registry .semaphore Semaphore) (s : SubmitBatch) (h : Handle) :
    (afterSubmit r s).find? h = (r.find? h).map (s.leaves h).getD := by
  have signaled := find?_modifyAll (fun _ => .signaled) (fun _ => rfl) h
  have waited := find?_modifyAll (fun _ => .wait) (fun _ => rfl) h
  simp only [afterSubmit, signaled, waited, SubmitBatch.leaves]
  by_cases signals : h ∈ s.signalSemaphores
  · by_cases waits : h ∈ s.waitSemaphores <;> cases r.find? h <;> simp [signals, waits]
  · by_cases waits : h ∈ s.waitSemaphores <;> cases r.find? h <;> simp [signals, waits]

theorem find?_afterSubmits (h : Handle) : ∀ (submits : List SubmitBatch)
    (r : Registry .semaphore Semaphore), (submits.foldl afterSubmit r).find? h =
      (r.find? h).map (SubmitBatch.leave submits h).getD
  | [], r => by
      rw [List.foldl_nil]
      cases r.find? h <;> rfl
  | s :: submits, r => by
      rw [List.foldl_cons, find?_afterSubmits h submits, find?_afterSubmit, SubmitBatch.leave]
      cases r.find? h with
      | none => rfl
      | some x => cases SubmitBatch.leave submits h <;> simp

/-- A semaphore gives up a wait if one of the batches has waited on it. -/
theorem find?_afterBatches (h : Handle) : ∀ (bs : List Batch) (t : QueueTracker),
    (bs.foldl afterBatch t).semaphores.find? h =
      if ∃ b ∈ bs, h ∈ b.waitSemaphores then
        (t.semaphores.find? h).map Semaphore.afterRetirement
      else t.semaphores.find? h
  | [], t => by simp
  | b :: bs, t => by
      have once : ∀ x : Semaphore, x.afterRetirement.afterRetirement = x.afterRetirement := by
        intro x
        cases x <;> rfl
      have first : (afterBatch t b).semaphores.find? h =
          if h ∈ b.waitSemaphores then (t.semaphores.find? h).map Semaphore.afterRetirement
          else t.semaphores.find? h := find?_modifyAll _ once h b.waitSemaphores t.semaphores
      rw [List.foldl_cons, find?_afterBatches h bs, first]
      by_cases here : h ∈ b.waitSemaphores
      · cases t.semaphores.find? h <;> simp [here, once]
      · simp [here]

theorem map_afterRetirement_ne_wait (x : Option Semaphore) :
    x.map Semaphore.afterRetirement ≠ some .wait := by
  rcases x with _ | _ | _ | _ <;> simp [Semaphore.afterRetirement]

/-- The semaphores stay as they are. -/
def SameSemaphores (t u : QueueTracker) : Prop := u.semaphores = t.semaphores

instance : IsPreorder QueueTracker SameSemaphores where
  refl _ := rfl
  trans _ _ _ h h' := h'.trans h

theorem addQueue_sameSemaphores (queue : Handle) : (addQueue queue).Confined SameSemaphores := by
  refine Track.confined_get.bind fun t => ?_
  split
  · exact Track.confined_pure false
  · refine (Track.confined_update fun s u hu => ?_).bind fun _ =>
      (Track.confined_debug _).bind fun _ => Track.confined_pure true
    obtain ⟨_, -, hu⟩ := bind_eq_ok_iff.mp hu
    cases hu
    rfl

theorem createFence_sameSemaphores (fence : Handle) (signaled : Bool) :
    (createFence fence signaled).Confined SameSemaphores := by
  refine (Track.confined_update fun s u hu => ?_).bind fun _ => Track.confined_debug _
  obtain ⟨_, -, hu⟩ := bind_eq_ok_iff.mp hu
  cases hu
  rfl

theorem destroyFence_sameSemaphores (fence : Handle) :
    (destroyFence fence).Confined SameSemaphores := by
  refine (Track.confined_query _).bind fun inFlight => ?_
  split
  · exact Track.confined_throw _
  · refine (Track.confined_update fun s u hu => ?_).bind fun _ => Track.confined_debug _
    obtain ⟨_, -, hu⟩ := bind_eq_ok_iff.mp hu
    cases hu
    rfl

theorem resetFences_sameSemaphores (fences : List Handle) :
    (resetFences fences).Confined SameSemaphores := by
  refine (Track.Confined.forM (fun fence => (Track.confined_query _).bind fun inFlight => ?_)
    fences).bind fun _ => Track.Confined.forM (fun fence => (Track.confined_query _).bind
      fun state => ?_) fences
  · split
    · exact Track.confined_throw _
    · exact Track.confined_pure ()
  · split
    · exact (Track.confined_warn _).bind fun _ => Track.confined_modify fun _ => rfl
    · exact Track.confined_modify fun _ => rfl

end QueueTracker

namespace Trackers

variable {t : Trackers}

/-- Every semaphore that a unit of work names is live, if it passes its check. -/
theorem checkSemaphores_ends (s : SubmitBatch) (t : QueueTracker) :
    (checkSemaphores s).Ends t
      (fun _ u => u = t ∧ ∀ h, (s.leaves h).isSome → (t.semaphores.find? h).isSome)
      (Refused t) := by
  have live : ∀ {h x}, t.semaphore h = .ok x → (t.semaphores.find? h).isSome := fun hx => by
    rw [Registry.lookup_eq_ok_iff.mp hx]
    rfl
  unfold checkSemaphores
  rw [Track.ends_bind]
  refine (Track.ends_forM_check (fun h => (t.semaphores.find? h).isSome = true)
    (fun h => ?_) s.waitSemaphores).mono (fun _ u hu => ?_) fun _ _ refused => refused
  · rw [Track.ends_bind, Track.ends_query, Track.ends_ofExcept]
    refine ⟨fun x hx => ?_, fun v hv => ⟨t.mild_semaphore h v hv, rfl⟩⟩
    cases x with
    | unset => exact ⟨rfl, live hx⟩
    | signaled => exact ⟨rfl, live hx⟩
    | wait => exact ⟨rfl, rfl⟩
  · obtain ⟨rfl, waits⟩ := hu
    refine (Track.ends_forM_check (fun h => (u.semaphores.find? h).isSome = true)
      (fun h => ?_) s.signalSemaphores).mono (fun _ w hw => ⟨hw.1, fun h named => ?_⟩)
      fun _ _ refused => refused
    · rw [Track.ends_bind, Track.ends_query, Track.ends_ofExcept]
      refine ⟨fun x hx => ?_, fun v hv => ⟨u.mild_semaphore h v hv, rfl⟩⟩
      by_cases signaled : x = .signaled
      · rw [if_pos signaled]
        exact ⟨rfl, rfl⟩
      · rw [if_neg signaled]
        exact ⟨rfl, live hx⟩
    · unfold SubmitBatch.leaves at named
      split at named
      next signals => exact hw.2 h signals
      next => split at named
              next waiting => exact waits h waiting
              next => cases named

/-- A submission that is entered names live semaphores only. -/
theorem live_of_submitted {queue : Handle} {submits : List SubmitBatch} {fence : Option Handle}
    (answers : (submit queue submits fence).Answers t) {h : Handle} {x : Semaphore}
    (named : SubmitBatch.leave submits h = some x) : (t.queues.semaphores.find? h).isSome := by
  obtain ⟨-, -, -, a, checked⟩ := (submit_answers_iff t queue submits fence).mp answers
  have all := (Track.ends_forM_check (s := t)
    (fun s : SubmitBatch => ∀ h, (s.leaves h).isSome → (t.queues.semaphores.find? h).isSome)
    (fun s => Track.ends_within.mpr ((checkSemaphores_ends s t.queues).mono
      (fun _ _ hu => ⟨by rw [hu.1], hu.2⟩) fun _ _ hu => ⟨hu.1, by rw [hu.2]⟩)) submits)
    |>.good_of_ok checked |>.2
  clear checked answers
  induction submits with
  | nil => cases named
  | cons s submits ih =>
      rw [SubmitBatch.leave, Option.or_eq_some_iff] at named
      rcases named with later | ⟨-, now⟩
      · exact ih later fun s' hs' => all s' (List.mem_cons_of_mem _ hs')
      · exact all s List.mem_cons_self h (by rw [now]; rfl)

/-! ## What a retirement gets to -/

/-- The batches of a list that their retirement, one after another, gets to. -/
def reaches : Trackers → List Batch → List Batch
  | _, [] => []
  | t, b :: bs =>
      b :: if (retireBatch b).Answers t then reaches ((retireBatch b).on t).state bs else []

/-- The books after a queue has moved on, before its batches retire. -/
def moved (t : Trackers) (r : Retirement) : Trackers :=
  { t with queues := { t.queues with
      queues := t.queues.queues.modify r.queue (·.retired r.upTo) } }

theorem retireBatch_queues (b : Batch) (t : Trackers) :
    (retireBatch b).Ends t (fun _ u => u.queues = afterBatch t.queues b)
      fun _ u => u.queues = afterBatch t.queues b :=
  ((Settles.start rfl rfl rfl).batch b).mono (fun _ _ hu => hu.2) fun _ _ hu => hu.2.1

/-- Exactly the batches that a retirement gets to have retired, wherever it stops. -/
theorem retireAll_queues : ∀ (bs : List Batch) (t : Trackers),
    (bs.forM retireBatch).Ends t (fun _ u => u.queues = (reaches t bs).foldl afterBatch t.queues)
      fun _ u => u.queues = (reaches t bs).foldl afterBatch t.queues
  | [], _ => rfl
  | b :: bs, t => by
      have queues := (retireBatch_queues b t).state
      rw [Track.ends_forM_cons, Track.ends_iff, reaches, List.foldl_cons, ← queues]
      refine ⟨fun a ha => ?_, fun v hv => ?_⟩
      · rw [if_pos ⟨a, ha⟩]
        exact retireAll_queues bs _
      · rw [if_neg fun ⟨_, ha⟩ => nomatch hv.symm.trans ha]
        rfl

end Trackers

/-! ## Histories -/

namespace QueueEvent

variable {es : List QueueEvent} {e : QueueEvent} {h : Handle}

/-- The state that the operation leaves a semaphore in that it names, if it enters a
submission. -/
def leaves (e : QueueEvent) (h : Handle) : Option Semaphore :=
  match e.op with
  | .submit queue submits fence =>
      match ((Trackers.submit queue submits fence).on e.books).value with
      | .ok _ => SubmitBatch.leave submits h
      | .error _ => none
  | _ => none

/-- The batches that the operation gets to, if it is a retirement. -/
def reached (e : QueueEvent) : List Batch :=
  match e.op with
  | .retire r =>
      match e.before r.queue with
      | some q =>
          if q.lastRetired ≤ r.upTo ∧ r.upTo ≤ q.lastSubmitted then
            Trackers.reaches (e.books.moved r) (q.due r.upTo)
          else []
      | none => []
  | _ => []

/-- The last submission that names the semaphore waits on it, and no retirement since has
come by a batch that waits on it. -/
def Waiting (es : List QueueEvent) (h : Handle) : Prop :=
  ∃ front e back, es = front ++ e :: back ∧ e.leaves h = some .wait ∧
    ∀ x ∈ back, x.leaves h = none ∧ ∀ b ∈ x.reached, h ∉ b.waitSemaphores

theorem not_waiting_nil : ¬Waiting [] h := fun ⟨_, _, _, parts, _⟩ => by simp at parts

theorem waiting_concat : Waiting (es ++ [e]) h ↔ e.leaves h = some .wait ∨
    (e.leaves h = none ∧ ∀ b ∈ e.reached, h ∉ b.waitSemaphores) ∧ Waiting es h := by
  constructor
  · rintro ⟨front, x, back, parts, waits, since⟩
    rcases List.eq_nil_or_concat back with rfl | ⟨back, last, rfl⟩
    · obtain ⟨-, same⟩ := List.append_inj' parts rfl
      cases same
      exact .inl waits
    · rw [List.concat_eq_append] at parts since
      rw [← List.cons_append, ← List.append_assoc] at parts
      obtain ⟨rfl, same⟩ := List.append_inj' parts rfl
      cases same
      exact .inr ⟨since e (by simp), front, x, back, rfl, waits, fun y hy =>
        since y (List.mem_append_left _ hy)⟩
  · rintro (waits | ⟨rests, front, x, back, rfl, waits, since⟩)
    · exact ⟨es, e, [], rfl, waits, by simp⟩
    · refine ⟨front, x, back ++ [e], by simp, waits, fun y hy => ?_⟩
      rcases List.mem_append.mp hy with hy | hy
      · exact since y hy
      · rw [List.mem_singleton.mp hy]
        exact rests

/-- What an operation makes of a semaphore that is in the state of a wait afterwards. -/
def Waits (e : QueueEvent) (h : Handle) : Prop :=
  e.outcome.semaphores.find? h = some .wait ↔ e.leaves h = some .wait ∨
    (e.leaves h = none ∧ ∀ b ∈ e.reached, h ∉ b.waitSemaphores) ∧
      e.books.queues.semaphores.find? h = some .wait

/-- An operation that neither submits nor retires. -/
theorem waits_of_quiet (leaves : e.leaves h = none) (reached : e.reached = [])
    (same : e.outcome.semaphores.find? h = some .wait ↔
      e.books.queues.semaphores.find? h = some .wait) : e.Waits h := by
  unfold Waits
  rw [same, leaves, reached]
  simp

theorem waits_of_confined {x : Track QueueTracker Unit} (run : e.op.run = Trackers.onQueues x)
    (leaves : e.leaves h = none) (reached : e.reached = [])
    (hx : x.Confined QueueTracker.SameSemaphores) : e.Waits h := by
  have same : e.outcome.semaphores = e.books.queues.semaphores := by
    rw [outcome, run]
    exact hx.state e.books.queues
  exact waits_of_quiet leaves reached (by rw [same])

theorem waits_of_createSemaphore (semaphore : Handle) (he : e.op = .createSemaphore semaphore) :
    e.Waits h := by
  refine waits_of_quiet (by simp [leaves, he]) (by simp [reached, he]) ?_
  have outcome : e.outcome = ((QueueTracker.createSemaphore semaphore).on e.books.queues).state := by
    rw [outcome, he]
    rfl
  refine Track.Ends.state (P := fun u : QueueTracker => e.outcome = u → _) ?_ outcome
  unfold QueueTracker.createSemaphore
  rw [Track.ends_update_bind]
  refine ⟨fun r hr same => ?_, fun _ _ same => by rw [same]⟩
  obtain ⟨-, -, new, -⟩ := Registry.register_eq_ok_iff.mp hr
  rw [same, Registry.find?_register hr]
  by_cases here : h = semaphore
  · simp [here, new]
  · rw [if_neg here]

theorem waits_of_destroySemaphore (semaphore : Handle) (he : e.op = .destroySemaphore semaphore) :
    e.Waits h := by
  refine waits_of_quiet (by simp [leaves, he]) (by simp [reached, he]) ?_
  have outcome :
      e.outcome = ((QueueTracker.destroySemaphore semaphore).on e.books.queues).state := by
    rw [outcome, he]
    rfl
  refine Track.Ends.state (P := fun u : QueueTracker => e.outcome = u → _) ?_ outcome
  unfold QueueTracker.destroySemaphore
  rw [Track.ends_bind, Track.ends_query, Track.ends_ofExcept]
  refine ⟨fun x hx => ?_, fun _ _ same => by rw [same]⟩
  by_cases waits : x = .wait
  · simp only [if_pos waits, Track.ends_bind, Track.ends_throw]
    exact fun same => by rw [same]
  · simp only [if_neg waits]
    rw [Track.ends_update_bind]
    refine ⟨fun struck hr same => ?_, fun _ _ same => by rw [same]⟩
    obtain ⟨y, r⟩ := struck
    rw [same, Registry.find?_unregister hr]
    by_cases here : h = semaphore
    · rw [here, Registry.lookup_eq_ok_iff.mp hx]
      simp [waits]
    · rw [if_neg here]

theorem waits_of_submit (queue : Handle) (submits : List SubmitBatch) (fence : Option Handle)
    (he : e.op = .submit queue submits fence) : e.Waits h := by
  have hx := outcome_of_discard (e := e) (x := Trackers.submit queue submits fence)
    (by rw [he]; rfl)
  have reached : e.reached = [] := by simp [reached, he]
  cases ha : ((Trackers.submit queue submits fence).on e.books).value with
  | error v =>
      have refused := (Trackers.submit_ends e.books queue submits fence).bad_of_error ha
      exact waits_of_quiet (by simp [leaves, he, ha]) reached (by rw [hx, refused.2])
  | ok s =>
      obtain ⟨q, -, -, -, entered, -⟩ :=
        (Trackers.submit_ends e.books queue submits fence).good_of_ok ha
      have leaves : e.leaves h = SubmitBatch.leave submits h := by simp [leaves, he, ha]
      have after : e.outcome.semaphores.find? h =
          (e.books.queues.semaphores.find? h).map (e.leaves h).getD := by
        rw [hx, entered, leaves]
        exact QueueTracker.find?_afterSubmits h submits e.books.queues.semaphores
      have live : ∀ x, e.leaves h = some x → (e.books.queues.semaphores.find? h).isSome :=
        fun x hx => Trackers.live_of_submitted ⟨s, ha⟩ (leaves ▸ hx)
      unfold Waits
      rw [after, reached]
      cases named : e.leaves h with
      | none => simp
      | some x =>
          obtain ⟨y, hy⟩ := Option.isSome_iff_exists.mp (live x named)
          simp [hy]

theorem reached_of_refused {r : Retirement} (he : e.op = .retire r)
    (out : ∀ q, e.before r.queue = some q →
      ¬(q.lastRetired ≤ r.upTo ∧ r.upTo ≤ q.lastSubmitted)) : e.reached = [] := by
  unfold reached
  rw [he]
  cases found : e.before r.queue with
  | none => simp [found]
  | some q => simp only [found, if_neg (out q found)]

theorem reached_of_range {r : Retirement} {q : Queue} (he : e.op = .retire r)
    (found : e.before r.queue = some q)
    (range : q.lastRetired ≤ r.upTo ∧ r.upTo ≤ q.lastSubmitted) :
    e.reached = Trackers.reaches (e.books.moved r) (q.due r.upTo) := by
  unfold reached
  rw [he]
  simp only [found, if_pos range]

/-- A retirement does to semaphores what the batches do that it gets to. -/
theorem semaphores_of_retire {r : Retirement} (he : e.op = .retire r) :
    e.outcome.semaphores = (e.reached.foldl afterBatch (e.books.moved r).queues).semaphores := by
  have hx := outcome_of_discard (e := e) (x := Trackers.retireUpTo r) (by rw [he]; rfl)
  refine Track.Ends.state (P := fun u : Trackers => e.outcome = u.queues → _) ?_ hx
  unfold Trackers.retireUpTo
  rw [Track.ends_bind, Track.ends_query, Track.ends_ofExcept]
  refine ⟨fun q hq => ?_, fun v hv same => ?_⟩
  · rw [QueueTracker.queue_eq_ok_iff] at hq
    rw [Track.ends_bind, Track.ends_ofExcept]
    refine ⟨fun _ hr => ?_, fun v hv same => ?_⟩
    · rw [reached_of_range he hq (Trackers.checkRetirement_eq_ok_iff.mp hr)]
      rw [Track.ends_bind, Track.ends_modify, Track.ends_bind]
      refine (Trackers.retireAll_queues (q.due r.upTo) (e.books.moved r)).mono
        (fun _ u hu => ?_) fun _ u hu same => by rw [same, hu]
      rw [← hu]
      split
      · exact congrArg QueueTracker.semaphores
      · exact congrArg QueueTracker.semaphores
    · rw [reached_of_refused he fun q' hq' range => ?_, same]
      · rfl
      · cases hq.symm.trans hq'
        have passes : Trackers.checkRetirement q r = .ok () :=
          Trackers.checkRetirement_eq_ok_iff.mpr range
        cases hv.symm.trans passes
  · rw [reached_of_refused he fun q hq _ => ?_, same]
    · rfl
    · cases hv.symm.trans (QueueTracker.queue_eq_ok_iff.mpr hq)

theorem waits_of_retire (r : Retirement) (he : e.op = .retire r) : e.Waits h := by
  have leaves : e.leaves h = none := by simp [leaves, he]
  unfold Waits
  rw [semaphores_of_retire he, QueueTracker.find?_afterBatches, leaves]
  by_cases comes : ∃ b ∈ e.reached, h ∈ b.waitSemaphores
  · have not : ¬∀ b ∈ e.reached, h ∉ b.waitSemaphores := fun all =>
      comes.elim fun b hb => all b hb.1 hb.2
    rw [if_pos comes]
    simp only [QueueTracker.map_afterRetirement_ne_wait, not, and_false, false_and, or_false,
      reduceCtorEq]
  · have all : ∀ b ∈ e.reached, h ∉ b.waitSemaphores := fun b hb waits => comes ⟨b, hb, waits⟩
    rw [if_neg comes]
    exact ⟨fun wait => .inr ⟨⟨rfl, all⟩, wait⟩, fun or => (or.resolve_left nofun).2⟩

/-- Every operation makes of a semaphore what its submission or its retirement says. -/
theorem waits (e : QueueEvent) (h : Handle) : e.Waits h := by
  cases he : e.op with
  | addQueue queue =>
      refine waits_of_quiet (by simp [leaves, he]) (by simp [reached, he]) ?_
      have hx : e.outcome = ((QueueTracker.addQueue queue).on e.books.queues).state :=
        outcome_of_discard (x := Trackers.onQueues (QueueTracker.addQueue queue)) (by rw [he]; rfl)
      rw [hx, show _ = e.books.queues.semaphores from
        (QueueTracker.addQueue_sameSemaphores queue).state e.books.queues]
  | createFence fence signaled =>
      exact waits_of_confined (by rw [he]; rfl) (by simp [leaves, he]) (by simp [reached, he])
        (QueueTracker.createFence_sameSemaphores fence signaled)
  | destroyFence fence =>
      exact waits_of_confined (by rw [he]; rfl) (by simp [leaves, he]) (by simp [reached, he])
        (QueueTracker.destroyFence_sameSemaphores fence)
  | resetFences fences =>
      exact waits_of_confined (by rw [he]; rfl) (by simp [leaves, he]) (by simp [reached, he])
        (QueueTracker.resetFences_sameSemaphores fences)
  | createSemaphore semaphore => exact waits_of_createSemaphore semaphore he
  | destroySemaphore semaphore => exact waits_of_destroySemaphore semaphore he
  | submit queue submits fence => exact waits_of_submit queue submits fence he
  | retire r => exact waits_of_retire r he

/-- A semaphore is in the state of a wait exactly if its history says that it is. -/
theorem History.wait_iff {t : QueueTracker} (history : History es t) (h : Handle) :
    t.semaphores.find? h = some .wait ↔ Waiting es h := by
  induction history with
  | start => simp [QueueTracker.empty, not_waiting_nil]
  | @step es e _ ih =>
      rw [waiting_concat, ← ih]
      exact e.waits h

end QueueEvent

/-! ## Destroying a semaphore -/

namespace QueueTracker

open QueueEvent (History Waiting)

variable {t : QueueTracker} {h : Handle}

/-- The semaphore is kept from being destroyed because a queue waits on it: it is refused,
and nothing changes. -/
def Withheld (t : QueueTracker) (h : Handle) : Prop :=
  ((destroySemaphore h).on t).value =
      .error (.invalidState h "destroyed while a queue is waiting on it") ∧
    ((destroySemaphore h).on t).state = t ∧ t.semaphores.contains h = true

theorem withheld_iff (t : QueueTracker) (h : Handle) :
    t.Withheld h ↔ t.semaphores.find? h = some .wait := by
  constructor
  · rintro ⟨refused, -, live⟩
    rw [Registry.contains_eq_isSome] at live
    obtain ⟨x, hx⟩ := Option.isSome_iff_exists.mp live
    rw [hx]
    by_cases waits : x = .wait
    · rw [waits]
    · -- Otherwise the semaphore is struck out, which answers.
      unfold destroySemaphore at refused
      have found : t.semaphore h = .ok x := Registry.lookup_eq_ok_iff.mpr hx
      have struck : t.semaphores.unregister h = .ok (x, ⟨t.semaphores.records.erase h.raw⟩) :=
        Registry.unregister_eq_ok_iff.mpr ⟨hx, rfl⟩
      rw [Track.on_bind_of_ok (by rw [Track.on_query, found])] at refused
      simp only [if_neg waits] at refused
      rw [Track.on_update_of_ok (by rw [struck]; rfl)] at refused
      cases refused
  · intro wait
    have found : t.semaphore h = .ok .wait := Registry.lookup_eq_ok_iff.mpr wait
    unfold Withheld destroySemaphore
    rw [Track.on_bind_of_ok (by rw [Track.on_query, found]), Registry.contains_eq_isSome, wait]
    exact ⟨rfl, rfl, rfl⟩

/-- A semaphore cannot be destroyed exactly while the last submission that names it waits
on it, and no retirement has come by a batch that waits on it since. -/
theorem withheld_iff_waiting {es : List QueueEvent} (history : History es t) (h : Handle) :
    t.Withheld h ↔ Waiting es h :=
  (withheld_iff t h).trans (history.wait_iff h)

/-- A semaphore is signaled on one queue and waited on by another; then the first queue
retires. -/
def handedOver : List QueueOperation :=
  [.addQueue ⟨1, .queue⟩, .addQueue ⟨2, .queue⟩, .createSemaphore ⟨3, .semaphore⟩,
   .submit ⟨1, .queue⟩ [{ signalSemaphores := [⟨3, .semaphore⟩] }] none,
   .submit ⟨2, .queue⟩ [{ waitSemaphores := [⟨3, .semaphore⟩] }] none,
   .retire ⟨⟨1, .queue⟩, 1⟩]

/-- The second queue still waits on it, and it cannot be destroyed. -/
theorem withheld_of_handedOver :
    (QueueOperation.after .empty handedOver).queues.Withheld ⟨3, .semaphore⟩ ∧
      Waiting (QueueEvent.along .empty handedOver) ⟨3, .semaphore⟩ := by
  have history : History (QueueEvent.along .empty handedOver)
      (QueueOperation.after .empty handedOver).queues := History.start.along (t := .empty) handedOver
  have wait : (QueueOperation.after .empty handedOver).queues.semaphores.find? ⟨3, .semaphore⟩ =
      some .wait := by decide +kernel
  have waiting := (history.wait_iff _).mp wait
  exact ⟨(withheld_iff_waiting history ⟨3, .semaphore⟩).mpr waiting, waiting⟩

/-- The semaphore is signaled once more while the second queue waits on it. -/
def signaledOver : List QueueOperation :=
  handedOver ++ [.submit ⟨1, .queue⟩ [{ signalSemaphores := [⟨3, .semaphore⟩] }] none]

/-- Then it can be destroyed, although the work that waits on it has not retired. -/
theorem destroyed_of_signaledOver :
    ∃ q ∈ (QueueOperation.after .empty signaledOver).queues.queues.find? ⟨2, .queue⟩,
      (∃ b ∈ q.inFlight, ⟨3, .semaphore⟩ ∈ b.waitSemaphores) ∧
      History (QueueEvent.along .empty signaledOver)
        (QueueOperation.after .empty signaledOver).queues ∧
      (destroySemaphore ⟨3, .semaphore⟩).Answers
        (QueueOperation.after .empty signaledOver).queues ∧
      ((destroySemaphore ⟨3, .semaphore⟩).on
        (QueueOperation.after .empty signaledOver).queues).state.semaphores.contains
          ⟨3, .semaphore⟩ = false := by
  have history : History (QueueEvent.along .empty signaledOver)
      (QueueOperation.after .empty signaledOver).queues :=
    History.start.along (t := .empty) signaledOver
  have found : ∃ q ∈ (QueueOperation.after .empty signaledOver).queues.queues.find? ⟨2, .queue⟩,
      (∃ b ∈ q.inFlight, ⟨3, .semaphore⟩ ∈ b.waitSemaphores) ∧
      (destroySemaphore ⟨3, .semaphore⟩).Answers
        (QueueOperation.after .empty signaledOver).queues ∧
      ((destroySemaphore ⟨3, .semaphore⟩).on
        (QueueOperation.after .empty signaledOver).queues).state.semaphores.contains
          ⟨3, .semaphore⟩ = false := by decide +kernel
  obtain ⟨q, hq, waited, answers, gone⟩ := found
  exact ⟨q, hq, waited, history, answers, gone⟩

end QueueTracker

end GpuAudit
