import GpuAudit.Proofs.Moves
import GpuAudit.Proofs.Recycling

/-!
# Fences guard submissions

A fence in use records the queue and the number of its submission, and a batch in
flight records the fence that its retirement signals.  `Guarded` says that the two
records agree, and `Prompt` that no fence is in use by a submission that has retired.

A retirement looks for fences by number only, not by queue.  It finds the right ones,
since a fence is carried by one batch in flight at most.

Every move keeps both properties.  A retirement that stops half way leaves fences in
use that nothing will signal any more: it keeps `Guarded` only.
-/

namespace GpuAudit

open Trackers (afterBatch enterBatch)

/-! ## What a retirement does to fences -/

namespace Fence

/-- The fence is in use by a submission with this number, on any queue. -/
def Awaits (s : Nat) (x : Fence) : Prop := x.retirement?.map (·.upTo) = some s

instance (s : Nat) (x : Fence) : Decidable (x.Awaits s) := inferInstanceAs (Decidable (_ = _))

theorem awaits_inUse {s n : Nat} {queue : Handle} : (inUse queue n).Awaits s ↔ n = s := by
  simp [Awaits, retirement?]

theorem afterRetirement_eq (s : Nat) (x : Fence) :
    x.afterRetirement s = if x.Awaits s then signaled else x := by
  cases x with
  | unsignaled => rfl
  | signaled => rfl
  | inUse queue n => simp [afterRetirement, awaits_inUse]

/-- One of several batches that retire signals the fence. -/
def Released (bs : List Batch) (g : Handle) (x : Fence) : Prop :=
  ∃ b ∈ bs, b.fence = some g ∧ x.Awaits b.sequence

instance (bs : List Batch) (g : Handle) (x : Fence) : Decidable (x.Released bs g) :=
  inferInstanceAs (Decidable (∃ _, _))

theorem released_cons {b : Batch} {bs : List Batch} {g : Handle} {x : Fence} :
    x.Released (b :: bs) g ↔ (b.fence = some g ∧ x.Awaits b.sequence) ∨ x.Released bs g := by
  simp [Released]

theorem not_released_signaled {bs : List Batch} {g : Handle} : ¬signaled.Released bs g :=
  fun ⟨_, _, _, h⟩ => nomatch h

end Fence

namespace QueueTracker

variable {t : QueueTracker} {queue queue' f : Handle} {b b' : Batch} {q : Queue} {s : Nat}

theorem fences_afterBatch (t : QueueTracker) (b : Batch) (g : Handle) :
    (afterBatch t b).fences.find? g =
      if b.fence = some g then (t.fences.find? g).map (Fence.afterRetirement b.sequence)
      else t.fences.find? g := by
  unfold afterBatch
  cases b.fence with
  | none => rfl
  | some f => simp [eq_comm]

/-- A fence is signaled if one of the batches signals it, and as it was if not. -/
theorem fences_afterBatches (g : Handle) : ∀ (bs : List Batch) (t : QueueTracker),
    (bs.foldl afterBatch t).fences.find? g =
      (t.fences.find? g).map fun x => if x.Released bs g then .signaled else x
  | [], t => by simp [Fence.Released]
  | b :: bs, t => by
      rw [List.foldl_cons, fences_afterBatches g bs, fences_afterBatch]
      simp only [Fence.released_cons]
      cases t.fences.find? g with
      | none => simp
      | some x =>
          by_cases carries : b.fence = some g
          · by_cases due : x.Awaits b.sequence
            · simp [carries, due, Fence.afterRetirement_eq, Fence.not_released_signaled]
            · simp [carries, due, Fence.afterRetirement_eq]
          · simp [carries]

theorem queues_afterBatches : ∀ (bs : List Batch) (t : QueueTracker),
    (bs.foldl afterBatch t).queues = t.queues
  | [], _ => rfl
  | b :: bs, t => queues_afterBatches bs (afterBatch t b)

theorem fences_passed (t : QueueTracker) (r : Retirement) (bs : List Batch) (g : Handle) :
    (t.passed r bs).fences.find? g =
      (t.fences.find? g).map fun x => if x.Released bs g then .signaled else x :=
  fences_afterBatches g bs _

theorem queues_passed (t : QueueTracker) (r : Retirement) (bs : List Batch) :
    (t.passed r bs).queues = t.queues.modify r.queue (·.retired r.upTo) :=
  queues_afterBatches bs _

/-! ## Fences and batches -/

/-- A batch in flight on a queue carries a fence. -/
def Carries (t : QueueTracker) (queue : Handle) (b : Batch) (f : Handle) : Prop :=
  ∃ q, t.queues.find? queue = some q ∧ b ∈ q.inFlight ∧ b.fence = some f

/-- A fence is carried by work in flight. -/
def Carried (t : QueueTracker) (f : Handle) : Prop := ∃ queue b, t.Carries queue b f

/-- Fences and batches agree. -/
structure Guarded (t : QueueTracker) : Prop where
  /-- Every queue has its work in order. -/
  kept : t.Kept
  /-- A fence that a batch in flight carries is in use by it. -/
  carried : ∀ {queue b f}, t.Carries queue b f → t.fences.find? f = some (.inUse queue b.sequence)
  /-- A fence in use was given with a submission, and its batch carries it until it retires. -/
  submitted : ∀ {f queue s}, t.fences.find? f = some (.inUse queue s) →
    ∃ q, t.queues.find? queue = some q ∧ s ≤ q.lastSubmitted ∧
      (q.lastRetired < s → ∃ b ∈ q.inFlight, b.sequence = s ∧ b.fence = some f)

/-- No fence is in use by a submission that has retired. -/
def Prompt (t : QueueTracker) : Prop :=
  ∀ {f queue s q}, t.fences.find? f = some (.inUse queue s) → t.queues.find? queue = some q →
    q.lastRetired < s

theorem guarded_empty : empty.Guarded where
  kept := kept_empty
  carried := fun ⟨q, hq, _⟩ => by simp [empty] at hq
  submitted hf := by simp [empty] at hf

theorem prompt_empty : empty.Prompt := fun hf => by simp [empty] at hf

/-- A fence is carried by one batch. -/
theorem Guarded.unique (h : t.Guarded) (hb : t.Carries queue b f) (hb' : t.Carries queue' b' f) :
    queue' = queue ∧ b' = b := by
  have same := h.carried hb
  rw [h.carried hb'] at same
  injection same with same
  injection same with here number
  subst here
  obtain ⟨q, hq, old, -⟩ := hb
  obtain ⟨q', hq', old', -⟩ := hb'
  rw [hq] at hq'
  cases hq'
  exact ⟨rfl, (h.kept _ q hq).eq_of_sequence old' old number⟩

/-- The submission of a fence that is carried has not retired. -/
theorem Guarded.unretired (h : t.Guarded) (hb : t.Carries queue b f) :
    ∃ q, t.queues.find? queue = some q ∧ q.lastRetired < b.sequence := by
  obtain ⟨q, hq, old, -⟩ := hb
  exact ⟨q, hq, ((h.kept queue q hq).sequence old).1⟩

/-- A fence is in use by work that has not retired exactly if a batch carries it. -/
theorem Guarded.carried_iff (h : t.Guarded) : t.Carried f ↔
    ∃ queue s q, t.fences.find? f = some (.inUse queue s) ∧ t.queues.find? queue = some q ∧
      q.lastRetired < s := by
  constructor
  · rintro ⟨queue, b, hb⟩
    obtain ⟨q, hq, later⟩ := h.unretired hb
    exact ⟨queue, b.sequence, q, h.carried hb, hq, later⟩
  · rintro ⟨queue, s, q, hf, hq, later⟩
    obtain ⟨q', hq', -, batch⟩ := h.submitted hf
    rw [hq] at hq'
    cases hq'
    obtain ⟨b, hb, -, carries⟩ := batch later
    exact ⟨queue, b, q, hq, hb, carries⟩

/-! ## What a call asks of a fence -/

theorem fenceInFlight_eq_ok_iff {busy : Bool} : t.fenceInFlight f = .ok busy ↔
    ∃ x, t.fences.find? f = some x ∧ ((∃ queue s q, x = .inUse queue s ∧
      t.queues.find? queue = some q ∧ busy = !q.isRetired s) ∨ x.retirement? = none ∧ busy = false) := by
  unfold fenceInFlight
  rw [bind_eq_ok_iff]
  refine exists_congr fun x => and_congr fence_eq_ok_iff ?_
  cases x with
  | unsignaled => simp [Fence.retirement?, pure, Except.pure, eq_comm]
  | signaled => simp [Fence.retirement?, pure, Except.pure, eq_comm]
  | inUse queue s =>
      simp only [bind_eq_ok_iff, queue_eq_ok_iff, Fence.retirement?]
      simp [pure, Except.pure, eq_comm]

/-- A fence is signaled as soon as its queue has retired its submission. -/
theorem fenceStatus_eq_true_iff : t.fenceStatus f = .ok true ↔
    t.fences.find? f = some .signaled ∨ ∃ queue s q, t.fences.find? f = some (.inUse queue s) ∧
      t.queues.find? queue = some q ∧ s ≤ q.lastRetired := by
  unfold fenceStatus
  rw [bind_eq_ok_iff]
  simp only [fence_eq_ok_iff]
  cases hf : t.fences.find? f with
  | none => simp
  | some x =>
      cases x with
      | unsignaled => simp [pure, Except.pure]
      | signaled => simp [pure, Except.pure]
      | inUse queue s =>
          simp only [Option.some.injEq, exists_eq_left', bind_eq_ok_iff, queue_eq_ok_iff]
          simp [pure, Except.pure, Queue.isRetired]

/-- A live fence is asked for, and it is busy exactly if a batch carries it. -/
theorem Guarded.fenceInFlight (h : t.Guarded) {x : Fence} (hf : t.fences.find? f = some x) :
    t.fenceInFlight f = .ok true ∧ t.Carried f ∨ t.fenceInFlight f = .ok false ∧ ¬t.Carried f := by
  cases x with
  | unsignaled | signaled =>
      refine .inr ⟨fenceInFlight_eq_ok_iff.mpr ⟨_, hf, .inr ⟨rfl, rfl⟩⟩, fun carried => ?_⟩
      obtain ⟨queue, s, q, hf', -⟩ := h.carried_iff.mp carried
      rw [hf] at hf'
      cases hf'
  | inUse queue s =>
      obtain ⟨q, hq, -, -⟩ := h.submitted hf
      have answer := fenceInFlight_eq_ok_iff.mpr ⟨_, hf, .inl ⟨queue, s, q, rfl, hq, rfl⟩⟩
      by_cases done : s ≤ q.lastRetired
      · refine .inr ⟨by simpa [Queue.isRetired, done] using answer, fun carried => ?_⟩
        obtain ⟨queue', s', q', hf', hq', later⟩ := h.carried_iff.mp carried
        rw [hf] at hf'
        cases hf'
        rw [hq] at hq'
        cases hq'
        omega
      · refine .inl ⟨by simpa [Queue.isRetired, done] using answer, ?_⟩
        exact h.carried_iff.mpr ⟨queue, s, q, hf, hq, by omega⟩

theorem Guarded.free_iff (h : t.Guarded) {x : Fence} (hf : t.fences.find? f = some x) :
    t.fenceInFlight f = .ok false ↔ ¬t.Carried f := by
  rcases h.fenceInFlight hf with ⟨busy, carried⟩ | ⟨free, idle⟩
  · simp [busy, carried]
  · simp [free, idle]

theorem Guarded.checkFenceSubmittable_iff (h : t.Guarded) {x : Fence}
    (hf : t.fences.find? f = some x) {u : Unit} :
    t.checkFenceSubmittable f = .ok u ↔ ¬t.Carried f ∧ x ≠ .signaled := by
  unfold checkFenceSubmittable
  rw [fence_eq_ok_iff.mpr hf]
  rcases h.fenceInFlight hf with ⟨busy, carried⟩ | ⟨free, idle⟩
  · simp [busy, carried, bind, Except.bind]
  · by_cases signaled : x = .signaled <;> simp [free, idle, signaled, bind, Except.bind]

/-- A fence that may be given with a submission is live and free. -/
theorem Guarded.free_of_submittable (h : t.Guarded) {u : Unit}
    (hu : t.checkFenceSubmittable f = .ok u) :
    (∃ x, t.fences.find? f = some x) ∧ ¬t.Carried f := by
  obtain ⟨x, hx, -⟩ := bind_eq_ok_iff.mp hu
  rw [fence_eq_ok_iff] at hx
  exact ⟨⟨x, hx⟩, ((h.checkFenceSubmittable_iff hx).mp hu).1⟩

/-! ## Steps -/

/-- A queue may be entered. -/
theorem Guarded.queueMade (h : t.Guarded) {u : QueueTracker} (fences : u.fences = t.fences)
    (new : t.queues.find? queue = none)
    (view : ∀ g, u.queues.find? g = if g = queue then some .idle else t.queues.find? g) :
    u.Guarded := by
  have old : ∀ g q, t.queues.find? g = some q → u.queues.find? g = some q := fun g q hq => by
    rw [view, if_neg fun he => ?_]
    · exact hq
    · rw [he, new] at hq
      cases hq
  constructor
  case kept =>
    intro g q hq
    rw [view] at hq
    split at hq
    · cases hq
      exact Queue.kept_idle
    · exact h.kept g q hq
  case carried =>
    rintro g b f ⟨q, hq, hb, carries⟩
    rw [view] at hq
    rw [fences]
    split at hq
    · cases hq
      cases hb
    · exact h.carried ⟨q, hq, hb, carries⟩
  case submitted =>
    intro f g s hf
    rw [fences] at hf
    obtain ⟨q, hq, rest⟩ := h.submitted hf
    exact ⟨q, old g q hq, rest⟩

/-- Fences that no batch carries may change, if none gets in use. -/
theorem Guarded.refenced (h : t.Guarded) {u : QueueTracker} (queues : u.queues = t.queues)
    (view : ∀ g, u.fences.find? g = t.fences.find? g ∨
      ¬t.Carried g ∧ ∀ queue s, u.fences.find? g ≠ some (.inUse queue s)) : u.Guarded := by
  constructor
  case kept =>
    unfold Kept
    rw [queues]
    exact h.kept
  case carried =>
    rintro queue b f ⟨q, hq, hb, carries⟩
    rw [queues] at hq
    have carries : t.Carries queue b f := ⟨q, hq, hb, carries⟩
    rcases view f with same | ⟨free, -⟩
    · exact same.trans (h.carried carries)
    · exact absurd ⟨queue, b, carries⟩ free
  case submitted =>
    intro f queue s hf
    rw [queues]
    rcases view f with same | ⟨-, unused⟩
    · exact h.submitted (same.symm.trans hf)
    · exact absurd hf (unused queue s)

theorem fences_enterBatch (t : QueueTracker) (queue : Handle) (submits : List SubmitBatch)
    (b : Batch) (g : Handle) : (enterBatch t queue submits b).fences.find? g =
      if b.fence = some g then (t.fences.find? g).map fun _ => .inUse queue b.sequence
      else t.fences.find? g := by
  unfold enterBatch
  cases b.fence with
  | none => rfl
  | some f => simp [eq_comm]

/-- A batch may be submitted with a fence that no batch carries. -/
theorem Guarded.entered (h : t.Guarded) (hq : t.queues.find? queue = some q)
    (submits : List SubmitBatch) (hb : b.sequence = q.lastSubmitted + 1)
    (free : ∀ f ∈ b.fence, (∃ x, t.fences.find? f = some x) ∧ ¬t.Carried f) :
    (enterBatch t queue submits b).Guarded := by
  constructor
  case kept =>
    intro g q' hq'
    rcases Registry.found_after_modify hq hq' with ⟨-, rfl⟩ | ⟨-, hq'⟩
    · exact (h.kept queue q hq).push hb
    · exact h.kept g q' hq'
  case carried =>
    rintro g b' f ⟨q', hq', hb', carries⟩
    have old : t.Carries g b' f → (enterBatch t queue submits b).fences.find? f =
        some (.inUse g b'.sequence) := fun carries => by
      rw [fences_enterBatch, if_neg fun given : b.fence = some f => (free f given).2 ⟨g, b', carries⟩]
      exact h.carried carries
    rcases Registry.found_after_modify hq hq' with ⟨rfl, rfl⟩ | ⟨-, hq'⟩
    · rcases List.mem_append.mp hb' with flying | new
      · exact old ⟨q, hq, flying, carries⟩
      · rw [List.mem_singleton.mp new] at carries ⊢
        obtain ⟨x, hx⟩ := (free f carries).1
        rw [fences_enterBatch, if_pos carries, hx, Option.map_some]
    · exact old ⟨q', hq', hb', carries⟩
  case submitted =>
    intro f g s hf
    have view : ∀ g, (enterBatch t queue submits b).queues.find? g =
        if g = queue then (t.queues.find? g).map (·.push b) else t.queues.find? g :=
      fun g => Registry.find?_modify ..
    rw [fences_enterBatch] at hf
    split at hf
    next given =>
      obtain ⟨x, hx⟩ := (free f given).1
      rw [hx, Option.map_some, Option.some.injEq] at hf
      injection hf with here number
      subst here number
      refine ⟨q.push b, by rw [view, if_pos rfl, hq, Option.map_some], Nat.le_refl _, fun _ => ?_⟩
      exact ⟨b, List.mem_append_right _ (List.mem_singleton_self b), rfl, given⟩
    next =>
      obtain ⟨q', hq', early, batch⟩ := h.submitted hf
      rw [view]
      split
      next here =>
        subst here
        rw [hq] at hq'
        cases hq'
        refine ⟨q.push b, by rw [hq, Option.map_some], ?_, fun later => ?_⟩
        · show s ≤ b.sequence
          omega
        · obtain ⟨b', hb', rest⟩ := batch later
          exact ⟨b', List.mem_append_left _ hb', rest⟩
      next => exact ⟨q', hq', early, batch⟩

theorem Guarded.prompt_entered (h : t.Guarded) (prompt : t.Prompt)
    (hq : t.queues.find? queue = some q) (submits : List SubmitBatch)
    (hb : b.sequence = q.lastSubmitted + 1)
    (free : ∀ f ∈ b.fence, (∃ x, t.fences.find? f = some x) ∧ ¬t.Carried f) :
    (enterBatch t queue submits b).Prompt := by
  intro f g s q' hf hq'
  rw [fences_enterBatch] at hf
  rcases Registry.found_after_modify hq hq' with ⟨rfl, rfl⟩ | ⟨away, hq'⟩
  · split at hf
    next given =>
      obtain ⟨x, hx⟩ := (free f given).1
      rw [hx, Option.map_some, Option.some.injEq] at hf
      injection hf with here number
      have := (h.kept g q hq).inRange
      show q.lastRetired < s
      omega
    next =>
      show q.lastRetired < s
      exact prompt hf hq
  · split at hf
    next given =>
      obtain ⟨x, hx⟩ := (free f given).1
      rw [hx, Option.map_some, Option.some.injEq] at hf
      injection hf with here number
      exact absurd here.symm away
    next => exact prompt hf hq'

section Passed

variable {r : Retirement}

/-- What a retirement makes of a queue. -/
theorem found_passed (hq : t.queues.find? r.queue = some q) {bs : List Batch} {g : Handle}
    {q' : Queue} (hq' : (t.passed r bs).queues.find? g = some q') :
    g = r.queue ∧ q' = q.retired r.upTo ∨ g ≠ r.queue ∧ t.queues.find? g = some q' := by
  rw [queues_passed] at hq'
  exact Registry.found_after_modify hq hq'

/-- A fence that a batch carries which is not due is not signaled. -/
theorem Guarded.not_released (h : t.Guarded) (hq : t.queues.find? r.queue = some q)
    {front : List Batch} (due : ∀ b ∈ front, b ∈ q.due r.upTo) (hb : t.Carries queue b f)
    (later : queue = r.queue → r.upTo < b.sequence) :
    ¬(Fence.inUse queue b.sequence).Released front f := by
  rintro ⟨b', hb', carries, number⟩
  have early := Queue.mem_due (due b' hb')
  have here := (h.unique hb ⟨q, hq, early.1, carries⟩).1
  have := later here.symm
  rw [Fence.awaits_inUse] at number
  omega

/-- A retirement may stop after any of the batches that are due. -/
theorem Guarded.passed (h : t.Guarded) (hq : t.queues.find? r.queue = some q)
    (range : q.lastRetired ≤ r.upTo ∧ r.upTo ≤ q.lastSubmitted) {front : List Batch}
    (due : ∀ b ∈ front, b ∈ q.due r.upTo) : (t.passed r front).Guarded := by
  have kept := h.kept r.queue q hq
  constructor
  case kept =>
    intro g q' hq'
    rcases found_passed hq hq' with ⟨-, rfl⟩ | ⟨-, hq'⟩
    · exact kept.retired range.1 range.2
    · exact h.kept g q' hq'
  case carried =>
    rintro g b f ⟨q', hq', hb, carries⟩
    rw [fences_passed]
    rcases found_passed hq hq' with ⟨rfl, rfl⟩ | ⟨away, hq'⟩
    · obtain ⟨flying, later⟩ := (kept.mem_retired_iff range).mp hb
      have old : t.Carries r.queue b f := ⟨q, hq, flying, carries⟩
      rw [h.carried old, Option.map_some, if_neg (h.not_released hq due old fun _ => later)]
    · have old : t.Carries g b f := ⟨q', hq', hb, carries⟩
      rw [h.carried old, Option.map_some,
        if_neg (h.not_released hq due old fun here => absurd here away)]
  case submitted =>
    intro f g s hf
    rw [fences_passed] at hf
    obtain ⟨x, hx, he⟩ := Option.map_eq_some_iff.mp hf
    split at he
    · cases he
    subst he
    obtain ⟨q', hq', early, batch⟩ := h.submitted hx
    rw [queues_passed, Registry.find?_modify]
    split
    next here =>
      subst here
      rw [hq] at hq'
      cases hq'
      refine ⟨q.retired r.upTo, by rw [hq, Option.map_some], early, fun later => ?_⟩
      obtain ⟨b, hb, number, carries⟩ := batch (Nat.lt_of_le_of_lt range.1 later)
      exact ⟨b, (kept.mem_retired_iff range).mpr ⟨hb, number ▸ later⟩, number, carries⟩
    next => exact ⟨q', hq', early, batch⟩

/-- A retirement that goes through signals every fence of its batches. -/
theorem Guarded.prompt_passed (h : t.Guarded) (prompt : t.Prompt)
    (hq : t.queues.find? r.queue = some q)
    (range : q.lastRetired ≤ r.upTo ∧ r.upTo ≤ q.lastSubmitted) :
    (t.passed r (q.due r.upTo)).Prompt := by
  intro f g s q' hf hq'
  rw [fences_passed] at hf
  obtain ⟨x, hx, he⟩ := Option.map_eq_some_iff.mp hf
  split at he
  · cases he
  next waits =>
    subst he
    rcases found_passed hq hq' with ⟨rfl, rfl⟩ | ⟨-, hq'⟩
    · refine Decidable.byContradiction fun done => waits ?_
      have done : s ≤ r.upTo := Nat.le_of_not_lt done
      obtain ⟨q', hq', -, batch⟩ := h.submitted hx
      rw [hq] at hq'
      cases hq'
      obtain ⟨b, hb, rfl, carries⟩ := batch (prompt hx hq)
      exact ⟨b, ((h.kept _ q hq).mem_due_iff range).mpr ⟨hb, done⟩, carries,
        Fence.awaits_inUse.mpr rfl⟩
    · exact prompt hx hq'

/-- What a retirement that goes through does to a fence. -/
theorem Guarded.fence_passed (h : t.Guarded) (hq : t.queues.find? r.queue = some q)
    (range : q.lastRetired ≤ r.upTo ∧ r.upTo ≤ q.lastSubmitted) (f : Handle) :
    (t.passed r (q.due r.upTo)).fences.find? f =
      if ∃ b ∈ q.inFlight, (q.lastRetired < b.sequence ∧ b.sequence ≤ r.upTo) ∧ b.fence = some f
      then some .signaled else t.fences.find? f := by
  have kept := h.kept _ q hq
  rw [fences_passed]
  split
  next due =>
    obtain ⟨b, hb, ⟨-, early⟩, carries⟩ := due
    have released : (Fence.inUse r.queue b.sequence).Released (q.due r.upTo) f :=
      ⟨b, (kept.mem_due_iff range).mpr ⟨hb, early⟩, carries, Fence.awaits_inUse.mpr rfl⟩
    rw [h.carried ⟨q, hq, hb, carries⟩, Option.map_some, if_pos released]
  next none =>
    cases t.fences.find? f with
    | none => rfl
    | some x =>
        rw [Option.map_some, if_neg]
        rintro ⟨b, hb, carries, -⟩
        obtain ⟨flying, early⟩ := Queue.mem_due hb
        exact none ⟨b, flying, ⟨(kept.sequence flying).1, early⟩, carries⟩

end Passed

/-! ## What a call may do to a fence -/

/-- A fence may be destroyed exactly if it is live and not busy. -/
theorem destroyFence_answers_iff : (destroyFence f).Answers t ↔ t.fenceInFlight f = .ok false := by
  refine ⟨fun ⟨_, ha⟩ => ((t.destroyFence_ends f).good_of_ok ha).1, fun free => ?_⟩
  have passes : (destroyFence f).Ends t (fun _ _ => True) fun _ _ => False := by
    unfold destroyFence
    rw [Track.ends_bind, Track.ends_query, free, Track.ends_ofExcept_ok]
    simp only [Bool.false_eq_true, if_false]
    rw [Track.ends_bind, Track.ends_update_bind]
    refine ⟨fun _ _ => trivial, fun v hv => ?_⟩
    obtain ⟨x, hx, -⟩ := bind_eq_ok_iff.mp free
    rw [Registry.unregister_eq_ok_iff.mpr ⟨fence_eq_ok_iff.mp hx, rfl⟩] at hv
    cases hv
  exact passes.answers.imp fun _ h => h.1

/-- Fences may be reset exactly if each of them is live and not busy. -/
theorem resetFences_answers_iff {fs : List Handle} :
    (resetFences fs).Answers t ↔ ∀ f ∈ fs, t.fenceInFlight f = .ok false := by
  refine ⟨fun ⟨_, ha⟩ => ((t.resetFences_ends fs).good_of_ok ha).1, fun free => ?_⟩
  have passes : (resetFences fs).Ends t (fun _ _ => True) fun _ _ => False := by
    unfold resetFences
    rw [Track.ends_bind]
    refine (Track.Ends.forM_keeps (· = t) rfl fun f hf u hu => ?_).mono (fun _ u hu => ?_)
      fun _ _ h => h
    · subst hu
      rw [Track.ends_bind, Track.ends_query, free f hf, Track.ends_ofExcept_ok]
      exact rfl
    · subst hu
      refine (unsignal_ends u fs fun f hf => ?_).mono (fun _ _ _ => trivial) fun _ _ h => h
      obtain ⟨x, hx, -⟩ := bind_eq_ok_iff.mp (free f hf)
      exact ⟨x, fence_eq_ok_iff.mp hx⟩
  exact passes.answers.imp fun _ h => h.1

/-- A live fence is refused to be destroyed exactly while a batch carries it. -/
theorem Guarded.destroyFence_refuses_iff (h : t.Guarded) {x : Fence}
    (hf : t.fences.find? f = some x) : (destroyFence f).Refuses t ↔ t.Carried f := by
  rw [(t.destroyFence_ends f).refuses_iff, destroyFence_answers_iff, h.free_iff hf, not_not]

/-- Live fences are refused to be reset exactly while a batch carries one of them. -/
theorem Guarded.resetFences_refuses_iff (h : t.Guarded) {fs : List Handle}
    (live : ∀ f ∈ fs, ∃ x, t.fences.find? f = some x) :
    (resetFences fs).Refuses t ↔ ∃ f ∈ fs, t.Carried f := by
  have free : (∀ f ∈ fs, t.fenceInFlight f = .ok false) ↔ ∀ f ∈ fs, ¬t.Carried f :=
    forall₂_congr fun f hf => (live f hf).elim fun _ hx => h.free_iff hx
  rw [(t.resetFences_ends fs).refuses_iff, resetFences_answers_iff, free]
  push Not
  exact Iff.rfl

end QueueTracker

/-! ## Books -/

namespace Trackers

variable {t u : Trackers}

/-- Every move keeps fences and batches in agreement. -/
theorem Move.guarded (m : Move t u) (h : t.queues.Guarded) : u.queues.Guarded := by
  cases m with
  | queueMade _ fences new view => exact h.queueMade fences new view
  | refenced _ queues view =>
      refine h.refenced queues fun g => (view g).imp_right fun ⟨free, unused⟩ => ⟨?_, unused⟩
      rintro ⟨queue, b, carries⟩
      have live := h.carried carries
      rcases free with gone | free
      · rw [gone] at live
        cases live
      · exact (h.free_iff live).mp free ⟨queue, b, carries⟩
  | submitted found free _ =>
      exact h.entered found _ rfl fun f hf => h.free_of_submittable (free f hf)
  | retired passes =>
      obtain ⟨q, hq, range, rfl⟩ := passes.due
      rw [passes.queues]
      exact h.passed hq range fun _ hb => hb

/-- A retirement that stops keeps fences and batches in agreement. -/
theorem Stops.guarded {r : Retirement} {v : Violation} (s : Stops t r v u)
    (h : t.queues.Guarded) : u.queues.Guarded := by
  cases s with
  | refused => exact h
  | halfway _ found range parts queues =>
      rw [queues]
      exact h.passed found range (mem_of_parts parts)

/-- No move leaves a fence in use by a submission that has retired. -/
theorem Move.prompt (m : Move t u) (h : t.queues.Guarded) (prompt : t.queues.Prompt) :
    u.queues.Prompt := by
  cases m with
  | queueMade _ fences new view =>
      intro f queue s q hf hq
      rw [fences] at hf
      rw [view] at hq
      split at hq
      next here =>
        obtain ⟨old, ho, -⟩ := h.submitted hf
        rw [here, new] at ho
        cases ho
      next => exact prompt hf hq
  | refenced _ queues view =>
      intro f queue s q hf hq
      rw [queues] at hq
      rcases view f with same | ⟨-, unused⟩
      · exact prompt (same.symm.trans hf) hq
      · exact absurd hf (unused queue s)
  | submitted found free _ =>
      exact h.prompt_entered prompt found _ rfl fun f hf => h.free_of_submittable (free f hf)
  | retired passes =>
      obtain ⟨q, hq, range, rfl⟩ := passes.due
      rw [passes.queues]
      exact h.prompt_passed prompt hq range

end Trackers

end GpuAudit
