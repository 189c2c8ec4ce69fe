import Mathlib.Data.List.Perm.Basic
import GpuAudit.Proofs.Fences

/-!
# Retirements that go through, in any order

`Ready` says when a retirement goes through, and `pass` what it then leaves: both are
read off the books.  Retirements of different queues pass in either order and leave the
same books, since each returns command buffers and signals fences that the other leaves
alone or treats alike.  So a list of retirements may be applied in any order, as long as
those of one queue agree on how far it retires.
-/

namespace GpuAudit

open Trackers (afterBatch)

/-! ## Changes that commute -/

/-- Changes of records commute that do so where they meet. -/
theorem Registry.modify_comm {kind : ObjectKind} {α : Type} (r : Registry kind α) {g h : Handle}
    {f f' : α → α} (meet : g = h → ∀ x, f' (f x) = f (f' x)) :
    (r.modify g f).modify h f' = (r.modify h f').modify g f := by
  ext1 k
  simp only [find?_modify]
  cases r.find? k with
  | none => simp
  | some x =>
      by_cases hg : k = g
      · by_cases hh : k = h
        · rw [if_pos hh, if_pos hg, if_pos hg, if_pos hh]
          simp [meet (hg.symm.trans hh)]
        · rw [if_neg hh, if_pos hg, if_neg hh, if_pos hg]
      · by_cases hh : k = h
        · rw [if_pos hh, if_neg hg, if_neg hg, if_pos hh]
        · rw [if_neg hh, if_neg hg, if_neg hg, if_neg hh]

namespace MemoryObject

theorem without_eq (c : Handle) (m : MemoryObject) : m.without c = { m with
    refCount := if c ∈ m.commandBuffers then m.refCount - 1 else m.refCount
    commandBuffers := m.commandBuffers.erase c } := by
  unfold without release
  split
  · rfl
  next none =>
    have same : m.commandBuffers.erase c = m.commandBuffers :=
      Std.ExtTreeSet.ext_mem fun g => Handle.mem_erase.trans
        ⟨fun h => h.2, fun h => ⟨fun he => none (he ▸ h), h⟩⟩
    rw [same]

theorem without_comm (c c' : Handle) (m : MemoryObject) :
    (m.without c).without c' = (m.without c').without c := by
  have sets : (m.commandBuffers.erase c).erase c' = (m.commandBuffers.erase c').erase c :=
    Std.ExtTreeSet.ext_mem fun g => by
      simp only [Handle.mem_erase]
      tauto
  simp only [without_eq, sets, Handle.mem_erase]
  by_cases same : c = c'
  · subst same
    rfl
  · by_cases hc : c ∈ m.commandBuffers <;> by_cases hc' : c' ∈ m.commandBuffers <;>
      simp [hc, hc', same, Ne.symm same]

end MemoryObject

theorem MemoryTracker.forget_comm (t : MemoryTracker) (c c' : Handle) :
    (t.forget c).forget c' = (t.forget c').forget c := by
  refine congrArg mk (Registry.ext fun g => ?_)
  show ((t.forget c).forget c').objects.find? g = ((t.forget c').forget c).objects.find? g
  simp only [find?_forget, Option.map_map]
  congr 1
  funext m
  exact m.without_comm c c'

namespace Trackers

variable (t : Trackers)

/-! ## Command buffers -/

/-- The retirement of a submission makes one of its command buffers fresh. -/
def Settling (w : Nat × Handle) : Prop :=
  (t.commands.buffers.find? w.2).any (·.Returns w.1) = true

variable {t} in
theorem settle_of_settling {w : Nat × Handle} (h : t.Settling w) :
    t.settle w = t.recycled w.2 fun b => .fresh b.pool := if_pos h

variable {t} in
theorem settle_of_not_settling {w : Nat × Handle} (h : ¬t.Settling w) : t.settle w = t := if_neg h

/-- What one submission returns another cannot return again. -/
theorem settling_settle (w w' : Nat × Handle) :
    (t.settle w).Settling w' ↔ t.Settling w' ∧ ¬(w'.2 = w.2 ∧ t.Settling w) := by
  unfold Settling
  rw [find?_settle]
  by_cases here : w'.2 = w.2
  · rw [here, if_pos rfl]
    cases t.commands.buffers.find? w.2 with
    | none => simp
    | some b =>
        by_cases h : b.Returns w.1
        · simp [CommandBuffer.settle_of_returns h, CommandBuffer.not_returns_fresh, h]
        · simp [CommandBuffer.settle_of_not h, h]
  · simp [here]

theorem recycled_comm (c c' : Handle) (f : CommandBuffer → CommandBuffer) :
    (t.recycled c f).recycled c' f = (t.recycled c' f).recycled c f := by
  unfold recycled
  simp only [MemoryTracker.forget_comm t.memory c c', CommandTracker.change,
    t.commands.buffers.modify_comm (g := c) (h := c') fun _ _ => rfl]

theorem settle_comm (w w' : Nat × Handle) : (t.settle w).settle w' = (t.settle w').settle w := by
  by_cases h : t.Settling w
  · by_cases h' : t.Settling w'
    · by_cases here : w'.2 = w.2
      · rw [settle_of_not_settling fun again => ((t.settling_settle w w').mp again).2 ⟨here, h⟩,
          settle_of_not_settling fun again => ((t.settling_settle w' w).mp again).2 ⟨here.symm, h'⟩,
          settle_of_settling h, settle_of_settling h', here]
      · rw [settle_of_settling ((t.settling_settle w w').mpr ⟨h', fun again => here again.1⟩),
          settle_of_settling ((t.settling_settle w' w).mpr ⟨h, fun again => here again.1.symm⟩),
          settle_of_settling h, settle_of_settling h', recycled_comm]
    · rw [settle_of_not_settling fun again => h' ((t.settling_settle w w').mp again).1,
        settle_of_not_settling h']
  · rw [settle_of_not_settling h]
    by_cases h' : t.Settling w'
    · rw [settle_of_not_settling fun again => h ((t.settling_settle w' w).mp again).1]
    · rw [settle_of_not_settling h', settle_of_not_settling h]

instance : RightCommutative settle := ⟨settle_comm⟩

theorem settled_comm (ws vs : List (Nat × Handle)) :
    (t.settled ws).settled vs = (t.settled vs).settled ws := by
  rw [← settled_append, ← settled_append]
  exact List.perm_append_comm.foldl_eq t

theorem settle_withQueues (w : Nat × Handle) (queues : QueueTracker) :
    ({ t with queues } : Trackers).settle w = { t.settle w with queues } := by
  unfold settle
  split
  · rfl
  · rfl

theorem settled_withQueues (queues : QueueTracker) : ∀ (ws : List (Nat × Handle)) (t : Trackers),
    ({ t with queues } : Trackers).settled ws = { t.settled ws with queues }
  | [], _ => rfl
  | w :: ws, t => by
      show (({ t with queues } : Trackers).settle w).settled ws = _
      rw [settle_withQueues, settled_withQueues queues ws]
      rfl

end Trackers

/-! ## Queues -/

theorem Fence.afterRetirement_comm (s s' : Nat) (x : Fence) :
    (x.afterRetirement s).afterRetirement s' = (x.afterRetirement s').afterRetirement s := by
  have done : ∀ n, (signaled).afterRetirement n = signaled := fun _ => rfl
  by_cases h : x.Awaits s
  · by_cases h' : x.Awaits s' <;> simp [afterRetirement_eq _ x, h, h', done]
  · by_cases h' : x.Awaits s' <;> simp [afterRetirement_eq _ x, h, h', done]

namespace QueueTracker

variable (t : QueueTracker)

instance : RightCommutative fun (r : Registry .semaphore Semaphore) h =>
    r.modify h Semaphore.afterRetirement :=
  ⟨fun r _ _ => r.modify_comm fun _ _ => rfl⟩

theorem afterBatch_comm (b b' : Batch) :
    afterBatch (afterBatch t b) b' = afterBatch (afterBatch t b') b := by
  have fences : (afterBatch (afterBatch t b) b').fences = (afterBatch (afterBatch t b') b).fences := by
    ext1 g
    simp only [fences_afterBatch]
    cases t.fences.find? g with
    | none => simp
    | some x =>
        have meet := x.afterRetirement_comm b.sequence b'.sequence
        by_cases hb : b.fence = some g <;> by_cases hb' : b'.fence = some g <;> simp [hb, hb', meet]
  have semaphores : (afterBatch (afterBatch t b) b').semaphores =
      (afterBatch (afterBatch t b') b).semaphores := by
    have order : (b.waitSemaphores ++ b'.waitSemaphores).Perm
        (b'.waitSemaphores ++ b.waitSemaphores) := List.perm_append_comm
    have whole := order.foldl_eq (f := fun (r : Registry .semaphore Semaphore) h =>
      r.modify h Semaphore.afterRetirement) t.semaphores
    rw [List.foldl_append, List.foldl_append] at whole
    exact whole
  exact (QueueTracker.mk.injEq ..).mpr ⟨rfl, fences, semaphores⟩

instance : RightCommutative afterBatch := ⟨afterBatch_comm⟩

theorem afterBatches_withQueues (queues : Registry .queue Queue) :
    ∀ (bs : List Batch) (t : QueueTracker),
      bs.foldl afterBatch { t with queues } = { bs.foldl afterBatch t with queues }
  | [], _ => rfl
  | b :: bs, t => afterBatches_withQueues queues bs (afterBatch t b)

/-- Different queues may retire in either order. -/
theorem passed_comm {r r' : Retirement} (away : r.queue ≠ r'.queue) (bs bs' : List Batch) :
    (t.passed r bs).passed r' bs' = (t.passed r' bs').passed r bs := by
  have queues : (t.queues.modify r.queue (·.retired r.upTo)).modify r'.queue (·.retired r'.upTo) =
      (t.queues.modify r'.queue (·.retired r'.upTo)).modify r.queue (·.retired r.upTo) :=
    Registry.modify_comm _ fun here => absurd here away
  have batches : bs'.foldl afterBatch (bs.foldl afterBatch t) =
      bs.foldl afterBatch (bs'.foldl afterBatch t) := by
    rw [← List.foldl_append, ← List.foldl_append]
    exact List.perm_append_comm.foldl_eq t
  unfold passed
  simp only [afterBatches_withQueues, batches, queues]

end QueueTracker

/-! ## Retirements -/

namespace Trackers

variable {t u : Trackers} {r r' : Retirement}

/-- The retirement goes through: it is in range, and the command buffers of the batches
that are due are live. -/
def Ready (t : Trackers) (r : Retirement) : Prop :=
  ∃ q, t.queues.queues.find? r.queue = some q ∧
    (q.lastRetired ≤ r.upTo ∧ r.upTo ≤ q.lastSubmitted) ∧
    ∀ w ∈ Batch.work (q.due r.upTo), ∃ b, t.commands.buffers.find? w.2 = some b

instance (t : Trackers) (r : Retirement) : Decidable (t.Ready r) :=
  decidable_of_iff (∃ q ∈ t.queues.queues.find? r.queue,
      (q.lastRetired ≤ r.upTo ∧ r.upTo ≤ q.lastSubmitted) ∧
      ∀ w ∈ Batch.work (q.due r.upTo), (t.commands.buffers.find? w.2).isSome = true)
    (exists_congr fun _ => and_congr_right fun _ => and_congr_right fun _ =>
      forall₂_congr fun _ _ => Option.isSome_iff_exists)

/-- The batches that are due. -/
def due (t : Trackers) (r : Retirement) : List Batch :=
  ((t.queues.queues.find? r.queue).map (·.due r.upTo)).getD []

theorem due_of_found {q : Queue} (hq : t.queues.queues.find? r.queue = some q) :
    t.due r = q.due r.upTo := by
  unfold due
  rw [hq]
  rfl

/-- The books after a retirement that goes through. -/
def pass (t : Trackers) (r : Retirement) : Trackers :=
  { t.settled (Batch.work (t.due r)) with queues := t.queues.passed r (t.due r) }

theorem Linked.pass (h : t.Linked) (r : Retirement) : (t.pass r).Linked :=
  (h.settled _).congr (h.settled _).tallied (fun _ _ => Iff.rfl) (fun _ _ => Iff.rfl)
    (fun _ _ => Iff.rfl) fun _ _ => Iff.rfl

theorem Passes.ready {bs : List Batch} (h : Passes t r bs u) : t.Ready r := by
  obtain ⟨q, hq, range, rfl⟩ := h.due
  exact ⟨q, hq, range, h.settles.live⟩

theorem Passes.eq_pass {bs : List Batch} (h : Passes t r bs u) (linked : t.Linked) :
    u = t.pass r := by
  obtain ⟨q, hq, -, rfl⟩ := h.due
  rw [← due_of_found hq] at h
  refine (Trackers.mk.injEq ..).mpr ⟨h.settles.memory linked, ?_, h.settles.commands, h.queues⟩
  exact h.settles.resources.trans (resources_settled t _).symm

/-- A retirement that is ready goes through. -/
theorem retireUpTo_of_ready (linked : t.Linked) (ready : t.Ready r) :
    (retireUpTo r).Ends t (fun _ u => u = t.pass r) fun _ _ => False := by
  refine (retireUpTo_effect t r).mono (fun _ _ passes => passes.eq_pass linked)
    fun v u stops => ?_
  obtain ⟨q, hq, range, live⟩ := ready
  cases stops with
  | refused out => exact (out q hq).1 range
  | @halfway _ q' front back b _ found _ parts _ _ gone =>
      rw [hq] at found
      cases found
      obtain ⟨c, hc, none⟩ := gone linked
      have worked : (b.sequence, c) ∈ Batch.work (q.due r.upTo) :=
        Batch.mem_work.mpr ⟨b, by simp [parts], rfl, hc⟩
      obtain ⟨x, hx⟩ := live _ worked
      rw [none] at hx
      cases hx

/-- A retirement of a queue that is tracked raises an internal error if it is not ready. -/
theorem retireUpTo_of_not_ready {q : Queue} (hq : t.queues.queues.find? r.queue = some q)
    (h : ¬t.Ready r) : (retireUpTo r).Ends t (fun _ _ => False) fun v _ => v.isFatal = true := by
  refine (retireUpTo_effect t r).mono (fun _ _ passes => h passes.ready) fun v u stops => ?_
  cases stops with
  | refused out => exact (out q hq).2
  | halfway fatal => exact fatal

/-- Queues after a retirement. -/
theorem found_pass (t : Trackers) (r : Retirement) (g : Handle) :
    (t.pass r).queues.queues.find? g =
      if g = r.queue then (t.queues.queues.find? g).map (·.retired r.upTo)
      else t.queues.queues.find? g := by
  show (t.queues.passed r _).queues.find? g = _
  rw [QueueTracker.queues_passed, Registry.find?_modify]

theorem due_pass (t : Trackers) (away : r.queue ≠ r'.queue) : (t.pass r).due r' = t.due r' := by
  unfold due
  rw [found_pass, if_neg (Ne.symm away)]

/-- The same command buffers are live after work has retired. -/
theorem live_pass_iff {c : Handle} : (∃ b, (t.pass r).commands.buffers.find? c = some b) ↔
    ∃ b, t.commands.buffers.find? c = some b := by
  show (∃ b, (t.settled _).commands.buffers.find? c = some b) ↔ _
  rw [find?_settled]
  cases t.commands.buffers.find? c with
  | none => simp
  | some b => simp

/-- When another queue retires, a retirement is ready exactly if it was before. -/
theorem ready_pass_away (away : r'.queue ≠ r.queue) : (t.pass r).Ready r' ↔ t.Ready r' := by
  unfold Ready
  rw [found_pass, if_neg away]
  simp only [live_pass_iff]

/-- When its own queue retires, it is if it was before and goes no less far. -/
theorem ready_pass_here (kept : t.queues.Kept) (ready : t.Ready r) (here : r'.queue = r.queue) :
    (t.pass r).Ready r' ↔ t.Ready r' ∧ r.upTo ≤ r'.upTo := by
  obtain ⟨q, hq, range, live⟩ := ready
  have ordered := kept _ q hq
  have found : t.queues.queues.find? r'.queue = some q := here ▸ hq
  have after : (t.pass r).queues.queues.find? r'.queue = some (q.retired r.upTo) := by
    rw [found_pass, if_pos here, found, Option.map_some]
  constructor
  · rintro ⟨q', hq', range', live'⟩
    rw [after] at hq'
    cases hq'
    have forward : r.upTo ≤ r'.upTo := range'.1
    refine ⟨⟨q, found, ⟨Nat.le_trans range.1 forward, range'.2⟩, fun w hw => ?_⟩, forward⟩
    obtain ⟨b, hb, hs, hc⟩ := Batch.mem_work.mp hw
    obtain ⟨flies, early⟩ := Queue.mem_due hb
    by_cases first : b.sequence ≤ r.upTo
    · exact live w (Batch.mem_work.mpr ⟨b, (ordered.mem_due_iff range).mpr ⟨flies, first⟩, hs, hc⟩)
    · have stays := (ordered.mem_retired_iff range).mpr ⟨flies, Nat.lt_of_not_le first⟩
      have due := ((ordered.retired range.1 range.2).mem_due_iff range').mpr ⟨stays, early⟩
      exact live_pass_iff.mp (live' w (Batch.mem_work.mpr ⟨b, due, hs, hc⟩))
  · rintro ⟨⟨q', hq', range', live'⟩, forward⟩
    rw [found] at hq'
    cases hq'
    refine ⟨_, after, ⟨forward, range'.2⟩, fun w hw => ?_⟩
    obtain ⟨b, hb, hs, hc⟩ := Batch.mem_work.mp hw
    obtain ⟨stays, early⟩ := Queue.mem_due hb
    have due := (ordered.mem_due_iff range').mpr ⟨Queue.mem_retired stays, early⟩
    exact live_pass_iff.mpr (live' w (Batch.mem_work.mpr ⟨b, due, hs, hc⟩))

/-- After a retirement has passed, another is ready that was so before and does not go back. -/
theorem ready_pass_iff (kept : t.queues.Kept) (ready : t.Ready r) :
    (t.pass r).Ready r' ↔ t.Ready r' ∧ (r.queue = r'.queue → r.upTo ≤ r'.upTo) := by
  by_cases here : r'.queue = r.queue
  · rw [ready_pass_here kept ready here]
    exact and_congr_right fun _ => ⟨fun forward _ => forward, fun forward => forward here.symm⟩
  · rw [ready_pass_away here]
    exact ⟨fun ready' => ⟨ready', fun he => absurd he.symm here⟩, And.left⟩

/-- A retirement stays ready when another queue retires, or its own queue just as far. -/
theorem Ready.pass (ready : t.Ready r') (kept : t.queues.Kept)
    (agree : r'.queue = r.queue → r'.upTo = r.upTo) : (t.pass r).Ready r' := by
  by_cases here : r'.queue = r.queue
  · have same : r' = r := (Retirement.mk.injEq ..).mpr ⟨here, agree here⟩
    rw [same] at ready ⊢
    exact (ready_pass_here kept ready rfl).mpr ⟨ready, Nat.le_refl _⟩
  · exact (ready_pass_away here).mpr ready

/-- The books after two queues have retired. -/
theorem pass_pass (t : Trackers) (away : r.queue ≠ r'.queue) : (t.pass r).pass r' =
    { (t.settled (Batch.work (t.due r))).settled (Batch.work (t.due r')) with
      queues := (t.queues.passed r (t.due r)).passed r' (t.due r') } := by
  show ({ (t.pass r).settled (Batch.work ((t.pass r).due r')) with
    queues := (t.pass r).queues.passed r' ((t.pass r).due r') } : Trackers) = _
  rw [due_pass t away]
  show ({ ({ t.settled (Batch.work (t.due r)) with
    queues := t.queues.passed r (t.due r) } : Trackers).settled _ with queues := _ } : Trackers) = _
  rw [settled_withQueues]
  rfl

/-- Retirements of different queues pass in either order and leave the same books. -/
theorem pass_comm (t : Trackers) (agree : r.queue = r'.queue → r.upTo = r'.upTo) :
    (t.pass r).pass r' = (t.pass r').pass r := by
  by_cases here : r.queue = r'.queue
  · have same : r = r' := (Retirement.mk.injEq ..).mpr ⟨here, agree here⟩
    rw [same]
  · rw [pass_pass t here, pass_pass t (Ne.symm here), t.queues.passed_comm here, t.settled_comm]

theorem kept_pass (kept : t.queues.Kept) (ready : t.Ready r) : (t.pass r).queues.Kept := by
  obtain ⟨q, hq, range, -⟩ := ready
  intro g q' hq'
  rcases QueueTracker.found_passed hq hq' with ⟨-, rfl⟩ | ⟨-, hq'⟩
  · exact (kept _ q hq).retired range.1 range.2
  · exact kept g q' hq'

/-- A fence that is signaled stays so when work retires. -/
theorem fenceStatus_pass {f : Handle} (ready : t.Ready r)
    (h : t.queues.fenceStatus f = .ok true) : (t.pass r).queues.fenceStatus f = .ok true := by
  have view : (t.pass r).queues.fences.find? f = (t.queues.fences.find? f).map fun x =>
      if x.Released (t.due r) f then .signaled else x := t.queues.fences_passed r _ f
  rw [QueueTracker.fenceStatus_eq_true_iff] at h ⊢
  rcases h with signaled | ⟨queue, s, q, hf, hq, early⟩
  · rw [signaled, Option.map_some, if_neg Fence.not_released_signaled] at view
    exact .inl view
  · rw [hf, Option.map_some] at view
    split at view
    next => exact .inl view
    next =>
      refine .inr ⟨queue, s, ?_⟩
      rw [found_pass]
      split
      next here =>
        obtain ⟨q', hq', range, -⟩ := ready
        rw [here, hq'] at hq
        cases hq
        exact ⟨_, view, by rw [here, hq', Option.map_some], Nat.le_trans early range.1⟩
      next => exact ⟨q, view, hq, early⟩

/-- The retirement of its submission signals a fence. -/
theorem fenceStatus_pass_own {f queue : Handle} {s : Nat} (ready : t.Ready ⟨queue, s⟩)
    (hf : t.queues.fences.find? f = some (.inUse queue s)) :
    (t.pass ⟨queue, s⟩).queues.fenceStatus f = .ok true := by
  have view : (t.pass ⟨queue, s⟩).queues.fences.find? f = (t.queues.fences.find? f).map fun x =>
      if x.Released (t.due ⟨queue, s⟩) f then .signaled else x := t.queues.fences_passed _ _ f
  rw [hf, Option.map_some] at view
  rw [QueueTracker.fenceStatus_eq_true_iff]
  split at view
  next => exact .inl view
  next =>
    obtain ⟨q, hq, -, -⟩ := ready
    refine .inr ⟨queue, s, q.retired s, view, ?_, Nat.le_refl _⟩
    rw [found_pass, if_pos rfl, hq, Option.map_some]

/-- Retirements that agree on how far each queue retires. -/
def Agree (rs : List Retirement) : Prop :=
  ∀ r ∈ rs, ∀ r' ∈ rs, r.queue = r'.queue → r.upTo = r'.upTo

/-- Retirements that agree may be applied in any order. -/
theorem pass_perm {rs rs' : List Retirement} (perm : rs.Perm rs') (agree : Agree rs)
    (t : Trackers) : rs.foldl pass t = rs'.foldl pass t :=
  perm.foldl_eq' (fun r hr r' hr' t => t.pass_comm (agree r hr r' hr')) t

/-- What every retirement keeps that passes is kept when retirements pass that agree. -/
theorem foldl_pass {P : Trackers → Prop}
    (keeps : ∀ (t : Trackers) (r : Retirement), t.Ready r → P t → P (t.pass r)) :
    ∀ (rs : List Retirement) {t : Trackers}, t.queues.Kept → (∀ r ∈ rs, t.Ready r) → Agree rs →
      P t → P (rs.foldl pass t)
  | [], _, _, _, _, h => h
  | r :: rs, t, kept, ready, agree, h => by
      obtain ⟨first, rest⟩ := List.forall_mem_cons.mp ready
      rw [List.foldl_cons]
      refine foldl_pass keeps rs (kept_pass kept first) (fun r' hr' => (rest r' hr').pass kept ?_)
        (fun r' hr' r'' hr'' => agree r' (List.mem_cons_of_mem _ hr') r''
          (List.mem_cons_of_mem _ hr'')) (keeps t r first h)
      exact agree r' (List.mem_cons_of_mem _ hr') r List.mem_cons_self

/-- Fences that are signaled stay so when retirements pass. -/
theorem fenceStatus_foldl {f : Handle} (rs : List Retirement) (kept : t.queues.Kept)
    (ready : ∀ r ∈ rs, t.Ready r) (agree : Agree rs) (h : t.queues.fenceStatus f = .ok true) :
    (rs.foldl pass t).queues.fenceStatus f = .ok true :=
  foldl_pass (P := fun u => u.queues.fenceStatus f = .ok true)
    (fun _ _ ready signaled => fenceStatus_pass ready signaled) rs kept ready agree h

/-- Retirements that agree signal the fences of what they retire up to. -/
theorem fenceStatus_passes {rs : List Retirement} {f queue : Handle} {s : Nat}
    (listed : ⟨queue, s⟩ ∈ rs) (kept : t.queues.Kept) (ready : ∀ r ∈ rs, t.Ready r)
    (agree : Agree rs) (hf : t.queues.fences.find? f = some (.inUse queue s)) :
    (rs.foldl pass t).queues.fenceStatus f = .ok true := by
  have perm : (⟨queue, s⟩ :: rs.erase ⟨queue, s⟩).Perm rs := (List.perm_cons_erase listed).symm
  rw [← pass_perm perm fun r hr r' hr' => agree r (perm.mem_iff.mp hr) r' (perm.mem_iff.mp hr')]
  have first := ready _ listed
  have rest : ∀ r ∈ rs.erase ⟨queue, s⟩, r ∈ rs := fun r => List.mem_of_mem_erase
  rw [List.foldl_cons]
  exact fenceStatus_foldl _ (kept_pass kept first)
    (fun r hr => (ready r (rest r hr)).pass kept (agree r (rest r hr) _ listed))
    (fun r hr r' hr' => agree r (rest r hr) r' (rest r' hr')) (fenceStatus_pass_own first hf)

end Trackers

end GpuAudit
