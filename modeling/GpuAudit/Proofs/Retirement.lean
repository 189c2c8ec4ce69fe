import GpuAudit.Proofs.Footprint
import GpuAudit.Proofs.Submission

/-!
# What a retirement does

A retirement moves its queue on, and then goes through the batches that are due and
the command buffers of each.  `settle` is what it does to one command buffer: one that
was begun for one submission, and whose last submission has the number of the batch,
is fresh again.  Only the number is compared, not the queue.

`retireUpTo_effect` says what a retirement leaves, whether it goes through or stops.
Books that are consistent determine all of it, links included; of other books it says
what the queues and the command buffers are.
-/

namespace GpuAudit

open Track (Refused)

/-! ## Command buffers that return -/

namespace CommandBuffer

variable {s s' : Nat} {b : CommandBuffer}

/-- The retirement of a submission with this number makes the command buffer fresh. -/
def Returns (s : Nat) (b : CommandBuffer) : Prop :=
  b.lastSubmission.map (·.sequence) = some s ∧ b.state = .executable ∧
    b.usage.contains CommandBufferUsage.oneTimeSubmit = true

instance : Decidable (b.Returns s) := inferInstanceAs (Decidable (_ ∧ _))

/-- A command buffer after the retirement of a submission. -/
def settle (s : Nat) (b : CommandBuffer) : CommandBuffer :=
  if b.Returns s then .fresh b.pool else b

theorem settle_of_returns (h : b.Returns s) : b.settle s = .fresh b.pool := if_pos h

theorem settle_of_not (h : ¬b.Returns s) : b.settle s = b := if_neg h

theorem not_returns_fresh (s : Nat) (pool : Handle) : ¬(fresh pool).Returns s := fun h => nomatch h.1

theorem fresh_not_oneTime (pool : Handle) :
    (fresh pool).usage.contains CommandBufferUsage.oneTimeSubmit = false := by
  show Flags.contains .empty _ = false
  decide

/-- One of several submissions that retire makes the command buffer fresh. -/
def ReturnedBy (ws : List (Nat × Handle)) (c : Handle) (b : CommandBuffer) : Prop :=
  ∃ w ∈ ws, w.2 = c ∧ b.Returns w.1

instance {ws : List (Nat × Handle)} {c : Handle} : Decidable (b.ReturnedBy ws c) :=
  inferInstanceAs (Decidable (∃ _, _))

theorem returnedBy_cons {w : Nat × Handle} {ws : List (Nat × Handle)} {c : Handle} :
    b.ReturnedBy (w :: ws) c ↔ (w.2 = c ∧ b.Returns w.1) ∨ b.ReturnedBy ws c := by
  simp [ReturnedBy]

theorem returnedBy_concat {w : Nat × Handle} {ws : List (Nat × Handle)} {c : Handle} :
    b.ReturnedBy (ws ++ [w]) c ↔ b.ReturnedBy ws c ∨ (w.2 = c ∧ b.Returns w.1) := by
  simp [ReturnedBy, or_and_right, exists_or]

theorem not_returnedBy_fresh {ws : List (Nat × Handle)} {c pool : Handle} :
    ¬(fresh pool).ReturnedBy ws c := fun ⟨w, _, _, h⟩ => not_returns_fresh w.1 pool h

end CommandBuffer

/-- The command buffers of batches, each with the number of its batch. -/
def Batch.work (bs : List Batch) : List (Nat × Handle) :=
  bs.flatMap fun b => b.commandBuffers.map fun c => (b.sequence, c)

theorem Batch.mem_work {bs : List Batch} {w : Nat × Handle} :
    w ∈ work bs ↔ ∃ b ∈ bs, b.sequence = w.1 ∧ w.2 ∈ b.commandBuffers := by
  unfold work
  rw [List.mem_flatMap]
  refine exists_congr fun b => and_congr_right fun _ => ?_
  rw [List.mem_map]
  constructor
  · rintro ⟨c, hc, rfl⟩
    exact ⟨rfl, hc⟩
  · rintro ⟨hs, hc⟩
    exact ⟨w.2, hc, by rw [hs]⟩

theorem Batch.work_append (as bs : List Batch) : work (as ++ bs) = work as ++ work bs :=
  List.flatMap_append

theorem Batch.work_singleton (b : Batch) :
    work [b] = b.commandBuffers.map fun c => (b.sequence, c) :=
  List.flatMap_singleton ..

namespace Trackers

variable {t u : Trackers} {c : Handle}

/-- The books after the retirement of a submission has dealt with a command buffer. -/
def settle (t : Trackers) (w : Nat × Handle) : Trackers :=
  if (t.commands.buffers.find? w.2).any (·.Returns w.1) then
    t.recycled w.2 fun b => .fresh b.pool
  else t

/-- The books after retirements have dealt with command buffers, one after another. -/
def settled (t : Trackers) (ws : List (Nat × Handle)) : Trackers := ws.foldl settle t

section Settle

variable (t : Trackers) (w : Nat × Handle)

theorem settle_of_returns {b : CommandBuffer} {w : Nat × Handle}
    (hb : t.commands.buffers.find? w.2 = some b) (h : b.Returns w.1) :
    t.settle w = t.recycled w.2 fun b => .fresh b.pool := by
  unfold settle
  rw [hb]
  exact if_pos (by simpa using h)

theorem settle_of_not {b : CommandBuffer} {w : Nat × Handle}
    (hb : t.commands.buffers.find? w.2 = some b) (h : ¬b.Returns w.1) : t.settle w = t := by
  unfold settle
  rw [hb]
  exact if_neg (by simpa using h)

@[simp] theorem queues_settle : (t.settle w).queues = t.queues := by
  unfold settle
  split <;> rfl

@[simp] theorem resources_settle : (t.settle w).resources = t.resources := by
  unfold settle
  split <;> rfl

theorem find?_settle (g : Handle) : (t.settle w).commands.buffers.find? g =
    if g = w.2 then (t.commands.buffers.find? g).map (·.settle w.1)
    else t.commands.buffers.find? g := by
  cases hb : t.commands.buffers.find? w.2 with
  | none =>
      have same : t.settle w = t := by
        unfold settle
        rw [hb]
        rfl
      rw [same]
      split
      next he => rw [he, hb, Option.map_none]
      next => rfl
  | some b =>
      by_cases h : b.Returns w.1
      · rw [settle_of_returns t hb h]
        refine (CommandTracker.find?_change _ g).trans ?_
        split
        next he => simp [he, hb, CommandBuffer.settle_of_returns h]
        next => rfl
      · rw [settle_of_not t hb h]
        split
        next he => simp [he, hb, CommandBuffer.settle_of_not h]
        next => rfl

theorem Linked.settle (h : t.Linked) : (t.settle w).Linked := by
  unfold Trackers.settle
  split
  · exact h.recycled w.2 fun _ => rfl
  · exact h

end Settle

section Settled

variable (t : Trackers) (ws : List (Nat × Handle))

theorem settled_append (vs : List (Nat × Handle)) :
    t.settled (ws ++ vs) = (t.settled ws).settled vs := List.foldl_append

@[simp] theorem resources_settled : (t.settled ws).resources = t.resources := by
  induction ws generalizing t with
  | nil => rfl
  | cons w ws ih => exact (ih (t.settle w)).trans (resources_settle t w)

theorem Linked.settled {t : Trackers} (h : t.Linked) : (t.settled ws).Linked := by
  induction ws generalizing t with
  | nil => exact h
  | cons w ws ih => exact ih (h.settle t w)

/-- A command buffer is fresh after the work if one of the submissions returns it, and
as it was if not. -/
theorem find?_settled (g : Handle) : (t.settled ws).commands.buffers.find? g =
    (t.commands.buffers.find? g).map fun b => if b.ReturnedBy ws g then .fresh b.pool else b := by
  induction ws generalizing t with
  | nil => simp [Trackers.settled, CommandBuffer.ReturnedBy]
  | cons w ws ih =>
      refine (ih (t.settle w)).trans ?_
      simp only [find?_settle, CommandBuffer.returnedBy_cons]
      cases t.commands.buffers.find? g with
      | none => simp
      | some b =>
          by_cases here : g = w.2
          · subst here
            by_cases h : b.Returns w.1
            · simp [CommandBuffer.settle_of_returns h, CommandBuffer.not_returnedBy_fresh, h]
            · simp [CommandBuffer.settle_of_not h, h]
          · simp [here, Ne.symm here]

end Settled

/-! ## One command buffer -/

/-- Links that are released are listed no more, and no other link is entered. -/
theorem releaseLinks_frees (t : Trackers) (cb : Handle) (memories : List Handle) :
    (releaseLinks cb memories).Ends t
      (fun _ u => u = { t with memory := u.memory } ∧ ∀ m k, u.memory.ListsUser m k →
        t.memory.ListsUser m k ∧ ¬(k = cb ∧ m ∈ memories)) fun v _ => v.isFatal = true := by
  unfold releaseLinks
  refine Track.Ends.forM (fun front (u : Trackers) => u = { t with memory := u.memory } ∧
      ∀ m k, u.memory.ListsUser m k → t.memory.ListsUser m k ∧ ¬(k = cb ∧ m ∈ front))
    ⟨rfl, fun m k listed => ⟨listed, fun h => nomatch h.2⟩⟩ fun front m _ u _ hu => ?_
  obtain ⟨same, freed⟩ := hu
  rw [Track.ends_restate, Track.ends_discard, onMemory, Track.ends_within]
  refine (u.memory.removeCommandBuffer_frees m cb).mono (fun _ v hv => ⟨by rw [same], ?_⟩)
    fun _ _ _ => rfl
  intro g k listed
  obtain ⟨before, other⟩ := hv g k listed
  refine ⟨(freed g k before).1, fun h => ?_⟩
  rcases List.mem_append.mp h.2 with old | new
  · exact (freed g k before).2 ⟨h.1, old⟩
  · exact other ⟨h.1, List.mem_singleton.mp new⟩

/-- A command buffer that is made fresh is listed no more by what it touched. -/
theorem clear_frees {b : CommandBuffer} (hb : t.commands.buffers.find? c = some b) :
    (clear c).Ends t
      (fun _ u => u = { t.recycled c fun b => .fresh b.pool with memory := u.memory } ∧
        ∀ m k, u.memory.ListsUser m k →
          t.memory.ListsUser m k ∧ ¬(k = c ∧ m ∈ b.memoryRefs)) fun v _ => v.isFatal = true := by
  unfold clear releaseAll
  rw [Track.ends_bind, Track.ends_bind, Track.ends_query, CommandTracker.lookup_eq_ok_iff.mpr hb,
    Track.ends_ofExcept_ok, Track.ends_bind, Track.ends_modify]
  refine (releaseLinks_frees _ c b.memoryRefs.toList).mono (fun _ u hu => ?_) fun _ _ hv => hv
  obtain ⟨same, freed⟩ := hu
  rw [Track.ends_modify, same]
  refine ⟨?_, fun m k listed => ?_⟩
  · simp only [CommandTracker.change_change, recycled]
    rfl
  · obtain ⟨before, other⟩ := freed m k listed
    exact ⟨before, fun h => other ⟨h.1, Std.ExtTreeSet.mem_toList.mpr h.2⟩⟩

/-- What the retirement of a submission does to one of its command buffers. -/
theorem retireCommandBuffer_effect (t : Trackers) (s : Nat) (c : Handle) :
    (retireCommandBuffer s c).Ends t
      (fun _ u => ∃ b, t.commands.buffers.find? c = some b ∧
        u = { t.settle (s, c) with memory := u.memory } ∧
        (∀ m k, u.memory.ListsUser m k →
          t.memory.ListsUser m k ∧ (b.Returns s → ¬(k = c ∧ m ∈ b.memoryRefs))) ∧
        (t.Linked → u = t.settle (s, c)))
      fun v u => v.isFatal = true ∧ Steady t u ∧
        (t.Linked → t.commands.buffers.find? c = none) := by
  unfold retireCommandBuffer
  rw [Track.ends_bind, Track.ends_get]
  split
  next none => exact ⟨rfl, refl_of Steady t, fun _ => none⟩
  next b hb =>
    split
    next due =>
      have due : b.Returns s := due
      rw [settle_of_returns (w := (s, c)) t hb due, Track.ends_bind]
      by_cases linked : t.Linked
      · refine (clear_frees hb).and (clear_ends linked hb) |>.mono (fun _ u hu => ?_)
          fun _ _ hv => hv.2.elim
        obtain ⟨⟨same, freed⟩, exactly⟩ := hu
        exact ⟨b, hb, same, fun m k listed => ⟨(freed m k listed).1, fun _ => (freed m k listed).2⟩,
          fun _ => exactly⟩
      · refine (clear_frees hb).and (clear_steady c t) |>.mono (fun _ u hu => ?_)
          fun _ u hv => ⟨hv.1, hv.2, fun h => absurd h linked⟩
        obtain ⟨⟨same, freed⟩, -⟩ := hu
        exact ⟨b, hb, same, fun m k listed => ⟨(freed m k listed).1, fun _ => (freed m k listed).2⟩,
          fun h => absurd h linked⟩
    next still =>
      have still : ¬b.Returns s := still
      rw [settle_of_not (w := (s, c)) t hb still]
      exact ⟨b, hb, rfl, fun m k listed => ⟨listed, fun h => absurd h still⟩, fun _ => rfl⟩

/-! ## All command buffers of a retirement -/

theorem commands_settle_congr (h : u.commands = t.commands) (w : Nat × Handle) :
    (u.settle w).commands = (t.settle w).commands := by
  unfold settle
  rw [h]
  split
  · exact congrArg (CommandTracker.change · _ _) h
  · exact h

theorem memory_settle_congr (hc : u.commands = t.commands) (hm : u.memory = t.memory)
    (w : Nat × Handle) : (u.settle w).memory = (t.settle w).memory := by
  unfold settle
  rw [hc]
  split
  · exact congrArg (MemoryTracker.forget · _) hm
  · exact hm

theorem inherits_settled (t : Trackers) (ws : List (Nat × Handle)) :
    t.commands.Inherits (t.settled ws).commands := by
  intro c b s hb hs
  rw [find?_settled] at hb
  obtain ⟨old, ho, rfl⟩ := Option.map_eq_some_iff.mp hb
  split at hs
  · cases hs
  next still =>
    rw [if_neg still]
    exact ⟨old, ho, hs, id⟩

/-- What is left after the work of batches that retire. -/
structure Settles (t : Trackers) (ws : List (Nat × Handle)) (u : Trackers) : Prop where
  /-- The command buffers of the work are live. -/
  live : ∀ w ∈ ws, ∃ b, t.commands.buffers.find? w.2 = some b
  /-- They have been dealt with. -/
  commands : u.commands = (t.settled ws).commands
  /-- The resources stay. -/
  resources : u.resources = t.resources
  /-- What was returned is listed no more by what it touched, and no link is entered. -/
  freed : ∀ m c, u.memory.ListsUser m c → t.memory.ListsUser m c ∧
    ∀ b, t.commands.buffers.find? c = some b → b.ReturnedBy ws c → m ∉ b.memoryRefs
  /-- Where links are entered on both sides, their release is determined. -/
  memory : t.Linked → u.memory = (t.settled ws).memory

theorem Settles.start (hc : u.commands = t.commands) (hr : u.resources = t.resources)
    (hm : u.memory = t.memory) : Settles t [] u where
  live _ hw := nomatch hw
  commands := hc
  resources := hr
  freed _ _ listed := ⟨hm ▸ listed, fun _ _ h => nomatch h⟩
  memory _ := hm

/-- What the work has made of a command buffer. -/
theorem Settles.find? {ws : List (Nat × Handle)} (h : Settles t ws u) {c : Handle}
    {b : CommandBuffer} (hb : t.commands.buffers.find? c = some b) :
    u.commands.buffers.find? c = some (if b.ReturnedBy ws c then .fresh b.pool else b) := by
  rw [h.commands, find?_settled, hb, Option.map_some]

theorem Settles.linked {ws : List (Nat × Handle)} (h : Settles t ws u) (hl : t.Linked) :
    u.Linked := by
  obtain ⟨tallied, bound, touched⟩ := hl.settled ws
  rw [← h.memory hl] at tallied bound touched
  rw [resources_settled, ← h.resources] at bound
  rw [← h.commands] at touched
  exact ⟨tallied, bound, touched⟩

theorem Settles.step {ws : List (Nat × Handle)} (h : Settles t ws u) (s : Nat) (c : Handle) :
    (retireCommandBuffer s c).Ends u
      (fun _ v => Settles t (ws ++ [(s, c)]) v ∧ v.queues = u.queues)
      fun v v' => v.isFatal = true ∧ v'.queues = u.queues ∧ t.commands.Inherits v'.commands ∧
        (t.Linked → t.commands.buffers.find? c = none) := by
  have inherits : t.commands.Inherits u.commands := by
    rw [h.commands]
    exact inherits_settled t ws
  refine (retireCommandBuffer_effect u s c).mono (fun _ v hv => ?_) fun _ v hv => ?_
  · obtain ⟨x, hx, same, freed, exactly⟩ := hv
    rw [h.commands, find?_settled] at hx
    obtain ⟨b, hb, he⟩ := Option.map_eq_some_iff.mp hx
    refine ⟨?_, by rw [same]; exact queues_settle u (s, c)⟩
    constructor
    case live =>
      intro w hw
      rcases List.mem_append.mp hw with old | new
      · exact h.live w old
      · exact ⟨b, List.mem_singleton.mp new ▸ hb⟩
    case commands =>
      rw [same, settled_append]
      exact commands_settle_congr h.commands (s, c)
    case resources =>
      rw [same]
      exact (resources_settle u (s, c)).trans h.resources
    case freed =>
      intro m k listed
      obtain ⟨before, other⟩ := freed m k listed
      obtain ⟨first, rest⟩ := h.freed m k before
      refine ⟨first, fun b' hb' returned => ?_⟩
      by_cases already : b'.ReturnedBy ws k
      · exact rest b' hb' already
      · obtain ⟨rfl, due⟩ := (CommandBuffer.returnedBy_concat.mp returned).resolve_left already
        rw [hb] at hb'
        cases hb'
        rw [if_neg already] at he
        subst he
        exact fun hm => other due ⟨rfl, hm⟩
    case memory =>
      intro hl
      rw [exactly (h.linked hl), settled_append]
      exact memory_settle_congr h.commands (h.memory hl) (s, c)
  · obtain ⟨fatal, steady, gone⟩ := hv
    refine ⟨fatal, steady.queues, trans_of CommandTracker.Inherits inherits steady.commands,
      fun hl => ?_⟩
    have none := gone (h.linked hl)
    rw [h.commands, find?_settled] at none
    exact Option.map_eq_none_iff.mp none

/-- The work of one batch is done, or stops at a command buffer that is gone. -/
theorem Settles.batch {ws : List (Nat × Handle)} (h : Settles t ws u) (b : Batch) :
    (retireBatch b).Ends u
      (fun _ v => Settles t (ws ++ Batch.work [b]) v ∧ v.queues = afterBatch u.queues b)
      fun v v' => v.isFatal = true ∧ v'.queues = afterBatch u.queues b ∧
        t.commands.Inherits v'.commands ∧
        (t.Linked → ∃ c ∈ b.commandBuffers, t.commands.buffers.find? c = none) := by
  have signaled : Settles t ws { u with queues := afterBatch u.queues b } :=
    ⟨h.live, h.commands, h.resources, h.freed, h.memory⟩
  unfold retireBatch
  rw [Track.ends_bind, Track.ends_modify, Batch.work_singleton]
  refine Track.Ends.forM (fun front v =>
      Settles t (ws ++ front.map fun c => (b.sequence, c)) v ∧ v.queues = afterBatch u.queues b)
    ⟨by simpa using signaled, rfl⟩ fun front c back v parts hv => ?_
  obtain ⟨settles, same⟩ := hv
  refine (settles.step b.sequence c).mono (fun _ v' hv' => ?_) fun _ v' hv' => ?_
  · rw [List.map_append, List.map_singleton, ← List.append_assoc]
    exact ⟨hv'.1, hv'.2.trans same⟩
  · obtain ⟨fatal, queues, inherits, gone⟩ := hv'
    exact ⟨fatal, queues.trans same, inherits, fun hl => ⟨c, by simp [parts], gone hl⟩⟩

end Trackers

/-! ## The queues -/

namespace QueueTracker

open Trackers (afterBatch)

/-- The queues after one of them has moved on and batches of it have retired. -/
def passed (t : QueueTracker) (r : Retirement) (bs : List Batch) : QueueTracker :=
  bs.foldl afterBatch { t with queues := t.queues.modify r.queue (·.retired r.upTo) }

theorem passed_concat (t : QueueTracker) (r : Retirement) (bs : List Batch) (b : Batch) :
    t.passed r (bs ++ [b]) = afterBatch (t.passed r bs) b := by
  unfold passed
  rw [List.foldl_append]
  rfl

end QueueTracker

namespace Trackers

variable {t : Trackers}

/-- What a retirement leaves that goes through. -/
structure Passes (t : Trackers) (r : Retirement) (bs : List Batch) (u : Trackers) : Prop where
  /-- The queue may retire so far, and the answer lists what is due. -/
  due : ∃ q, t.queues.queues.find? r.queue = some q ∧
    (q.lastRetired ≤ r.upTo ∧ r.upTo ≤ q.lastSubmitted) ∧ bs = q.due r.upTo
  /-- The queue has moved on, and fences and semaphores follow. -/
  queues : u.queues = t.queues.passed r bs
  /-- The command buffers have been dealt with. -/
  settles : Settles t (Batch.work bs) u

/-- What a retirement leaves that stops: at once, or at a command buffer of one of the
batches that are due. -/
inductive Stops (t : Trackers) (r : Retirement) (v : Violation) : Trackers → Prop
  | refused (out : ∀ q, t.queues.queues.find? r.queue = some q →
      ¬(q.lastRetired ≤ r.upTo ∧ r.upTo ≤ q.lastSubmitted) ∧ v.isFatal = true) : Stops t r v t
  | halfway {u : Trackers} {q : Queue} {front back : List Batch} {b : Batch}
      (fatal : v.isFatal = true)
      (found : t.queues.queues.find? r.queue = some q)
      (range : q.lastRetired ≤ r.upTo ∧ r.upTo ≤ q.lastSubmitted)
      (parts : q.due r.upTo = front ++ b :: back)
      (queues : u.queues = t.queues.passed r (front ++ [b]))
      (commands : t.commands.Inherits u.commands)
      (gone : t.Linked → ∃ c ∈ b.commandBuffers, t.commands.buffers.find? c = none) :
      Stops t r v u

/-- The batches that a retirement has begun with are due. -/
theorem mem_of_parts {bs front back : List Batch} {b : Batch} (parts : bs = front ++ b :: back) :
    ∀ x ∈ front ++ [b], x ∈ bs := by
  have start : front ++ [b] <+: bs := ⟨back, by simp [parts]⟩
  exact fun x hx => start.subset hx

/-- What a retirement leaves. -/
theorem retireUpTo_effect (t : Trackers) (r : Retirement) :
    (retireUpTo r).Ends t (Passes t r) (Stops t r) := by
  unfold retireUpTo
  rw [Track.ends_bind, Track.ends_query, Track.ends_ofExcept]
  refine ⟨fun q hq => ?_, fun v hv => .refused fun q hq => ?_⟩
  · rw [QueueTracker.queue_eq_ok_iff] at hq
    rw [Track.ends_bind, Track.ends_ofExcept]
    refine ⟨fun _ hr => ?_, fun v hv => .refused fun q' hq' => ?_⟩
    · have range := checkRetirement_eq_ok_iff.mp hr
      rw [Track.ends_bind, Track.ends_modify, Track.ends_bind]
      refine Track.Ends.mono (Track.Ends.forM (fun front u => Settles t (Batch.work front) u ∧
          u.queues = t.queues.passed r front) ⟨.start rfl rfl rfl, rfl⟩
        fun front b back u parts hu => ?_) (fun _ u hu => ?_) fun _ _ hv => hv
      · obtain ⟨settles, queues⟩ := hu
        rw [Batch.work_append, QueueTracker.passed_concat, ← queues]
        refine (settles.batch b).mono (fun _ v hv => hv) fun v u' hv => ?_
        obtain ⟨fatal, same, inherits, gone⟩ := hv
        refine .halfway fatal hq range parts ?_ inherits gone
        rw [same, QueueTracker.passed_concat, queues]
      · have passes : Passes t r (q.due r.upTo) u := ⟨⟨q, hq, range, rfl⟩, hu.2, hu.1⟩
        split
        · exact passes
        · exact passes
    · rw [hq] at hq'
      cases hq'
      refine ⟨fun range => ?_, fatal_checkRetirement hv⟩
      rw [checkRetirement_eq_ok_iff (v := ()) |>.mpr range] at hv
      cases hv
  · rw [QueueTracker.queue_eq_ok_iff.mpr hq] at hv
    cases hv

end Trackers

end GpuAudit
