import Mathlib.Logic.Relation
import GpuAudit.Trackers
import GpuAudit.Proofs.CommandBuffer
import GpuAudit.Proofs.Memory
import GpuAudit.Proofs.Queue
import GpuAudit.Proofs.Resource

/-!
# Edits of the books

An `Edit` is the smallest change of the books of a device that keeps them
consistent.  Each operation makes a sequence of edits, and each edit says what was
checked before it: a link is entered where there was none, an allocation is struck
out when it has no links, and a command buffer is recycled when it is idle.

`Sound` says that the books are consistent.  Every edit keeps them so
(`Sound.edit`), hence every sequence of edits does (`Sound.edits`).
-/

namespace GpuAudit.Trackers

variable {t u : Trackers} {gone : List Handle}

/-! ## Consistent books -/

/-- A link is entered on both sides, and counted. -/
structure Linked (t : Trackers) : Prop where
  /-- The counts are right. -/
  tallied : t.memory.Tallied
  /-- A resource is bound to an allocation exactly if the allocation lists it. -/
  bound : ∀ r memory, t.resources.BoundTo r memory ↔ t.memory.Lists memory r
  /-- A command buffer touches an allocation exactly if the allocation lists it. -/
  touched : ∀ c memory, t.commands.Touches c memory ↔ t.memory.ListsUser memory c

/-- The books agree with each other. -/
structure Sound (t : Trackers) : Prop where
  /-- Links are entered on both sides. -/
  linked : t.Linked
  /-- Swapchains own their images. -/
  chained : t.resources.Chained
  /-- Pools list their command buffers. -/
  pooled : t.commands.Pooled
  /-- Queues have their work in order. -/
  kept : t.queues.Kept

theorem sound_empty : empty.Sound where
  linked := by
    constructor
    · intro memory m hm
      simp [empty, MemoryTracker.empty] at hm
    · intro r memory
      simp [empty, ResourceTracker.BoundTo, ResourceTracker.find?, ResourceTracker.empty,
        MemoryTracker.Lists, MemoryTracker.empty]
    · intro c memory
      simp [empty, CommandTracker.Touches, CommandTracker.empty, MemoryTracker.ListsUser,
        MemoryTracker.empty]
  chained := ResourceTracker.chained_empty
  pooled := CommandTracker.pooled_empty
  kept := QueueTracker.kept_empty

/-- The books with the links of a command buffer released and its record changed. -/
def recycled (t : Trackers) (cb : Handle) (f : CommandBuffer → CommandBuffer) : Trackers :=
  { t with memory := t.memory.forget cb, commands := t.commands.change cb f }

/-! ## Edits -/

/-- The smallest changes of the books; `gone` lists the command buffers that may be
struck out. -/
inductive Edit (gone : List Handle) (t : Trackers) : Trackers → Prop
  /-- An allocation is entered, without links. -/
  | allocated {memory device : Handle} {info : AllocationInfo} {allocations : MemoryTracker}
      (new : t.memory.objects.find? memory = none)
      (view : ∀ g, allocations.objects.find? g =
        if g = memory then some (.fresh device info) else t.memory.objects.find? g) :
      Edit gone t { t with memory := allocations }
  /-- An allocation without links is struck out. -/
  | freed {memory : Handle} {m : MemoryObject} {allocations : MemoryTracker}
      (old : t.memory.objects.find? memory = some m) (unlinked : m.links = 0)
      (view : ∀ g, allocations.objects.find? g =
        if g = memory then none else t.memory.objects.find? g) :
      Edit gone t { t with memory := allocations }
  /-- The mapped range of an allocation changes. -/
  | remapped {memory : Handle} {m : MemoryObject} (mapped : Option MappedRange)
      (live : t.memory.objects.find? memory = some m) :
      Edit gone t { t with memory := t.memory.change memory (·.remap mapped) }
  /-- Only the resources change. -/
  | resources {resources : ResourceTracker} (edit : t.resources.Edit resources) :
      Edit gone t { t with resources }
  /-- A resource that is not bound is bound. -/
  | attached {resource memory : Handle} {x : Resource} {m : MemoryObject} (offset : UInt64)
      (old : t.resources.find? resource = some x) (unbound : x.binding = .unbound)
      (live : t.memory.objects.find? memory = some m) :
      Edit gone t { t with
        memory := t.memory.change memory (·.attach resource)
        resources := t.resources.rebound resource (.memory memory offset) }
  /-- A binding is released. -/
  | detached {resource memory : Handle} {x : Resource} {offset : UInt64}
      (old : t.resources.find? resource = some x) (bound : x.binding = .memory memory offset) :
      Edit gone t { t with
        memory := t.memory.change memory (·.detach resource)
        resources := t.resources.rebound resource .unbound }
  /-- A resource is bound to the same allocation at another offset. -/
  | moved {resource memory : Handle} {x : Resource} {offset : UInt64} (target : UInt64)
      (old : t.resources.find? resource = some x) (bound : x.binding = .memory memory offset) :
      Edit gone t { t with
        resources := t.resources.rebound resource (.memory memory target) }
  /-- A pool is entered, without command buffers. -/
  | poolMade {pool : Handle} {flags : CommandPoolFlags} {pools : Registry .commandPool CommandPool}
      (new : t.commands.pools.find? pool = none)
      (view : ∀ g, pools.find? g =
        if g = pool then some ⟨flags, ∅⟩ else t.commands.pools.find? g) :
      Edit gone t { t with commands := { t.commands with pools } }
  /-- A pool that lists no command buffer is struck out. -/
  | poolRemoved {pool : Handle} {p : CommandPool} {pools : Registry .commandPool CommandPool}
      (old : t.commands.pools.find? pool = some p) (empty : ∀ c, c ∉ p.buffers)
      (view : ∀ g, pools.find? g = if g = pool then none else t.commands.pools.find? g) :
      Edit gone t { t with commands := { t.commands with pools } }
  /-- A fresh command buffer is entered. -/
  | entered {cb pool : Handle} {buffers : Registry .commandBuffer CommandBuffer}
      (new : t.commands.buffers.find? cb = none)
      (view : ∀ g, buffers.find? g =
        if g = cb then some (.fresh pool) else t.commands.buffers.find? g) :
      Edit gone t { t with commands := { t.commands with buffers } }
  /-- A pool lists command buffers that belong to it. -/
  | enrolled {pool : Handle} {cbs : List Handle}
      (own : ∀ c ∈ cbs, ∃ b, t.commands.buffers.find? c = some b ∧ b.pool = pool) :
      Edit gone t { t with commands := { t.commands with
        pools := t.commands.pools.modify pool fun p =>
          { p with buffers := p.buffers.insertMany cbs } } }
  /-- An idle command buffer begins to record. -/
  | begun {cb : Handle} (usage : CommandBufferUsage)
      (idle : t.commands.Idle t.queues cb) (listed : t.commands.Member cb) :
      Edit gone t (t.recycled cb fun b => ⟨b.pool, .recording, usage, ∅, none⟩)
  /-- An idle command buffer is made fresh. -/
  | cleared {cb : Handle} (idle : t.commands.Idle t.queues cb) :
      Edit gone t (t.recycled cb fun b => .fresh b.pool)
  /-- An idle command buffer is struck out. -/
  | destroyed {cb : Handle} {b : CommandBuffer}
      {buffers : Registry .commandBuffer CommandBuffer} (given : cb ∈ gone)
      (idle : t.commands.Idle t.queues cb) (old : t.commands.buffers.find? cb = some b)
      (view : ∀ g, buffers.find? g = if g = cb then none else t.commands.buffers.find? g) :
      Edit gone t { t with
        memory := t.memory.forget cb
        commands := ⟨t.commands.pools.modify b.pool fun p =>
          { p with buffers := p.buffers.erase cb }, buffers⟩ }
  /-- A command buffer ends its recording. -/
  | finished {cb : Handle} {b : CommandBuffer} (old : t.commands.buffers.find? cb = some b)
      (recording : b.state = .recording) :
      Edit gone t { t with
        commands := t.commands.change cb fun b => { b with state := .executable } }
  /-- A recording command buffer touches an allocation it did not touch. -/
  | touched {cb memory : Handle} {b : CommandBuffer} {m : MemoryObject}
      (old : t.commands.buffers.find? cb = some b) (recording : b.state = .recording)
      (live : t.memory.objects.find? memory = some m) (new : cb ∉ m.commandBuffers) :
      Edit gone t { t with
        memory := t.memory.change memory (·.retain cb)
        commands := t.commands.change cb fun b =>
          { b with memoryRefs := b.memoryRefs.insert memory } }
  /-- A queue is entered, before its first submission. -/
  | queueMade {queue : Handle} {queues : Registry .queue Queue}
      (new : t.queues.queues.find? queue = none)
      (view : ∀ g, queues.find? g = if g = queue then some .idle else t.queues.queues.find? g) :
      Edit gone t { t with queues := { t.queues with queues } }
  /-- Fences and semaphores change. -/
  | signaled (fences : Registry .fence Fence) (semaphores : Registry .semaphore Semaphore) :
      Edit gone t { t with queues := { t.queues with fences, semaphores } }

/-- A sequence of edits. -/
abbrev Edits (gone : List Handle) : Trackers → Trackers → Prop :=
  Relation.ReflTransGen (Edit gone)

/-- What an operation leaves that fails: nothing changed and the call blamed, unless an
allocation has more links than can be counted, which is an internal error. -/
def Fails (t : Trackers) (v : Violation) (u : Trackers) : Prop :=
  Track.Refused t v u ∨ v.isFatal = true ∧ ¬u.memory.Counted

theorem fails_of_refused {v : Violation} (h : v.isFatal = false) : Fails t v t := .inl ⟨h, rfl⟩

/-! ## Edits keep the books consistent -/

/-- Links are the same whenever the books that hold them say the same. -/
theorem Linked.congr (h : t.Linked) (tallied : u.memory.Tallied)
    (lists : ∀ m r, u.memory.Lists m r ↔ t.memory.Lists m r)
    (users : ∀ m c, u.memory.ListsUser m c ↔ t.memory.ListsUser m c)
    (bound : ∀ r m, u.resources.BoundTo r m ↔ t.resources.BoundTo r m)
    (touched : ∀ c m, u.commands.Touches c m ↔ t.commands.Touches c m) : u.Linked where
  tallied := tallied
  bound r m := by rw [bound, lists, h.bound]
  touched c m := by rw [touched, users, h.touched]

/-- Recycling a command buffer releases its links on both sides. -/
theorem Linked.recycled (h : t.Linked) (cb : Handle) {f : CommandBuffer → CommandBuffer}
    (hf : ∀ b, (f b).memoryRefs = ∅) : (t.recycled cb f).Linked where
  tallied := h.tallied.forget cb
  bound r m := (h.bound r m).trans MemoryTracker.lists_forget.symm
  touched c m := by
    show (t.commands.change cb f).Touches c m ↔ (t.memory.forget cb).ListsUser m c
    rw [CommandTracker.touches_change_of_empty hf, MemoryTracker.listsUser_forget, h.touched]

theorem boundTo_of_binding {r memory : Handle} {x : Resource} {offset : UInt64}
    (hx : t.resources.find? r = some x) (hb : x.binding = .memory memory offset) :
    t.resources.BoundTo r memory := ResourceTracker.boundTo_iff.mpr ⟨x, offset, hx, hb⟩

/-- An allocation to which a resource is bound is live. -/
theorem Linked.live (h : t.Linked) {r memory : Handle} (hb : t.resources.BoundTo r memory) :
    ∃ m, t.memory.objects.find? memory = some m ∧ r ∈ m.bindings := (h.bound r memory).mp hb

theorem Linked.attached (h : t.Linked) {r memory : Handle} {x : Resource} {m : MemoryObject}
    {offset : UInt64} (old : t.resources.find? r = some x) (unbound : x.binding = .unbound)
    (live : t.memory.objects.find? memory = some m) :
    ({ t with
        memory := t.memory.change memory (·.attach r)
        resources := t.resources.rebound r (.memory memory offset) } : Trackers).Linked := by
  have free : ∀ k, ¬t.memory.Lists k r := fun k hk => by
    obtain ⟨y, hy, hb⟩ := (h.bound r k).mpr hk
    rw [old] at hy
    cases hy
    rw [ResourceTracker.memory?_eq_none_of_unbound unbound] at hb
    cases hb
  have new : r ∉ m.bindings := fun hr => free memory ⟨m, live, hr⟩
  constructor
  · exact h.tallied.change live ((h.tallied memory m live).attach new)
  · intro g k
    rw [ResourceTracker.boundTo_rebound old, MemoryTracker.lists_attach live, h.bound]
    split
    next he =>
      subst he
      have := free k
      simp [Resource.memory?, this, eq_comm]
    next he => simp [he]
  · intro c k
    rw [MemoryTracker.listsUser_change_of_eq live rfl]
    exact h.touched c k

theorem Linked.detached (h : t.Linked) {r memory : Handle} {x : Resource} {offset : UInt64}
    (old : t.resources.find? r = some x) (bound : x.binding = .memory memory offset) :
    ({ t with
        memory := t.memory.change memory (·.detach r)
        resources := t.resources.rebound r .unbound } : Trackers).Linked := by
  obtain ⟨m, live, hr⟩ := h.live (boundTo_of_binding old bound)
  have only : ∀ k, t.memory.Lists k r → k = memory := fun k hk => by
    obtain ⟨y, hy, hb⟩ := (h.bound r k).mpr hk
    rw [old] at hy
    cases hy
    unfold Resource.memory? at hb
    rw [bound] at hb
    exact (Option.some.inj hb).symm
  constructor
  · exact h.tallied.change live ((h.tallied memory m live).detach hr)
  · intro g k
    rw [ResourceTracker.boundTo_rebound old, MemoryTracker.lists_detach live, h.bound]
    split
    next he =>
      subst he
      have := only k
      simp only [Resource.memory?, reduceCtorEq, and_true, false_iff]
      rintro ⟨hne, hk⟩
      exact hne (this hk)
    next he => simp [he]
  · intro c k
    rw [MemoryTracker.listsUser_change_of_eq live rfl]
    exact h.touched c k

theorem Linked.moved (h : t.Linked) {r memory : Handle} {x : Resource} {offset target : UInt64}
    (old : t.resources.find? r = some x) (bound : x.binding = .memory memory offset) :
    ({ t with resources := t.resources.rebound r (.memory memory target) } : Trackers).Linked := by
  refine h.congr h.tallied (fun _ _ => Iff.rfl) (fun _ _ => Iff.rfl) (fun g k => ?_)
    fun _ _ => Iff.rfl
  rw [ResourceTracker.boundTo_rebound old]
  split
  next he =>
    subst he
    simp [ResourceTracker.BoundTo, old, Resource.memory?, bound]
  next _ => exact Iff.rfl

theorem Linked.touches (h : t.Linked) {cb memory : Handle} {b : CommandBuffer} {m : MemoryObject}
    (old : t.commands.buffers.find? cb = some b)
    (live : t.memory.objects.find? memory = some m) (new : cb ∉ m.commandBuffers) :
    ({ t with
        memory := t.memory.change memory (·.retain cb)
        commands := t.commands.change cb fun b =>
          { b with memoryRefs := b.memoryRefs.insert memory } } : Trackers).Linked := by
  constructor
  · exact h.tallied.change live ((h.tallied memory m live).retain new)
  · intro g k
    rw [MemoryTracker.lists_change_of_eq live rfl]
    exact h.bound g k
  · intro c k
    rw [CommandTracker.touches_change old, MemoryTracker.listsUser_retain live, ← h.touched]
    split
    next he =>
      subst he
      rw [Handle.mem_insert]
      simp [CommandTracker.Touches, old]
    next he => simp [he]

theorem Linked.edit (h : t.Linked) (he : Edit gone t u) : u.Linked := by
  cases he with
  | allocated new view =>
      exact h.congr (h.tallied.enter view) (fun _ _ => MemoryTracker.lists_enter new view)
        (fun _ _ => MemoryTracker.listsUser_enter new view) (fun _ _ => Iff.rfl)
        fun _ _ => Iff.rfl
  | freed old unlinked view =>
      exact h.congr (h.tallied.strike view)
        (fun _ _ => MemoryTracker.lists_strike old unlinked view)
        (fun _ _ => MemoryTracker.listsUser_strike old unlinked view) (fun _ _ => Iff.rfl)
        fun _ _ => Iff.rfl
  | remapped mapped live =>
      exact h.congr (h.tallied.change live ((h.tallied _ _ live).remap mapped))
        (fun _ _ => MemoryTracker.lists_change_of_eq live rfl)
        (fun _ _ => MemoryTracker.listsUser_change_of_eq live rfl) (fun _ _ => Iff.rfl)
        fun _ _ => Iff.rfl
  | resources edit =>
      exact h.congr h.tallied (fun _ _ => Iff.rfl) (fun _ _ => Iff.rfl) (fun _ _ => edit.boundTo)
        fun _ _ => Iff.rfl
  | attached offset old unbound live => exact h.attached old unbound live
  | detached old bound => exact h.detached old bound
  | moved target old bound => exact h.moved old bound
  | poolMade new view => exact ⟨h.tallied, h.bound, h.touched⟩
  | poolRemoved old empty view => exact ⟨h.tallied, h.bound, h.touched⟩
  | @entered cb pool buffers new view =>
      refine h.congr h.tallied (fun _ _ => Iff.rfl) (fun _ _ => Iff.rfl) (fun _ _ => Iff.rfl)
        fun c m => ?_
      unfold CommandTracker.Touches
      rw [view]
      split
      next hc => simp [hc, new, CommandBuffer.fresh]
      next _ => exact Iff.rfl
  | enrolled own => exact ⟨h.tallied, h.bound, h.touched⟩
  | begun usage idle listed => exact h.recycled _ fun _ => rfl
  | cleared idle => exact h.recycled _ fun _ => rfl
  | @destroyed cb b buffers given idle old view =>
      refine ⟨h.tallied.forget cb, fun r m =>
        (h.bound r m).trans MemoryTracker.lists_forget.symm, fun c m => ?_⟩
      rw [MemoryTracker.listsUser_forget, ← h.touched]
      unfold CommandTracker.Touches
      rw [view]
      split
      next hc => simp [hc]
      next hc => simp [hc]
  | finished old recording =>
      refine h.congr h.tallied (fun _ _ => Iff.rfl) (fun _ _ => Iff.rfl) (fun _ _ => Iff.rfl)
        fun c m => ?_
      rw [CommandTracker.touches_change old]
      split
      next hc => simp [hc, CommandTracker.Touches, old]
      next _ => exact Iff.rfl
  | touched old recording live new => exact h.touches old live new
  | queueMade new view => exact ⟨h.tallied, h.bound, h.touched⟩
  | signaled fences semaphores => exact ⟨h.tallied, h.bound, h.touched⟩

/-- No edit takes an image from the swapchain it belongs to. -/
theorem chained_edit (h : t.resources.Chained)
    (he : Edit gone t u) : u.resources.Chained := by
  cases he with
  | resources edit => exact h.edit edit
  | attached offset old unbound live =>
      exact h.rebound old (by simp [unbound]) (by simp)
  | detached old bound => exact h.rebound old (by simp [bound]) (by simp)
  | moved target old bound => exact h.rebound old (by simp [bound]) (by simp)
  | allocated | freed | remapped | poolMade | poolRemoved | entered | enrolled | begun | cleared
  | destroyed | finished | touched | queueMade | signaled => exact h

/-- Pools list their command buffers after every edit. -/
theorem pooled_edit (h : t.commands.Pooled) (he : Edit gone t u) : u.commands.Pooled := by
  cases he with
  | poolMade new view => exact h.makePool new view
  | poolRemoved old empty view => exact h.removePool old empty view
  | entered new view => exact h.enter new view
  | enrolled own => exact h.enroll own
  | begun usage idle listed =>
      exact h.change (fun _ => rfl) (.inl listed) fun _ _ hs => absurd rfl hs
  | cleared idle =>
      exact h.change (fun _ => rfl) (.inr fun _ _ => rfl) fun _ _ hs => absurd rfl hs
  | destroyed given idle old view => exact h.strike old view
  | finished old recording =>
      exact h.change (fun _ => rfl) (.inl (h.member old (by rw [recording]; decide)))
        fun _ _ _ => rfl
  | touched old recording live new =>
      refine h.change (fun _ => rfl) (.inl (h.member old (by rw [recording]; decide)))
        fun b' hb' hs => h.submitted _ b' hb' hs
  | allocated | freed | remapped | resources | attached | detached | moved | queueMade
  | signaled => exact h

/-- Queues have their work in order after every edit. -/
theorem kept_edit (h : t.queues.Kept) (he : Edit gone t u) : u.queues.Kept := by
  cases he with
  | queueMade new view =>
      intro g q hq
      rw [view] at hq
      split at hq
      next _ =>
        cases hq
        exact Queue.kept_idle
      next _ => exact h g q hq
  | signaled fences semaphores => exact h
  | allocated | freed | remapped | resources | attached | detached | moved | poolMade
  | poolRemoved | entered | enrolled | begun | cleared | destroyed | finished | touched => exact h

theorem Sound.edit (h : t.Sound) (he : Edit gone t u) : u.Sound :=
  ⟨h.linked.edit he, chained_edit h.chained he, pooled_edit h.pooled he, kept_edit h.kept he⟩

/-- Consistent books stay consistent under every sequence of edits. -/
theorem Sound.edits (h : t.Sound) (he : Edits gone t u) : u.Sound := by
  induction he with
  | refl => exact h
  | tail _ he ih => exact ih.edit he

/-- A pool lists a command buffer as long as it is not given up. -/
theorem member_edit {c : Handle} (h : t.commands.Member c) (hc : c ∉ gone)
    (he : Edit gone t u) : u.commands.Member c := by
  cases he with
  | poolMade new view => exact h.makePool new view
  | poolRemoved old empty view => exact h.removePool old empty view
  | entered new view => exact h.enter new view
  | enrolled own => exact h.enroll
  | begun usage idle listed => exact h.change fun _ => rfl
  | cleared idle => exact h.change fun _ => rfl
  | destroyed given idle old view => exact h.strike (fun he => hc (he ▸ given)) view
  | finished old recording => exact h.change fun _ => rfl
  | touched old recording live new => exact h.change fun _ => rfl
  | allocated | freed | remapped | resources | attached | detached | moved | queueMade
  | signaled => exact h

theorem member_edits {c : Handle} (h : t.commands.Member c) (hc : c ∉ gone)
    (he : Edits gone t u) : u.commands.Member c := by
  induction he with
  | refl => exact h
  | tail _ he ih => exact member_edit ih hc he

end GpuAudit.Trackers
