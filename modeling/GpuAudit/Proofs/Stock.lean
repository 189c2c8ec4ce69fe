import GpuAudit.Proofs.Creation
import GpuAudit.Proofs.Retirement

/-!
# What a device has

`Keeps` says that the books of a device have the same queues, the same allocations and
the same resources afterwards, and no command buffer that was not there before.  The
command buffers that may be gone are named.  Links, marks and the states of command
buffers, fences and semaphores are left open.

So `Keeps` confines every operation on command buffers and on queues, submissions and
retirements included, whatever the books are and wherever the operation stops.
-/

namespace GpuAudit

open Track (Confined confined_pure confined_throw confined_ofExcept confined_query confined_get
  confined_debug confined_modify)

/-! ## Allocations -/

namespace MemoryTracker

variable {t u : MemoryTracker} {memory : Handle} {m : MemoryObject} {γ : Type}
  {part : MemoryObject → γ}

/-- The same allocations are live, with a part of their records the same. -/
def SameIn (part : MemoryObject → γ) (t u : MemoryTracker) : Prop :=
  ∀ g, (u.objects.find? g).map part = (t.objects.find? g).map part

/-- The same allocations are live, on the same devices, with the same sizes and properties. -/
def SameInfo (t u : MemoryTracker) : Prop := SameIn (fun m => (m.device, m.info)) t u

instance : IsPreorder MemoryTracker (SameIn part) where
  refl _ _ := rfl
  trans _ _ _ h k g := (k g).trans (h g)

instance : IsPreorder MemoryTracker SameInfo :=
  inferInstanceAs (IsPreorder MemoryTracker (SameIn _))

/-- The record of an allocation, if it is live, is in a part as another. -/
def IsAs (part : MemoryObject → γ) (t : MemoryTracker) (memory : Handle) (m : MemoryObject) :
    Prop :=
  ∀ o, t.objects.find? memory = some o → part o = part m

theorem isAs_of_lookup (h : t.lookup memory = .ok m) : t.IsAs part memory m := fun o ho => by
  rw [Registry.lookup_eq_ok_iff.mp h] at ho
  cases ho
  rfl

theorem SameIn.isAs (same : SameIn part t u) (h : t.IsAs part memory m) :
    u.IsAs part memory m := by
  intro o ho
  have parts := same memory
  rw [ho, Option.map_some] at parts
  obtain ⟨old, hold, he⟩ := Option.map_eq_some_iff.mp parts.symm
  exact he ▸ h old hold

/-- A record is put in the place of one with the part the same. -/
theorem put_same (h : t.IsAs part memory m) :
    (put memory m).Ends t (fun _ => SameIn part t) fun _ => SameIn part t := by
  unfold put
  rw [Track.ends_modify]
  intro g
  rw [Registry.find?_modify]
  split
  next here =>
    rw [here]
    cases ho : t.objects.find? memory with
    | none => rfl
    | some o => simp [h o ho]
  next => rfl

theorem putTwice_same (count : MemoryObject → Except Violation MemoryObject)
    (counts : ∀ m', count m = .ok m' → part m' = part m) (h : t.IsAs part memory m) :
    (do put memory m
        let m ← Track.ofExcept (count m)
        put memory m
        return m.refCount : Track MemoryTracker Nat).Ends t
      (fun _ => SameIn part t) fun _ => SameIn part t := by
  rw [Track.ends_bind]
  refine (put_same h).mono (fun _ u same => ?_) fun _ _ same => same
  rw [Track.ends_bind, Track.ends_ofExcept]
  refine ⟨fun m' hm' => ?_, fun _ _ => same⟩
  rw [Track.ends_bind]
  have as : u.IsAs part memory m' := fun o ho => (same.isAs h o ho).trans (counts m' hm').symm
  exact (put_same as).mono (fun _ _ later => trans_of (SameIn part) same later) fun _ _ later =>
    trans_of (SameIn part) same later

/-! ### Links -/

/-- A part of a record to which its links and their count do not belong. -/
def Unlinked (part : MemoryObject → γ) : Prop :=
  ∀ m refCount bindings commandBuffers,
    part { m with refCount, bindings, commandBuffers } = part m

theorem Unlinked.increment (h : Unlinked part) {m' : MemoryObject}
    (hm : m.increment memory = .ok m') : part m' = part m := by
  unfold MemoryObject.increment at hm
  split at hm
  · cases hm
    exact h m _ _ _
  · cases hm

theorem Unlinked.decrement (h : Unlinked part) {m' : MemoryObject}
    (hm : m.decrement memory = .ok m') : part m' = part m := by
  unfold MemoryObject.decrement at hm
  split at hm
  · cases hm
    exact h m _ _ _
  · cases hm

theorem countUp_same (unlinked : Unlinked part) (h : t.IsAs part memory m) :
    (countUp memory m).Ends t (fun _ => SameIn part t) fun _ => SameIn part t :=
  putTwice_same (fun m => m.increment memory) (fun _ => unlinked.increment) h

theorem countDown_same (unlinked : Unlinked part) (h : t.IsAs part memory m) :
    (countDown memory m).Ends t (fun _ => SameIn part t) fun _ => SameIn part t :=
  putTwice_same (fun m => m.decrement memory) (fun _ => unlinked.decrement) h

/-- An operation on a live allocation that keeps a part of its record. -/
theorem confined_of_lookup {α : Type} {f : MemoryObject → Track MemoryTracker α} (memory : Handle)
    (hf : ∀ t m, t.IsAs part memory m →
      (f m).Ends t (fun _ => SameIn part t) fun _ => SameIn part t) :
    (Track.query (·.lookup memory) >>= f).Confined (SameIn part) := by
  intro t
  rw [Track.ends_bind, Track.ends_query, Track.ends_ofExcept]
  exact ⟨fun m hm => hf t m (isAs_of_lookup hm), fun _ _ => refl_of (SameIn part) t⟩

/-- Links are entered in a record and struck out of it, and the rest of it stays. -/
theorem addBinding_same (unlinked : Unlinked part) (memory resource : Handle) :
    (addBinding memory resource).Confined (SameIn part) := by
  refine confined_of_lookup memory fun t m as => ?_
  split
  · exact refl_of (SameIn part) t
  · exact countUp_same unlinked fun o ho => (as o ho).trans (unlinked m _ _ _).symm

theorem removeBinding_same (unlinked : Unlinked part) (memory resource : Handle) :
    (removeBinding memory resource).Confined (SameIn part) := by
  refine confined_of_lookup memory fun t m as => ?_
  split
  · exact refl_of (SameIn part) t
  · exact countDown_same unlinked fun o ho => (as o ho).trans (unlinked m _ _ _).symm

theorem addCommandBuffer_same (unlinked : Unlinked part) (memory cb : Handle) :
    (addCommandBuffer memory cb).Confined (SameIn part) := by
  refine confined_of_lookup memory fun t m as => ?_
  split
  · exact refl_of (SameIn part) t
  · exact countUp_same unlinked fun o ho => (as o ho).trans (unlinked m _ _ _).symm

theorem removeCommandBuffer_same (unlinked : Unlinked part) (memory cb : Handle) :
    (removeCommandBuffer memory cb).Confined (SameIn part) := by
  refine confined_of_lookup memory fun t m as => ?_
  split
  · exact refl_of (SameIn part) t
  · exact countDown_same unlinked fun o ho => (as o ho).trans (unlinked m _ _ _).symm

/-! ### Sizes and properties -/

/-- An operation that changes what is mapped, or is refused. -/
theorem sameInfo_of_remap {α : Type} {x : Track MemoryTracker α} (mapped : α → Option MappedRange)
    (hx : x.Ends t (fun a u => (∃ m, t.objects.find? memory = some m) ∧
      u = t.change memory (·.remap (mapped a))) (Track.Refused t)) :
    x.Ends t (fun _ => SameInfo t) fun _ => SameInfo t := by
  refine hx.mono (fun a u hu => ?_) fun _ u hu => ?_
  · rw [hu.2]
    exact part_change fun _ => rfl
  · rw [hu.2]
    exact refl_of SameInfo t

theorem map_sameInfo (memory : Handle) (offset size : UInt64) :
    (map memory offset size).Confined SameInfo := fun t =>
  sameInfo_of_remap some (t.map_ends memory offset size)

theorem unmap_sameInfo (memory : Handle) : (unmap memory).Confined SameInfo := fun t =>
  sameInfo_of_remap (fun _ => none) (t.unmap_ends memory)

theorem unlinked_info : Unlinked fun m => (m.device, m.info) := fun _ _ _ _ => rfl

/-- What is live is of the same size and properties. -/
theorem SameInfo.info (same : SameInfo t u) {o : MemoryObject} (ho : t.objects.find? memory = some o) :
    ∃ o', u.objects.find? memory = some o' ∧ o'.info = o.info := by
  have parts := same memory
  rw [ho, Option.map_some] at parts
  obtain ⟨o', ho', he⟩ := Option.map_eq_some_iff.mp parts
  exact ⟨o', ho', (Prod.mk.inj he).2⟩

/-- The same allocations are live. -/
theorem SameInfo.isSome (same : SameInfo t u) (g : Handle) :
    (u.objects.find? g).isSome = (t.objects.find? g).isSome := by
  rw [← Option.isSome_map (f := fun m => (m.device, m.info)), same g, Option.isSome_map]

theorem addBinding_sameInfo (memory resource : Handle) :
    (addBinding memory resource).Confined SameInfo := addBinding_same unlinked_info memory resource

theorem removeBinding_sameInfo (memory resource : Handle) :
    (removeBinding memory resource).Confined SameInfo :=
  removeBinding_same unlinked_info memory resource

theorem addCommandBuffer_sameInfo (memory cb : Handle) :
    (addCommandBuffer memory cb).Confined SameInfo := addCommandBuffer_same unlinked_info memory cb

theorem removeCommandBuffer_sameInfo (memory cb : Handle) :
    (removeCommandBuffer memory cb).Confined SameInfo :=
  removeCommandBuffer_same unlinked_info memory cb

end MemoryTracker

/-! ## Command buffers -/

namespace CommandTracker

variable {gone : Handle → Prop} {t u : CommandTracker}

/-- No command buffer is entered, in the records or in a pool, and only given ones are
struck out. -/
structure Thins (gone : Handle → Prop) (t u : CommandTracker) : Prop where
  /-- What is live was live before. -/
  fewer : ∀ c, (u.buffers.find? c).isSome → (t.buffers.find? c).isSome
  /-- What was live is live, unless it is given. -/
  stays : ∀ c, ¬gone c → (t.buffers.find? c).isSome → (u.buffers.find? c).isSome
  /-- What a pool lists it listed before. -/
  listed : ∀ p pool c, u.pools.find? p = some pool → c ∈ pool.buffers →
    ∃ old, t.pools.find? p = some old ∧ c ∈ old.buffers

instance : IsPreorder CommandTracker (Thins gone) where
  refl _ := ⟨fun _ h => h, fun _ _ h => h, fun _ pool _ hp hc => ⟨pool, hp, hc⟩⟩
  trans _ _ _ h k := by
    refine ⟨fun c hc => h.fewer c (k.fewer c hc), fun c hg hc => k.stays c hg (h.stays c hg hc),
      fun p pool c hp hc => ?_⟩
    obtain ⟨mid, hm, hcm⟩ := k.listed p pool c hp hc
    exact h.listed p mid c hm hcm

/-- The records of command buffers change, and the pools stay. -/
theorem thins_of_same (live : ∀ c, (u.buffers.find? c).isSome = (t.buffers.find? c).isSome)
    (pools : u.pools = t.pools) : Thins gone t u :=
  ⟨fun c h => live c ▸ h, fun c _ h => live c ▸ h, fun _ pool _ hp hc => ⟨pool, pools ▸ hp, hc⟩⟩

theorem thins_change (cb : Handle) (f : CommandBuffer → CommandBuffer) :
    Thins gone t (t.change cb f) := by
  refine thins_of_same (fun c => ?_) rfl
  rw [find?_change]
  split
  · rw [Option.isSome_map]
  · rfl

theorem thins_submitted (cbs : List Handle) (s : Submission) : Thins gone t (t.submitted cbs s) := by
  refine thins_of_same (fun c => ?_) (pools_submitted s cbs t)
  rw [find?_submitted]
  split
  · rw [Option.isSome_map]
  · rfl

theorem thins_strike {buffers : Registry .commandBuffer CommandBuffer} {cb : Handle}
    (given : gone cb) (view : ∀ g, buffers.find? g = if g = cb then none else t.buffers.find? g) :
    Thins gone t { t with buffers } := by
  refine ⟨fun c hc => ?_, fun c hg hc => ?_, fun _ pool _ hp hc => ⟨pool, hp, hc⟩⟩
  · have hc : (buffers.find? c).isSome := hc
    rw [view] at hc
    split at hc
    · cases hc
    · exact hc
  · show (buffers.find? c).isSome
    have other : c ≠ cb := fun here => hg (here ▸ given)
    rw [view, if_neg other]
    exact hc

/-- A pool no longer lists some command buffers. -/
theorem thins_delist (p : Handle) {f : CommandPool → CommandPool}
    (hf : ∀ pool c, c ∈ (f pool).buffers → c ∈ pool.buffers) :
    Thins gone t { t with pools := t.pools.modify p f } := by
  refine ⟨fun _ h => h, fun _ _ h => h, fun q pool c hp hc => ?_⟩
  have hp : (t.pools.modify p f).find? q = some pool := hp
  rw [Registry.find?_modify] at hp
  split at hp
  · obtain ⟨old, ho, rfl⟩ := Option.map_eq_some_iff.mp hp
    exact ⟨old, ho, hf old c hc⟩
  · exact ⟨pool, hp, hc⟩

theorem thins_removePool {p : Handle} {pool : CommandPool}
    {pools : Registry .commandPool CommandPool} (h : t.pools.unregister p = .ok (pool, pools)) :
    Thins gone t { t with pools } := by
  refine ⟨fun _ h => h, fun _ _ h => h, fun q pool' c hp hc => ?_⟩
  have hp : pools.find? q = some pool' := hp
  rw [Registry.find?_unregister h] at hp
  split at hp
  · cases hp
  · exact ⟨pool', hp, hc⟩

theorem finish_thins (cb : Handle) : (finish cb).Confined (Thins gone) :=
  confined_finish fun _ _ _ _ => thins_change cb _

end CommandTracker

/-! ## Queues -/

namespace QueueTracker

variable {t u : QueueTracker}

/-- The same queues are live. -/
def SameQueues (t u : QueueTracker) : Prop :=
  ∀ g, (u.queues.find? g).isSome = (t.queues.find? g).isSome

instance : IsPreorder QueueTracker SameQueues where
  refl _ _ := rfl
  trans _ _ _ h k g := (k g).trans (h g)

theorem sameQueues_of_eq (h : u.queues = t.queues) : SameQueues t u := fun g => by rw [h]

theorem sameQueues_modify (queue : Handle) (f : Queue → Queue) :
    SameQueues t { t with queues := t.queues.modify queue f } := fun g => by
  rw [Registry.find?_modify]
  split
  · rw [Option.isSome_map]
  · rfl

/-- An operation that leaves the queues or is refused. -/
theorem sameQueues_of_ends {α : Type} {x : Track QueueTracker α} {good : α → QueueTracker → Prop}
    (hx : x.Ends t good (Track.Refused t)) (same : ∀ a u, good a u → u.queues = t.queues) :
    x.Ends t (fun _ => SameQueues t) fun _ => SameQueues t :=
  hx.mono (fun a u hu => sameQueues_of_eq (same a u hu)) fun _ _ hu => by
    rw [hu.2]
    exact refl_of SameQueues t

end QueueTracker

/-! ## Retirements -/

namespace Trackers

section Retirements

variable {R : Trackers → Trackers → Prop} [IsPreorder Trackers R]

theorem confined_retireCommandBuffer {cb : Handle} (clears : (clear cb).Confined R) (s : Nat) :
    (retireCommandBuffer s cb).Confined R := by
  refine confined_get.bind fun t => ?_
  split
  · exact confined_throw _
  · split
    · exact clears.bind fun _ => confined_debug _
    · exact confined_pure _

/-- A retirement moves queues on, and deals with one command buffer after another. -/
theorem confined_retireUpTo (retires : ∀ s cb, (retireCommandBuffer s cb).Confined R)
    (moves : ∀ (t : Trackers) queues, t.queues.SameQueues queues → R t { t with queues })
    (r : Retirement) : (retireUpTo r).Confined R := by
  have moved : (modify fun t : Trackers => { t with queues := { t.queues with
      queues := t.queues.queues.modify r.queue (·.retired r.upTo) } } :
      Track Trackers PUnit).Confined R :=
    confined_modify fun t => moves t _ (t.queues.sameQueues_modify r.queue _)
  have signaled : ∀ b, (modify fun t => { t with queues := afterBatch t.queues b } :
      Track Trackers PUnit).Confined R := fun b =>
    confined_modify fun t => moves t _ (QueueTracker.sameQueues_of_eq rfl)
  have batches : ∀ b, (retireBatch b).Confined R := fun b =>
    (signaled b).bind fun _ => Confined.forM (retires b.sequence) b.commandBuffers
  refine (confined_query _).bind fun q => (confined_ofExcept _).bind fun _ => moved.bind fun _ =>
    (Confined.forM batches (q.due r.upTo)).bind fun _ => ?_
  split
  · exact (confined_debug _).bind fun _ => confined_pure _
  · exact confined_pure _

end Retirements

end Trackers

/-! ## The books -/

namespace Trackers

variable {α : Type} {gone : Handle → Prop} {t u : Trackers}

/-- Nothing is entered, and nothing is struck out but given command buffers. -/
structure Keeps (gone : Handle → Prop) (t u : Trackers) : Prop where
  /-- The resources stay. -/
  resources : u.resources = t.resources
  /-- The allocations stay. -/
  memory : t.memory.SameInfo u.memory
  /-- No command buffer is entered. -/
  commands : t.commands.Thins gone u.commands
  /-- The queues stay. -/
  queues : t.queues.SameQueues u.queues

instance : IsPreorder Trackers (Keeps gone) where
  refl t := ⟨rfl, refl_of _ t.memory, refl_of _ t.commands, refl_of _ t.queues⟩
  trans _ _ _ h k := ⟨k.resources.trans h.resources, trans_of _ h.memory k.memory,
    trans_of _ h.commands k.commands, trans_of _ h.queues k.queues⟩

theorem keeps_refl (t : Trackers) : Keeps gone t t := refl_of (Keeps gone) t

theorem onMemory_keeps {x : Track MemoryTracker α} (hx : x.Confined MemoryTracker.SameInfo) :
    (onMemory x).Confined (Keeps gone) :=
  hx.within fun t _ h => ⟨rfl, h, refl_of _ t.commands, refl_of _ t.queues⟩

theorem onCommands_keeps {x : Track CommandTracker α} (hx : x.Confined (CommandTracker.Thins gone)) :
    (onCommands x).Confined (Keeps gone) :=
  hx.within fun t _ h => ⟨rfl, refl_of _ t.memory, h, refl_of _ t.queues⟩

theorem onQueues_keeps {x : Track QueueTracker α} (hx : x.Confined QueueTracker.SameQueues) :
    (onQueues x).Confined (Keeps gone) :=
  hx.within fun t _ h => ⟨rfl, refl_of _ t.memory, refl_of _ t.commands, h⟩

/-- Only the command buffers change. -/
theorem keeps_commands {commands : CommandTracker} (h : t.commands.Thins gone commands) :
    Keeps gone t { t with commands } :=
  ⟨rfl, refl_of _ t.memory, h, refl_of _ t.queues⟩

/-- Only the queues change. -/
theorem keeps_queues {queues : QueueTracker} (h : t.queues.SameQueues queues) :
    Keeps gone t { t with queues } :=
  ⟨rfl, refl_of _ t.memory, refl_of _ t.commands, h⟩

/-! ### Recording -/

theorem change_keeps (cb : Handle) (f : CommandBuffer → CommandBuffer) :
    (modify fun t => { t with commands := t.commands.change cb f } :
      Track Trackers PUnit).Confined (Keeps gone) :=
  confined_modify fun _ => keeps_commands (CommandTracker.thins_change cb f)

theorem releaseLinks_keeps (cb : Handle) (memories : List Handle) :
    (releaseLinks cb memories).Confined (Keeps gone) :=
  Confined.forM (fun memory => (onMemory_keeps
    (MemoryTracker.removeCommandBuffer_sameInfo memory cb)).discard.restate _) memories

theorem releaseAll_keeps (cb : Handle) : (releaseAll cb).Confined (Keeps gone) :=
  (confined_query _).bind fun _ => Confined.bind (change_keeps cb _) fun _ =>
    releaseLinks_keeps cb _

theorem clear_keeps (cb : Handle) : (clear cb).Confined (Keeps gone) :=
  (releaseAll_keeps cb).bind fun _ => change_keeps cb _

theorem begin_keeps (cb : Handle) (usage : CommandBufferUsage) :
    (begin cb usage).Confined (Keeps gone) :=
  (confined_query _).bind fun _ => (releaseAll_keeps cb).bind fun _ =>
    Confined.bind (change_keeps cb _) fun _ => confined_debug _

theorem reset_keeps (cb : Handle) : (reset cb).Confined (Keeps gone) :=
  confined_reset (clear_keeps cb)

theorem recordLink_keeps (cb memory : Handle) : (recordLink cb memory).Confined (Keeps gone) :=
  (confined_query _).bind fun _ => (onMemory_keeps
    (MemoryTracker.addCommandBuffer_sameInfo memory cb)).discard.bind fun _ => change_keeps cb _

theorem record_keeps (cb : Handle) (command : Command) :
    (record cb command).Confined (Keeps gone) :=
  confined_record (recordLink_keeps cb) command

/-! ### Destruction -/

theorem destroyCommandBuffer_keeps {cb : Handle} (given : gone cb) :
    (destroyCommandBuffer cb).Confined (Keeps gone) :=
  confined_destroyCommandBuffer
    (fun _ _ _ view => keeps_commands (CommandTracker.thins_strike given view))
    (releaseLinks_keeps cb)
    fun _ pool => keeps_commands (CommandTracker.thins_delist pool fun _ _ hc =>
      (Handle.mem_erase.mp hc).2)

theorem destroyPool_keeps (pool : Handle) (given : ∀ c, gone c) :
    (destroyPool pool).Confined (Keeps gone) :=
  confined_destroyPool (fun c => destroyCommandBuffer_keeps (given c))
    (fun _ _ _ _ hr => keeps_commands (CommandTracker.thins_removePool hr)) pool

theorem resetPool_keeps (pool : Handle) : (resetPool pool).Confined (Keeps gone) :=
  confined_resetPool reset_keeps pool

theorem freeCommandBuffers_keeps (pool : Handle) {cbs : List Handle} (given : ∀ c ∈ cbs, gone c) :
    (freeCommandBuffers pool cbs).Confined (Keeps gone) :=
  confined_freeCommandBuffers (fun c hc => destroyCommandBuffer_keeps (given c hc)) pool

/-! ### Queues -/

theorem destroyFence_keeps (fence : Handle) :
    (onQueues (QueueTracker.destroyFence fence)).Confined (Keeps gone) :=
  onQueues_keeps fun t =>
    QueueTracker.sameQueues_of_ends (t.destroyFence_ends fence) fun _ _ h => h.2.1

theorem resetFences_keeps (fences : List Handle) :
    (onQueues (QueueTracker.resetFences fences)).Confined (Keeps gone) :=
  onQueues_keeps fun t =>
    QueueTracker.sameQueues_of_ends (t.resetFences_ends fences) fun _ _ h => h.2.1

theorem destroySemaphore_keeps (semaphore : Handle) :
    (onQueues (QueueTracker.destroySemaphore semaphore)).Confined (Keeps gone) :=
  onQueues_keeps fun t =>
    QueueTracker.sameQueues_of_ends (t.destroySemaphore_ends semaphore) fun _ _ h => h.1

theorem submit_keeps (queue : Handle) (submits : List SubmitBatch) (fence : Option Handle) :
    (submit queue submits fence).Confined (Keeps gone) := by
  intro t
  refine (submit_ends t queue submits fence).mono (fun _ u hu => ?_) fun _ _ hu => ?_
  · obtain ⟨q, -, -, -, rfl, -⟩ := hu
    exact ⟨rfl, refl_of _ t.memory, CommandTracker.thins_submitted _ _,
      t.queues.sameQueues_modify queue _⟩
  · rw [hu.2]
    exact keeps_refl t

/-- A retirement strikes out nothing and enters nothing. -/
theorem retireUpTo_keepsStock (r : Retirement) : (retireUpTo r).Confined (Keeps gone) :=
  confined_retireUpTo (fun s cb => confined_retireCommandBuffer (clear_keeps cb) s)
    (fun _ _ same => keeps_queues same) r

theorem keeps_retired (t : Trackers) (r : Retirement) :
    Keeps (fun _ => False) t ((retireUpTo r).on t).state :=
  (retireUpTo_keepsStock r).state t

end Trackers

end GpuAudit
