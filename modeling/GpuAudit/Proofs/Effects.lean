import GpuAudit.Proofs.Rebinding
import GpuAudit.Proofs.Validation

/-!
# What calls do to what a device has

`validate_effect` says what a call may do when it is validated, whatever the books are and
wherever it stops.  There are four kinds of effects: nothing is entered and only command
buffers that the call discards are struck out, resources are bound differently, a swapchain
is struck out, or an allocation without links is.  `recordCreation_entry` says the same of
what is entered after the driver has answered.

A device `Tracks` its queues, its allocations and its command buffers.  What it tracks
changes by what a call gives up and by what a call creates.
-/

namespace GpuAudit

open Track (Confined confined_pure confined_throw confined_ofExcept confined_query confined_get
  confined_debug confined_modify confined_update)

namespace Call

/-- A call that names a resource to release its binding or to destroy it. -/
def Releases : Call → Handle → Prop
  | .unbindMemory _ resource, r | .destroyBuffer _ resource, r | .destroyImage _ resource, r =>
      resource = r
  | _, _ => False

/-- A call that names a swapchain to destroy it with its images. -/
def Unchains : Call → Handle → Prop
  | .destroySwapchain _ swapchain, s => swapchain = s
  | _, _ => False

/-- A call that may strike out a command buffer. -/
def Discards : Call → Handle → Prop
  | .destroyCommandPool .., _ => True
  | .freeCommandBuffers _ _ cbs, c => c ∈ cbs
  | _, _ => False

/-- A call that may strike out an allocation. -/
def Frees : Call → Handle → Prop
  | .freeMemory _ memory, m => memory = m
  | _, _ => False

/-- The queues, allocations and command buffers that a call creates. -/
def creates : Call → List Handle
  | .getDeviceQueue _ queue => [queue]
  | .allocateMemory _ memory _ => [memory]
  | .allocateCommandBuffers _ _ cbs => cbs
  | _ => []

end Call

namespace Trackers

variable {α : Type} {t u : Trackers} {call : Call} {new : Handle → Prop}

/-! ## Before the call -/

/-- What a call may do when it is validated. -/
inductive Effect (call : Call) (t : Trackers) : Trackers → Prop
  /-- Nothing is entered, and only what the call discards is struck out. -/
  | kept {u : Trackers} (keeps : Keeps call.Discards t u) : Effect call t u
  /-- Resources are bound differently. -/
  | rebound {u : Trackers} (rebinds : Rebinds call.Releases t u) : Effect call t u
  /-- A swapchain is struck out. -/
  | unchained {s : Handle} {resources : ResourceTracker} (names : call.Unchains s)
      (unchains : t.resources.Unchains s resources) : Effect call t { t with resources }
  /-- An allocation without links is struck out. -/
  | freed {memory : Handle} {m : MemoryObject} {allocations : MemoryTracker}
      (frees : call.Frees memory)
      (old : t.memory.objects.find? memory = some m) (unlinked : m.links = 0)
      (view : ∀ g, allocations.objects.find? g =
        if g = memory then none else t.memory.objects.find? g) :
      Effect call t { t with memory := allocations }

theorem effect_refl (t : Trackers) : Effect call t t := .kept (keeps_refl t)

/-- A call by which nothing is given up, and nothing struck out but what it discards. -/
theorem effect_of_keeps {x : Track Trackers α} (hx : x.Confined (Keeps call.Discards)) :
    (validate.nothing x).Ends t (fun _ => Effect call t) fun _ => Effect call t :=
  ends_nothing.mpr ((hx t).mono (fun _ _ => .kept) fun _ _ => .kept)

theorem effect_of_rebinds {x : Track Trackers α} (hx : x.Confined (Rebinds call.Releases)) :
    (validate.nothing x).Ends t (fun _ => Effect call t) fun _ => Effect call t :=
  ends_nothing.mpr ((hx t).mono (fun _ _ => .rebound) fun _ _ => .rebound)

theorem validate_effect (chained : t.resources.Chained) (owners : Owners) (device : Handle)
    (call : Call) :
    (validate owners device call).Ends t (fun _ => Effect call t) fun _ => Effect call t := by
  cases call with
  | createDevice | destroyDevice | deviceWaitIdle => exact effect_refl t
  | getDeviceQueue | createSwapchain | createCommandPool | createFence | createSemaphore =>
      exact effect_of_keeps (confined_ofExcept _)
  | allocateMemory | createBuffer | createImage | allocateCommandBuffers | getFenceStatus
  | queueWaitIdle => exact effect_of_keeps (confined_query _)
  | waitForFences _ fences _ =>
      exact effect_of_keeps (Confined.forM (fun _ => (confined_query _).discard) fences)
  | freeMemory _ memory =>
      show (discard (onMemory (MemoryTracker.free memory)) >>= fun _ => pure [memory]).Ends t _ _
      rw [Track.ends_bind, Track.ends_discard, onMemory, Track.ends_within]
      refine (t.memory.free_strikes memory).mono (fun _ _ hu => .freed rfl hu.1 hu.2.1 hu.2.2)
        fun _ _ hu => ?_
      rw [hu.1]
      exact effect_refl t
  | mapMemory _ memory offset size =>
      exact effect_of_keeps (onMemory_keeps (MemoryTracker.map_sameInfo memory offset size))
  | unmapMemory _ memory =>
      exact effect_of_keeps (onMemory_keeps (MemoryTracker.unmap_sameInfo memory))
  | destroyBuffer _ buffer =>
      exact effect_of_rebinds ((confined_ofExcept _).bind fun _ => destroyResource_rebinds buffer rfl)
  | destroyImage _ image =>
      exact effect_of_rebinds ((confined_ofExcept _).bind fun _ => destroyResource_rebinds image rfl)
  | bindBufferMemory | bindImageMemory =>
      exact effect_of_rebinds ((confined_ofExcept _).bind fun _ => bind_rebinds _ _ _ _)
  | unbindMemory _ resource =>
      exact effect_of_rebinds fun t => unbind_rebinds t fun _ _ _ => rfl
  | queueBindSparse queue binds =>
      refine effect_of_rebinds ((confined_query _).discard.bind fun _ =>
        (Confined.forM (fun b => ?_) binds).bind fun _ => bindSparse_rebinds binds)
      cases b.memory with
      | none => exact confined_pure _
      | some memory => exact confined_ofExcept _
  | destroySwapchain _ swapchain =>
      refine ends_nothing.mpr ?_
      unfold onResources
      rw [Track.ends_within]
      refine (ResourceTracker.destroySwapchain_ends chained swapchain).mono
        (fun _ _ unchains => .unchained rfl unchains) fun _ _ hu => ?_
      rcases hu with refused | unchains
      · rw [refused.2]
        exact effect_refl t
      · exact .unchained rfl unchains
  | destroyCommandPool d pool =>
      have keeps : (destroyPool pool).Confined (Keeps (Call.destroyCommandPool d pool).Discards) :=
        destroyPool_keeps pool fun _ => trivial
      exact (keeps t).mono (fun _ _ => .kept) fun _ _ => .kept
  | resetCommandPool _ pool => exact effect_of_keeps (resetPool_keeps pool)
  | freeCommandBuffers d pool cbs =>
      have keeps : (freeCommandBuffers pool cbs).Confined
          (Keeps (Call.freeCommandBuffers d pool cbs).Discards) :=
        freeCommandBuffers_keeps pool fun _ hc => hc
      show (freeCommandBuffers pool cbs >>= fun _ => pure cbs).Ends t _ _
      rw [Track.ends_bind]
      exact (keeps t).mono (fun _ _ => .kept) fun _ _ => .kept
  | beginCommandBuffer cb flags => exact effect_of_keeps (begin_keeps cb flags)
  | endCommandBuffer cb => exact effect_of_keeps (onCommands_keeps (CommandTracker.finish_thins cb))
  | resetCommandBuffer cb => exact effect_of_keeps (reset_keeps cb)
  | recordCommand cb command => exact effect_of_keeps (record_keeps cb command)
  | destroyFence _ fence => exact effect_of_keeps (destroyFence_keeps fence)
  | resetFences _ fences => exact effect_of_keeps (resetFences_keeps fences)
  | destroySemaphore _ semaphore => exact effect_of_keeps (destroySemaphore_keeps semaphore)
  | queueSubmit queue submits fence => exact effect_of_keeps (submit_keeps queue submits fence)

/-! ## After the call -/

end Trackers

/-- Command buffers and pools are entered; `new` says which command buffers may be. -/
structure CommandTracker.Grows (new : Handle → Prop) (t u : CommandTracker) : Prop where
  /-- What was live is live. -/
  stays : ∀ c, (t.buffers.find? c).isSome → (u.buffers.find? c).isSome
  /-- What is live was live, or it is new. -/
  fresh : ∀ c, (u.buffers.find? c).isSome → (t.buffers.find? c).isSome ∨ new c
  /-- What a pool lists it listed before, or it is new. -/
  listed : ∀ p pool c, u.pools.find? p = some pool → c ∈ pool.buffers →
    (∃ old, t.pools.find? p = some old ∧ c ∈ old.buffers) ∨ new c

namespace CommandTracker

variable {new : Handle → Prop} {t u : CommandTracker}

instance : IsPreorder CommandTracker (Grows new) where
  refl _ := ⟨fun _ h => h, fun _ h => .inl h, fun _ pool _ hp hc => .inl ⟨pool, hp, hc⟩⟩
  trans _ _ _ h k := by
    refine ⟨fun c hc => k.stays c (h.stays c hc), fun c hc => (k.fresh c hc).elim (h.fresh c) .inr,
      fun p pool c hp hc => ?_⟩
    rcases k.listed p pool c hp hc with ⟨mid, hm, hcm⟩ | hn
    · exact h.listed p mid c hm hcm
    · exact .inr hn

theorem createPool_grows (pool : Handle) (flags : CommandPoolFlags) :
    (createPool pool flags).Confined (Grows new) := by
  refine confined_createPool fun t pools hr =>
    ⟨fun _ h => h, fun _ h => .inl h, fun p found c hp hc => .inl ?_⟩
  have hp : pools.find? p = some found := hp
  rw [Registry.find?_register hr] at hp
  split at hp
  · cases hp
    simp at hc
  · exact ⟨found, hp, hc⟩

theorem grows_enter {buffers : Registry .commandBuffer CommandBuffer} {cb pool : Handle}
    (given : new cb)
    (view : ∀ g, buffers.find? g = if g = cb then some (.fresh pool) else t.buffers.find? g) :
    Grows new t { t with buffers } := by
  refine ⟨fun c hc => ?_, fun c hc => ?_, fun _ found _ hp hc => .inl ⟨found, hp, hc⟩⟩
  · show (buffers.find? c).isSome
    rw [view]
    split
    · rfl
    · exact hc
  · have hc : (buffers.find? c).isSome := hc
    rw [view] at hc
    split at hc
    next here => exact .inr (here ▸ given)
    · exact .inl hc

theorem grows_enroll (pool : Handle) {cbs : List Handle} (given : ∀ c ∈ cbs, new c) :
    Grows new t { t with
      pools := t.pools.modify pool fun p => { p with buffers := p.buffers.insertMany cbs } } := by
  refine ⟨fun _ h => h, fun _ h => .inl h, fun p found c hp hc => ?_⟩
  have hp : (t.pools.modify pool _).find? p = some found := hp
  rw [Registry.find?_modify] at hp
  split at hp
  · obtain ⟨old, ho, rfl⟩ := Option.map_eq_some_iff.mp hp
    rcases Handle.mem_insertMany.mp hc with hc | hc
    · exact .inl ⟨old, ho, hc⟩
    · exact .inr (given c hc)
  · exact .inl ⟨found, hp, hc⟩

theorem allocate_grows (pool : Handle) {cbs : List Handle} (given : ∀ c ∈ cbs, new c) :
    (allocate pool cbs).Confined (Grows new) :=
  confined_allocate
    (fun c hc _ _ entered => grows_enter (given c hc) (Registry.find?_register entered))
    fun _ => grows_enroll pool given

end CommandTracker

namespace Trackers

variable {α : Type} {t u : Trackers} {call : Call} {new : Handle → Prop}

/-- Nothing is struck out, and only what is new is entered. -/
structure Enters (new : Handle → Prop) (t u : Trackers) : Prop where
  /-- The resources stay. -/
  resources : u.resources = t.resources
  /-- Allocations are entered. -/
  memory : ∀ g, u.memory.objects.find? g = t.memory.objects.find? g ∨
    t.memory.objects.find? g = none ∧ new g
  /-- Command buffers are entered. -/
  commands : t.commands.Grows new u.commands
  /-- Queues are entered. -/
  queues : ∀ g, u.queues.queues.find? g = t.queues.queues.find? g ∨
    t.queues.queues.find? g = none ∧ new g

theorem enters_refl (t : Trackers) : Enters new t t :=
  ⟨rfl, fun _ => .inl rfl, refl_of _ t.commands, fun _ => .inl rfl⟩

/-- What may be entered after the driver has answered. -/
inductive Entry (call : Call) (t : Trackers) : Trackers → Prop
  /-- What the call creates is entered. -/
  | entered {u : Trackers} (enters : Enters (· ∈ call.creates) t u) : Entry call t u
  /-- Resources are entered. -/
  | resources {resources : ResourceTracker} (adds : t.resources.Adds resources) :
      Entry call t { t with resources }

theorem entry_refl (t : Trackers) : Entry call t t := .entered (enters_refl t)

/-- A call that enters fences or semaphores, or only asks. -/
theorem entry_of_queues {x : Track Trackers α}
    (hx : x.Ends t (fun _ u => u = { t with queues := u.queues } ∧
        u.queues.queues = t.queues.queues)
      fun _ u => u = t) :
    (recordCreation.nothing x).Ends t (fun _ => Entry call t) fun _ => Entry call t := by
  unfold recordCreation.nothing
  rw [Track.ends_bind, Track.ends_discard]
  refine hx.mono (fun _ u hu => ?_) fun _ u hu => ?_
  · show Entry call t u
    rw [hu.1]
    exact .entered ⟨rfl, fun _ => .inl rfl, refl_of _ t.commands, fun _ => .inl (by rw [hu.2])⟩
  · rw [hu]
    exact entry_refl t

theorem entry_of_asks {x : Track Trackers α} (hx : x.Asks) :
    (recordCreation.nothing x).Ends t (fun _ => Entry call t) fun _ => Entry call t :=
  entry_of_queues ((hx t).mono (fun _ u hu => by rw [hu]; exact ⟨rfl, rfl⟩) fun _ _ hu => hu.2)

theorem entry_of_adds {x : Track ResourceTracker α}
    (hx : x.Ends t.resources (fun _ r => t.resources.Adds r)
      fun v r => Track.Refused t.resources v r ∨ t.resources.Adds r) :
    (recordCreation.nothing (onResources x)).Ends t (fun _ => Entry call t)
      fun _ => Entry call t := by
  unfold recordCreation.nothing onResources
  rw [Track.ends_bind, Track.ends_discard, Track.ends_within]
  refine hx.mono (fun _ _ adds => .resources adds) fun _ _ hu => ?_
  rcases hu with refused | adds
  · rw [refused.2]
    exact entry_refl t
  · exact .resources adds

theorem entry_of_signaled {x : Track QueueTracker α} {good : α → QueueTracker → Prop}
    (hx : x.Ends t.queues good (Track.Refused t.queues))
    (same : ∀ a q, good a q → q.queues = t.queues.queues) :
    (recordCreation.nothing (onQueues x)).Ends t (fun _ => Entry call t) fun _ => Entry call t := by
  refine entry_of_queues ?_
  unfold onQueues
  rw [Track.ends_within]
  exact hx.mono (fun a q hq => ⟨rfl, same a q hq⟩) fun _ q hq => by rw [hq.2]

theorem recordCreation_entry (t : Trackers) (device : Handle) (call : Call) :
    (recordCreation device call).Ends t (fun _ => Entry call t) fun _ => Entry call t := by
  have commands : ∀ {x : Track CommandTracker Unit},
      x.Confined (CommandTracker.Grows (· ∈ call.creates)) →
      (onCommands x).Ends t (fun _ => Entry call t) fun _ => Entry call t := fun hx => by
    have entered : ∀ c, t.commands.Grows (· ∈ call.creates) c →
        Entry call t { t with commands := c } := fun c grows =>
      .entered ⟨rfl, fun _ => .inl rfl, grows, fun _ => .inl rfl⟩
    unfold onCommands
    rw [Track.ends_within]
    exact (hx t.commands).mono (fun _ => entered) fun _ => entered
  cases call with
  | getDeviceQueue _ queue =>
      show (onQueues (QueueTracker.addQueue queue) >>= fun added =>
        pure (if added then [queue] else [])).Ends t _ _
      rw [Track.ends_bind, onQueues, Track.ends_within]
      refine (t.queues.addQueue_ends queue).mono (fun _ q hq => ?_) fun _ q hq => ?_
      · rcases hq with ⟨-, rfl⟩ | ⟨-, -, new, queues, rfl, view⟩
        · exact entry_refl t
        · refine .entered ⟨rfl, fun _ => .inl rfl, refl_of _ t.commands, fun g => ?_⟩
          show queues.find? g = _ ∨ _
          rw [view]
          split
          next here => exact .inr ⟨here ▸ new, List.mem_singleton.mpr here⟩
          · exact .inl rfl
      · rw [hq.2]
        exact entry_refl t
  | allocateMemory _ memory info =>
      show (onMemory (MemoryTracker.allocate memory device info) >>= fun _ =>
        pure [memory]).Ends t _ _
      rw [Track.ends_bind, onMemory, Track.ends_within]
      refine (t.memory.allocate_ends memory device info).mono (fun _ m hm => ?_) fun _ m hm => ?_
      · refine .entered ⟨rfl, fun g => ?_, refl_of _ t.commands, fun _ => .inl rfl⟩
        show m.objects.find? g = _ ∨ _
        rw [hm.2.2]
        split
        next here => exact .inr ⟨here ▸ hm.2.1, List.mem_singleton.mpr here⟩
        · exact .inl rfl
      · rw [hm.2]
        exact entry_refl t
  | createBuffer _ buffer info =>
      exact entry_of_adds ((t.resources.createBuffer_ends buffer info).mono (fun _ _ hr => hr)
        fun _ _ hv => .inl hv)
  | createImage _ image info =>
      exact entry_of_adds ((t.resources.createImage_ends image info).mono (fun _ _ hr => hr)
        fun _ _ hv => .inl hv)
  | createSwapchain _ s images usage =>
      exact entry_of_adds (t.resources.createSwapchain_ends s images usage)
  | createCommandPool _ pool flags =>
      unfold recordCreation recordCreation.nothing
      rw [Track.ends_bind, Track.ends_discard]
      exact commands (CommandTracker.createPool_grows pool flags)
  | allocateCommandBuffers _ pool cbs =>
      show (onCommands (CommandTracker.allocate pool cbs) >>= fun _ => pure cbs).Ends t _ _
      rw [Track.ends_bind]
      exact commands (CommandTracker.allocate_grows pool fun _ hc => hc)
  | createFence _ fence signaled =>
      exact entry_of_signaled (t.queues.createFence_ends fence signaled) fun _ _ hq => hq.2.1
  | createSemaphore _ semaphore =>
      exact entry_of_signaled (t.queues.createSemaphore_ends semaphore) fun _ _ hq => hq.1
  | getFenceStatus _ fence =>
      exact entry_of_asks (Track.asks_query fun t => t.queues.mild_fenceRetirement fence)
  | waitForFences _ fences waitAll =>
      show (if waitAll = true ∨ fences.length = 1 then _ else _ : Track _ _).Ends t _ _
      split
      · exact entry_of_asks (Track.Asks.forM (fun fence =>
          (Track.asks_query fun t => t.queues.mild_fenceRetirement fence).discard) fences)
      · exact entry_refl t
  | queueWaitIdle queue =>
      exact entry_of_asks (Track.asks_query fun t => t.queues.mild_idleRetirement queue)
  | createDevice | destroyDevice | deviceWaitIdle | freeMemory | mapMemory | unmapMemory
  | destroyBuffer | destroyImage | bindBufferMemory | bindImageMemory | unbindMemory
  | queueBindSparse | destroySwapchain | destroyCommandPool | resetCommandPool
  | freeCommandBuffers | beginCommandBuffer | endCommandBuffer | resetCommandBuffer
  | recordCommand | destroyFence | resetFences | destroySemaphore | queueSubmit =>
      exact entry_refl t

end Trackers

end GpuAudit
