import GpuAudit.Proofs.Binding
import GpuAudit.Proofs.Creation
import GpuAudit.Proofs.Submission

/-!
# Calls make edits or are refused

`validate_ends` is the one theorem on the calls that are checked and applied before
the driver sees them: a call makes edits, which strike out only command buffers that
it gives up, or it is refused.  Submissions have a theorem of their own,
`submit_ends`.  Striking out a swapchain that was entered half way is the only call
that fails after it has changed something.

`recordCreation_ends` is the theorem on what is entered after the driver has
answered; a creation may stop half way.
-/

namespace GpuAudit.Trackers

open Track (Refused)

variable {t u : Trackers}

/-- Whether a call submits work. -/
def Submits : Call → Prop
  | .queueSubmit .. => True
  | _ => False

/-- Whether a call strikes out a swapchain. -/
def EndsSwapchain : Call → Prop
  | .destroySwapchain .. => True
  | _ => False

theorem Submits.eq {call : Call} (h : Submits call) :
    ∃ queue batches fence, call = .queueSubmit queue batches fence := by
  cases call with
  | queueSubmit queue batches fence => exact ⟨queue, batches, fence, rfl⟩
  | _ => exact h.elim

theorem EndsSwapchain.eq {call : Call} (h : EndsSwapchain call) :
    ∃ device s, call = .destroySwapchain device s := by
  cases call with
  | destroySwapchain device s => exact ⟨device, s, rfl⟩
  | _ => exact h.elim

theorem ends_nothing {α : Type} {x : Track Trackers α} {good : List Handle → Trackers → Prop}
    {bad : Violation → Trackers → Prop} :
    (validate.nothing x).Ends t good bad ↔ x.Ends t (fun _ => good []) bad := by
  unfold validate.nothing
  rw [Track.ends_bind, Track.ends_discard]
  exact Iff.rfl

/-- A call that only asks makes no edit. -/
theorem nothing_of_asks {α : Type} {x : Track Trackers α} (hx : x.Asks) :
    (validate.nothing x).Ends t (fun released u => Edits released t u) (Fails t) := by
  rw [ends_nothing]
  refine (hx t).mono (fun _ u hu => ?_) fun _ _ hv => .inl hv
  rw [hu]

/-- A call that makes edits or is refused. -/
theorem nothing_of_edits {α : Type} {x : Track Trackers α}
    (hx : x.Ends t (fun _ u => Edits [] t u) (Refused t)) :
    (validate.nothing x).Ends t (fun released u => Edits released t u) (Fails t) := by
  rw [ends_nothing]
  exact hx.mono (fun _ _ hu => hu) fun _ _ hv => .inl hv

/-- An operation on the allocations that makes an edit or is refused. -/
theorem onMemory_ends {α : Type} {x : Track MemoryTracker α} {gone : List Handle}
    {good : α → MemoryTracker → Prop} (hx : x.Ends t.memory good (Refused t.memory))
    (hg : ∀ a memory, good a memory → Edit gone t { t with memory }) :
    (onMemory x).Ends t (fun _ u => Edits gone t u) (Refused t) := by
  unfold onMemory
  rw [Track.ends_within]
  exact hx.mono (fun a m ha => .single (hg a m ha)) fun _ m hm => ⟨hm.1, by rw [hm.2]⟩

/-- A binding of a resource of this device's memory. -/
theorem bindMemory_ends (h : t.Sound) (owners : Owners) (device r memory : Handle)
    (offset : UInt64) (kind : ObjectKind) :
    (validate.nothing do
      Track.ofExcept (checkMemoryDevice owners device r memory)
      bind r memory offset kind).Ends t
      (fun released u => Edits released t u) (Fails t) := by
  rw [ends_nothing]
  exact (Track.asks_ofExcept (mild_checkMemoryDevice owners device r memory)).before
    (fun _ _ => bind_ends [] h r memory offset kind) fun _ hv => fails_of_refused hv

theorem validate_ends (h : t.Sound) (owners : Owners) (device : Handle) (call : Call)
    (submits : ¬Submits call) (swapchain : ¬EndsSwapchain call)
    (owned : ∀ cb flags, call = .beginCommandBuffer cb flags →
      ∀ b, t.commands.buffers.find? cb = some b → t.commands.Member cb) :
    (validate owners device call).Ends t (fun released u => Edits released t u) (Fails t) := by
  cases call with
  | createDevice | destroyDevice | deviceWaitIdle => exact .refl
  | getDeviceQueue _ queue => exact nothing_of_asks (Track.asks_ofExcept (mild_expectKind queue _))
  | allocateMemory _ memory info =>
      exact nothing_of_asks (Track.asks_query fun t => mild_expectNew _ memory)
  | freeMemory _ memory =>
      show (discard (onMemory (MemoryTracker.free memory)) >>= fun _ => pure [memory]).Ends t _ _
      rw [Track.ends_bind, Track.ends_discard]
      exact (onMemory_ends (MemoryTracker.free_ends h.linked.tallied memory)
        fun _ _ hm => .freed hm.1 hm.2.1 hm.2.2).mono (fun _ _ hu => hu) fun _ _ hv => .inl hv
  | mapMemory _ memory offset size =>
      refine nothing_of_edits (onMemory_ends (t.memory.map_ends memory offset size)
        fun range _ hm => ?_)
      obtain ⟨⟨m, live⟩, rfl⟩ := hm
      exact .remapped (some range) live
  | unmapMemory _ memory =>
      refine nothing_of_edits (onMemory_ends (t.memory.unmap_ends memory) fun _ _ hm => ?_)
      obtain ⟨⟨m, live⟩, rfl⟩ := hm
      exact .remapped none live
  | createBuffer _ buffer info =>
      exact nothing_of_asks (Track.asks_query fun t => mild_newResource buffer _ t)
  | createImage _ image info =>
      exact nothing_of_asks (Track.asks_query fun t => mild_newResource image _ t)
  | destroyBuffer _ buffer =>
      exact nothing_of_edits ((Track.asks_ofExcept (mild_expectKind buffer _)).before
        (fun _ _ => destroyResource_ends [] h buffer) fun _ hv => ⟨hv, rfl⟩)
  | destroyImage _ image =>
      exact nothing_of_edits ((Track.asks_ofExcept (mild_expectKind image _)).before
        (fun _ _ => destroyResource_ends [] h image) fun _ hv => ⟨hv, rfl⟩)
  | bindBufferMemory _ buffer memory offset =>
      exact bindMemory_ends h owners device buffer memory offset _
  | bindImageMemory _ image memory offset =>
      exact bindMemory_ends h owners device image memory offset _
  | unbindMemory _ resource => exact nothing_of_edits (unbind_ends [] h resource)
  | queueBindSparse queue binds =>
      refine ends_nothing.mpr ((Track.asks_query fun t => t.queues.mild_queue queue).discard.before
        (fun _ _ => ?_) fun _ hv => fails_of_refused hv)
      refine (Track.Asks.forM (fun b => ?_) binds).before (fun _ _ => bindSparse_ends [] h binds)
        fun _ hv => fails_of_refused hv
      cases b.memory with
      | none => exact Track.asks_pure _
      | some memory =>
          exact Track.asks_ofExcept (mild_checkMemoryDevice owners device b.resource memory)
  | createSwapchain _ s images usage =>
      exact nothing_of_asks (Track.asks_ofExcept (mild_expectKind s _))
  | destroySwapchain => exact absurd trivial swapchain
  | createCommandPool _ pool flags =>
      exact nothing_of_asks (Track.asks_ofExcept (mild_expectKind pool _))
  | destroyCommandPool _ pool =>
      exact (destroyPool_ends h pool).mono (fun _ _ hu => hu.2.1) fun _ _ hv => .inl hv
  | resetCommandPool _ pool =>
      exact nothing_of_edits ((resetPool_ends [] h pool).mono (fun _ _ hu => hu.2) fun _ _ hv => hv)
  | allocateCommandBuffers _ pool cbs =>
      exact nothing_of_asks (Track.asks_query fun t => mild_newCommandBuffers pool cbs t)
  | freeCommandBuffers _ pool cbs =>
      show (freeCommandBuffers pool cbs >>= fun _ => pure cbs).Ends t _ _
      rw [Track.ends_bind]
      exact (freeCommandBuffers_ends h pool cbs).mono (fun _ _ hu => hu.2.1) fun _ _ hv => .inl hv
  | beginCommandBuffer cb flags =>
      exact nothing_of_edits ((begin_ends [] h cb flags (owned cb flags rfl)).mono
        (fun _ _ hu => hu.2) fun _ _ hv => hv)
  | endCommandBuffer cb => exact nothing_of_edits (finish_ends [] t cb)
  | resetCommandBuffer cb =>
      exact nothing_of_edits ((reset_ends [] h cb).mono (fun _ _ hu => hu.2) fun _ _ hv => hv)
  | recordCommand cb command =>
      exact ends_nothing.mpr (record_ends [] h cb command)
  | createFence _ fence _ =>
      exact nothing_of_asks (Track.asks_ofExcept (mild_expectKind fence _))
  | destroyFence _ fence =>
      exact nothing_of_edits (signaled_ends [] t (t.queues.destroyFence_ends fence)
        fun _ _ hq => hq.2.1)
  | resetFences _ fences =>
      exact nothing_of_edits (signaled_ends [] t (t.queues.resetFences_ends fences)
        fun _ _ hq => hq.2.1)
  | getFenceStatus _ fence =>
      exact nothing_of_asks (Track.asks_query fun t => t.queues.mild_fence fence)
  | waitForFences _ fences _ =>
      exact nothing_of_asks (Track.Asks.forM (fun fence =>
        (Track.asks_query fun t => t.queues.mild_fence fence).discard) fences)
  | createSemaphore _ semaphore =>
      exact nothing_of_asks (Track.asks_ofExcept (mild_expectKind semaphore _))
  | destroySemaphore _ semaphore =>
      exact nothing_of_edits (signaled_ends [] t (t.queues.destroySemaphore_ends semaphore)
        fun _ _ hq => hq.1)
  | queueSubmit => exact absurd trivial submits
  | queueWaitIdle queue =>
      exact nothing_of_asks (Track.asks_query fun t => t.queues.mild_queue queue)

/-- A submission is entered as one batch, or refused. -/
theorem validate_submit_ends (owners : Owners) (device queue : Handle)
    (submits : List SubmitBatch) (fence : Option Handle) :
    (validate owners device (.queueSubmit queue submits fence)).Ends t
      (fun released u => released = [] ∧ ∃ q, t.queues.queues.find? queue = some q ∧
        (∀ c ∈ submits.flatMap (·.commandBuffers),
          t.commands.checkSubmittable t.queues c = .ok ()) ∧
        u = t.withBatch queue submits (t.batchOf q submits fence)) (Refused t) :=
  ends_nothing.mpr ((submit_ends t queue submits fence).mono
    (fun _ _ ⟨q, hq, _, ready, hu, _⟩ => ⟨rfl, q, hq, ready, hu⟩) fun _ _ hv => hv)

/-- A swapchain is struck out, perhaps with a violation, or the call is refused. -/
theorem validate_destroySwapchain_ends (h : t.Sound) (owners : Owners) (device d s : Handle) :
    (validate owners device (.destroySwapchain d s)).Ends t
      (fun released u => Edits released t u) fun v u => Refused t v u ∨ Edits [] t u := by
  refine ends_nothing.mpr ?_
  unfold onResources
  rw [Track.ends_within]
  refine (ResourceTracker.destroySwapchain_ends h.chained s).mono (fun _ _ hr => ?_)
    fun _ _ hv => ?_
  · exact .single (.resources hr.edit)
  · rcases hv with hv | hr
    · exact .inl ⟨hv.1, by rw [hv.2]⟩
    · exact .inr (.single (.resources hr.edit))

/-- The books after a submission has been entered. -/
def Submitted (t : Trackers) (call : Call) (u : Trackers) : Prop :=
  ∃ queue submits fence q, call = .queueSubmit queue submits fence ∧
    t.queues.queues.find? queue = some q ∧
    (∀ c ∈ submits.flatMap (·.commandBuffers), t.commands.checkSubmittable t.queues c = .ok ()) ∧
    u = t.withBatch queue submits (t.batchOf q submits fence)

/-- Every call makes edits, or is entered as a submission, or fails. -/
theorem validate_call_ends (h : t.Sound) (owners : Owners) (device : Handle) (call : Call)
    (owned : ∀ cb flags, call = .beginCommandBuffer cb flags →
      ∀ b, t.commands.buffers.find? cb = some b → t.commands.Member cb) :
    (validate owners device call).Ends t
      (fun released u => Edits released t u ∨ released = [] ∧ Submitted t call u)
      fun v u => Fails t v u ∨ EndsSwapchain call ∧ Edits [] t u := by
  by_cases submits : Submits call
  · obtain ⟨queue, batches, fence, rfl⟩ := submits.eq
    refine (validate_submit_ends owners device queue batches fence).mono
      (fun _ _ hu => ?_) fun _ _ hv => .inl (.inl hv)
    obtain ⟨none, q, hq, ready, hu⟩ := hu
    exact .inr ⟨none, queue, batches, fence, q, rfl, hq, ready, hu⟩
  · by_cases swapchain : EndsSwapchain call
    · obtain ⟨d, s, rfl⟩ := swapchain.eq
      refine (validate_destroySwapchain_ends h owners device d s).mono
        (fun _ _ hu => .inl hu) fun _ _ hv => ?_
      rcases hv with hv | hu
      · exact .inl (.inl hv)
      · exact .inr ⟨swapchain, hu⟩
    · exact (validate_ends h owners device call submits swapchain owned).mono
        (fun _ _ hu => .inl hu) fun _ _ hv => .inl hv

/-! ## After the call -/

/-- What is entered after the driver has answered: edits, and command buffers that the
device gains are listed by their pools. -/
def Records (t : Trackers) (gained : List Handle) (u : Trackers) : Prop :=
  Edits [] t u ∧ ∀ c ∈ gained, c.kind = .commandBuffer → u.commands.Member c

theorem recorded_of_edits {α : Type} {x : Track Trackers α}
    (hx : x.Ends t (fun _ u => Edits [] t u) fun _ u => Edits [] t u) :
    (recordCreation.nothing x).Ends t (Records t) fun _ u => Edits [] t u := by
  unfold recordCreation.nothing
  rw [Track.ends_bind, Track.ends_discard]
  exact hx.mono (fun _ _ hu => ⟨hu, fun _ hc => absurd hc List.not_mem_nil⟩) fun _ _ hu => hu

theorem edits_of_refused {gone : List Handle} {v : Violation} (h : Refused t v u) :
    Edits gone t u := by
  rw [h.2]

theorem recorded_of_asks {α : Type} {x : Track Trackers α} (hx : x.Asks) :
    (recordCreation.nothing x).Ends t (Records t) fun _ u => Edits [] t u :=
  recorded_of_edits ((hx t).mono (fun _ _ hu => by rw [hu]) fun _ _ hv => edits_of_refused hv)

theorem onResources_ends {α : Type} {x : Track ResourceTracker α}
    (hx : x.Ends t.resources (fun _ r => t.resources.Adds r)
      fun v r => Refused t.resources v r ∨ t.resources.Adds r) :
    (onResources x).Ends t (fun _ u => Edits [] t u) fun _ u => Edits [] t u := by
  unfold onResources
  rw [Track.ends_within]
  refine hx.mono (fun _ _ hr => .single (.resources hr.edit)) fun _ _ hv => ?_
  rcases hv with hv | hr
  · rw [hv.2]
  · exact .single (.resources hr.edit)

theorem recordCreation_ends (t : Trackers) (device : Handle) (call : Call) :
    (recordCreation device call).Ends t (Records t) fun _ u => Edits [] t u := by
  have nothing : (pure [] : Track Trackers (List Handle)).Ends t (Records t)
      fun _ u => Edits [] t u := ⟨.refl, fun _ hc => absurd hc List.not_mem_nil⟩
  cases call with
  | getDeviceQueue _ queue =>
      show (onQueues (QueueTracker.addQueue queue) >>= fun added =>
        pure (if added then [queue] else [])).Ends t _ _
      rw [Track.ends_bind]
      refine (onQueues_addQueue_ends [] t queue).mono (fun added u hu => ?_) fun _ _ hv =>
        edits_of_refused hv
      refine ⟨hu.1, fun c hc hk => ?_⟩
      cases added with
      | false => cases hc
      | true =>
          rw [List.mem_singleton.mp hc, hu.2 rfl] at hk
          cases hk
  | allocateMemory _ memory info =>
      show (onMemory (MemoryTracker.allocate memory device info) >>= fun _ =>
        pure [memory]).Ends t _ _
      rw [Track.ends_bind, onMemory, Track.ends_within]
      refine (t.memory.allocate_ends memory device info).mono (fun _ m hm => ?_)
        fun _ m hm => by rw [hm.2]
      refine ⟨.single (.allocated hm.2.1 hm.2.2), fun c hc hk => ?_⟩
      rw [List.mem_singleton.mp hc, hm.1] at hk
      cases hk
  | createBuffer _ buffer info =>
      exact recorded_of_edits (onResources_ends
        ((t.resources.createBuffer_ends buffer info).mono (fun _ _ hr => hr) fun _ _ hv => .inl hv))
  | createImage _ image info =>
      exact recorded_of_edits (onResources_ends
        ((t.resources.createImage_ends image info).mono (fun _ _ hr => hr) fun _ _ hv => .inl hv))
  | createSwapchain _ s images usage =>
      exact recorded_of_edits (onResources_ends (t.resources.createSwapchain_ends s images usage))
  | createCommandPool _ pool flags =>
      exact recorded_of_edits ((createPool_ends [] t pool flags).mono (fun _ _ hu => hu)
        fun _ _ hv => edits_of_refused hv)
  | allocateCommandBuffers _ pool cbs =>
      show (onCommands (CommandTracker.allocate pool cbs) >>= fun _ => pure cbs).Ends t _ _
      rw [Track.ends_bind]
      exact (allocateBuffers_ends [] t pool cbs).mono
        (fun _ _ hu => ⟨hu.1, fun c hc _ => hu.2 c hc⟩) fun _ _ hu => hu
  | createFence _ fence signaled =>
      exact recorded_of_edits ((signaled_ends [] t (t.queues.createFence_ends fence signaled)
        fun _ _ hq => hq.2.1).mono (fun _ _ hu => hu) fun _ _ hv => edits_of_refused hv)
  | createSemaphore _ semaphore =>
      exact recorded_of_edits ((signaled_ends [] t (t.queues.createSemaphore_ends semaphore)
        fun _ _ hq => hq.1).mono (fun _ _ hu => hu) fun _ _ hv => edits_of_refused hv)
  | getFenceStatus _ fence =>
      exact recorded_of_asks (Track.asks_query fun t => t.queues.mild_fenceRetirement fence)
  | waitForFences _ fences waitAll =>
      show (if waitAll = true ∨ fences.length = 1 then _ else _ : Track _ _).Ends t _ _
      by_cases seen : waitAll = true ∨ fences.length = 1
      · rw [if_pos seen]
        exact recorded_of_asks (Track.Asks.forM (fun fence =>
          (Track.asks_query fun t => t.queues.mild_fenceRetirement fence).discard) fences)
      · rw [if_neg seen]
        exact nothing
  | queueWaitIdle queue =>
      exact recorded_of_asks (Track.asks_query fun t => t.queues.mild_idleRetirement queue)
  | createDevice | destroyDevice | deviceWaitIdle | freeMemory | mapMemory | unmapMemory
  | destroyBuffer | destroyImage | bindBufferMemory | bindImageMemory | unbindMemory
  | queueBindSparse | destroySwapchain | destroyCommandPool | resetCommandPool
  | freeCommandBuffers | beginCommandBuffer | endCommandBuffer | resetCommandBuffer
  | recordCommand | destroyFence | resetFences | destroySemaphore | queueSubmit => exact nothing

end GpuAudit.Trackers
