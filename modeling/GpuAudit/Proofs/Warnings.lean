import GpuAudit.Validation
import GpuAudit.Proofs.Ends

/-!
# Warnings are no errors

A verdict asks to skip a call when it has an error among its diagnostics.  What an
operation leaves as a warning is reported with the severity of a warning, whatever
the violation is, so only what stops an operation can be an error.  Nor does an
operation deliver anything: that is left to the end of a hook.  `Gentle` says this of an
operation, and every operation that a hook runs on the books of a device is gentle.
-/

namespace GpuAudit

/-- A line for the log, or a warning that is no error. -/
def Note.Gentle (n : Note) : Prop :=
  n.delivery? = none ∧ ∀ d, n.warning? = some d → d.isError = false

namespace Track

variable {σ τ α β : Type} {x y : Track σ α} {f : α → Track σ β}

/-- An operation leaves only lines for the log, and warnings that are no errors. -/
def Gentle (x : Track σ α) : Prop := ∀ s, ∀ n ∈ (x.on s).notes, n.Gentle

/-! ## Ways to make an operation -/

/-- An operation without notes is gentle. -/
theorem gentle_of_silent (h : ∀ s, (x.on s).notes = []) : x.Gentle := fun s n hn => by
  rw [h s] at hn
  cases hn

theorem gentle_pure (a : α) : (pure a : Track σ α).Gentle := gentle_of_silent fun _ => rfl

theorem gentle_throw (v : Violation) : (throw v : Track σ α).Gentle :=
  gentle_of_silent fun _ => rfl

theorem gentle_get : (get : Track σ σ).Gentle := gentle_of_silent fun _ => rfl

theorem gentle_set (s : σ) : (set s : Track σ PUnit).Gentle := gentle_of_silent fun _ => rfl

theorem gentle_modify (g : σ → σ) : (modify g : Track σ PUnit).Gentle :=
  gentle_of_silent fun _ => rfl

theorem gentle_ofExcept (answer : Except Violation α) :
    (ofExcept answer : Track σ α).Gentle := gentle_of_silent fun _ => rfl

theorem gentle_query (question : σ → Except Violation α) : (query question).Gentle :=
  gentle_of_silent fun _ => rfl

theorem gentle_log (level : LogLevel) (message : String) :
    (log level message : Track σ Unit).Gentle := fun s n hn => by
  rw [on_log, List.mem_singleton] at hn
  rw [hn]
  exact ⟨rfl, fun d hd => nomatch hd⟩

theorem gentle_debug (message : String) : (debug message : Track σ Unit).Gentle :=
  gentle_log .debug message

/-- A warning is reported as a warning. -/
theorem gentle_warn (v : Violation) : (warn v : Track σ Unit).Gentle := fun s n hn => by
  rw [on_warn, List.mem_singleton] at hn
  rw [hn]
  refine ⟨rfl, fun d hd => ?_⟩
  cases hd
  rfl

theorem Gentle.bind (hx : x.Gentle) (hf : ∀ a, (f a).Gentle) : (x >>= f).Gentle :=
  fun s n hn => by
  cases ho : x.on s with
  | mk value t notes =>
      have first : ∀ n ∈ notes, n.Gentle := by
        have := hx s
        rw [ho] at this
        exact this
      cases value with
      | ok a =>
          rw [on_bind_of_ok ho, List.mem_append] at hn
          rcases hn with hn | hn
          · exact first n hn
          · exact hf a t n hn
      | error v =>
          rw [on_bind_of_error ho] at hn
          exact first n hn

theorem Gentle.map {g : α → β} (hx : x.Gentle) : (g <$> x).Gentle := by
  rw [map_eq_pure_bind]
  exact hx.bind fun _ => gentle_pure _

theorem Gentle.discard (hx : x.Gentle) : (discard x).Gentle := hx.map

theorem gentle_update (change : σ → Except Violation σ) : (update change).Gentle :=
  (gentle_query change).bind fun _ => gentle_set _

theorem Gentle.within {get : σ → τ} {set : τ → σ → σ} {x : Track τ α} (hx : x.Gentle) :
    (within get set x).Gentle := fun s => hx (get s)

theorem Gentle.restate {g : Violation → Violation} (hx : x.Gentle) : (x.restate g).Gentle :=
  fun s n hn => by
  rw [on_restate] at hn
  exact hx s n hn

theorem Gentle.ite {c : Prop} [Decidable c] (hx : x.Gentle) (hy : y.Gentle) :
    (if c then x else y).Gentle := by
  split
  · exact hx
  · exact hy

theorem Gentle.forM {g : β → Track σ PUnit} (hg : ∀ b, (g b).Gentle) :
    ∀ bs : List β, (bs.forM g).Gentle
  | [] => gentle_pure _
  | b :: bs => (hg b).bind fun _ => Gentle.forM hg bs

end Track

open Track (Gentle gentle_pure gentle_throw gentle_get gentle_set gentle_modify gentle_ofExcept
  gentle_query gentle_log gentle_debug gentle_warn gentle_update)

/-! ## Operations on one of the books -/

namespace MemoryTracker

theorem gentle_free (memory : Handle) : (free memory).Gentle := by
  refine (gentle_query _).bind fun m => (gentle_ofExcept _).bind fun _ => Gentle.ite ?_ ?_
  · exact (Gentle.forM (fun _ => gentle_log _ _) _).bind fun _ =>
      (Gentle.forM (fun _ => gentle_log _ _) _).bind fun _ => gentle_throw _
  · refine (gentle_update _).bind fun _ => ?_
    cases m.mapped with
    | none => exact (gentle_debug _).bind fun _ => gentle_pure _
    | some range =>
        exact (gentle_debug _).bind fun _ => (gentle_debug _).bind fun _ => gentle_pure _

theorem gentle_map (memory : Handle) (offset size : UInt64) : (map memory offset size).Gentle := by
  refine (gentle_query _).bind fun m => Gentle.ite (gentle_throw _) ?_
  cases m.mapped with
  | none =>
      exact (gentle_ofExcept _).bind fun _ => (gentle_modify _).bind fun _ =>
        (gentle_debug _).bind fun _ => gentle_pure _
  | some current => exact gentle_throw _

theorem gentle_unmap (memory : Handle) : (unmap memory).Gentle := by
  refine (gentle_query _).bind fun m => ?_
  cases m.mapped with
  | none => exact gentle_throw _
  | some range => exact (gentle_modify _).bind fun _ => gentle_pure _

theorem gentle_countUp (memory : Handle) (m : MemoryObject) : (countUp memory m).Gentle :=
  (gentle_modify _).bind fun _ => (gentle_ofExcept _).bind fun _ =>
    (gentle_modify _).bind fun _ => gentle_pure _

theorem gentle_countDown (memory : Handle) (m : MemoryObject) : (countDown memory m).Gentle :=
  (gentle_modify _).bind fun _ => (gentle_ofExcept _).bind fun _ =>
    (gentle_modify _).bind fun _ => gentle_pure _

theorem gentle_addBinding (memory resource : Handle) : (addBinding memory resource).Gentle :=
  (gentle_query _).bind fun _ => Gentle.ite (gentle_throw _) (gentle_countUp _ _)

theorem gentle_removeBinding (memory resource : Handle) :
    (removeBinding memory resource).Gentle :=
  (gentle_query _).bind fun _ => Gentle.ite (gentle_throw _) (gentle_countDown _ _)

theorem gentle_addCommandBuffer (memory cb : Handle) : (addCommandBuffer memory cb).Gentle :=
  (gentle_query _).bind fun _ => Gentle.ite (gentle_pure _) (gentle_countUp _ _)

theorem gentle_removeCommandBuffer (memory cb : Handle) :
    (removeCommandBuffer memory cb).Gentle :=
  (gentle_query _).bind fun _ => Gentle.ite (gentle_throw _) (gentle_countDown _ _)

end MemoryTracker

namespace ResourceTracker

theorem gentle_remove (resource : Handle) : (remove resource).Gentle := by
  refine gentle_get.bind fun t => (gentle_ofExcept _).bind fun r => ?_
  cases resource.kind <;> exact (gentle_update _).bind fun _ => gentle_pure _

theorem gentle_destroySwapchain (s : Handle) : (destroySwapchain s).Gentle :=
  gentle_get.bind fun _ => (gentle_ofExcept _).bind fun _ => (gentle_set _).bind fun _ =>
    (Gentle.forM (fun _ => (gentle_update _).restate) _).bind fun _ =>
      (gentle_debug _).bind fun _ => gentle_pure _

end ResourceTracker

theorem CommandTracker.gentle_finish (cb : Handle) : (finish cb).Gentle :=
  (gentle_query _).bind fun _ => Gentle.ite (gentle_throw _)
    ((gentle_modify _).bind fun _ => gentle_debug _)

namespace QueueTracker

theorem gentle_destroyFence (fence : Handle) : (destroyFence fence).Gentle :=
  (gentle_query _).bind fun _ => Gentle.ite (gentle_throw _)
    ((gentle_update _).bind fun _ => gentle_debug _)

theorem gentle_resetFences (fences : List Handle) : (resetFences fences).Gentle := by
  refine (Gentle.forM (fun fence => ?_) _).bind fun _ => Gentle.forM (fun fence => ?_) _
  · exact (gentle_query _).bind fun _ => Gentle.ite (gentle_throw _) (gentle_pure _)
  · exact (gentle_query _).bind fun _ => Gentle.ite
      ((gentle_warn _).bind fun _ => gentle_modify _) (gentle_modify _)

theorem gentle_destroySemaphore (semaphore : Handle) : (destroySemaphore semaphore).Gentle :=
  (gentle_query _).bind fun _ => Gentle.ite (gentle_throw _) (gentle_update _)

end QueueTracker

namespace Trackers

/-! ## Bindings -/

theorem gentle_bindMemory (r memory : Handle) (offset : UInt64) (kind : ObjectKind) :
    (bind r memory offset kind).Gentle := by
  have rebound : Gentle (do
      modify fun t => { t with resources := t.resources.rebound r (.memory memory offset) }
      Track.debug s!"bound {r} to {memory} at offset {offset}" : Track Trackers Unit) :=
    (gentle_modify _).bind fun _ => gentle_debug _
  have added : (onMemory (MemoryTracker.addBinding memory r)).Gentle :=
    (MemoryTracker.gentle_addBinding memory r).within
  refine (gentle_query _).bind fun previous => ?_
  cases previous with
  | none => exact Gentle.ite (added.discard.bind fun _ => rebound) rebound
  | some old =>
      refine Gentle.ite ?_ (Gentle.ite (added.discard.bind fun _ => rebound) rebound)
      exact (MemoryTracker.gentle_removeBinding old r).within.restate.discard.bind fun _ =>
        Gentle.ite (added.discard.bind fun _ => rebound) rebound

theorem gentle_unbind (r : Handle) : (unbind r).Gentle := by
  refine (gentle_query _).bind fun x => ?_
  cases x.binding with
  | memory memory offset =>
      exact (MemoryTracker.gentle_removeBinding memory r).within.restate.discard.bind fun _ =>
        (gentle_modify _).bind fun _ => (gentle_debug _).bind fun _ => gentle_pure _
  | unbound => exact gentle_throw _
  | swapchain s => exact gentle_throw _

theorem gentle_destroyResource (r : Handle) : (destroyResource r).Gentle := by
  have removed : Gentle (do
      let last ← onResources (ResourceTracker.remove r)
      Track.debug s!"destroyed {r}"
      return last : Track Trackers Resource) :=
    (ResourceTracker.gentle_remove r).within.bind fun _ =>
      (gentle_debug _).bind fun _ => gentle_pure _
  refine (gentle_query _).bind fun x => ?_
  cases x.binding with
  | memory memory offset => exact (gentle_unbind r).discard.bind fun _ => removed
  | unbound => exact removed
  | swapchain s => exact gentle_throw _

theorem gentle_bindSparse (bs : List SparseBind) : (bindSparse bs).Gentle := by
  refine (gentle_query _).bind fun _ => Gentle.forM (fun b => ?_) bs
  unfold applySparse
  cases b.memory with
  | none => exact (gentle_unbind _).discard
  | some memory => exact gentle_bindMemory _ _ _ _

/-! ## Recording -/

theorem gentle_releaseLinks (cb : Handle) (memories : List Handle) :
    (releaseLinks cb memories).Gentle :=
  Gentle.forM (fun memory =>
    (MemoryTracker.gentle_removeCommandBuffer memory cb).within.discard.restate) memories

theorem gentle_releaseAll (cb : Handle) : (releaseAll cb).Gentle :=
  (gentle_query _).bind fun _ => (gentle_modify _).bind fun _ => gentle_releaseLinks _ _

theorem gentle_begin (cb : Handle) (usage : CommandBufferUsage) : (begin cb usage).Gentle :=
  (gentle_query _).bind fun _ => (gentle_releaseAll cb).bind fun _ =>
    (gentle_modify _).bind fun _ => gentle_debug _

theorem gentle_reset (cb : Handle) : (reset cb).Gentle :=
  (gentle_query _).discard.bind fun _ => (gentle_query _).bind fun _ =>
    ((gentle_releaseAll cb).bind fun _ => gentle_modify _).bind fun _ => gentle_debug _

theorem gentle_destroyCommandBuffer (cb : Handle) : (destroyCommandBuffer cb).Gentle :=
  (gentle_query _).discard.bind fun _ => (gentle_query _).bind fun _ => gentle_get.bind fun _ =>
    (gentle_ofExcept _).bind fun _ => (gentle_set _).bind fun _ =>
      (gentle_releaseLinks _ _).bind fun _ => (gentle_modify _).bind fun _ => gentle_debug _

theorem gentle_retiredBuffers (pool : Handle) : (retiredBuffers pool).Gentle :=
  (gentle_query _).bind fun _ => (gentle_query _).bind fun _ => gentle_pure _

theorem gentle_destroyPool (pool : Handle) : (destroyPool pool).Gentle :=
  (gentle_retiredBuffers pool).bind fun owned =>
    (Gentle.forM gentle_destroyCommandBuffer owned).bind fun _ =>
      (gentle_update _).bind fun _ => (gentle_debug _).bind fun _ => gentle_pure _

theorem gentle_resetPool (pool : Handle) : (resetPool pool).Gentle :=
  (gentle_retiredBuffers pool).bind fun owned => Gentle.forM gentle_reset owned

theorem gentle_freeCommandBuffers (pool : Handle) (cbs : List Handle) :
    (freeCommandBuffers pool cbs).Gentle :=
  (gentle_query _).bind fun _ =>
    (Gentle.forM (fun _ => Gentle.ite (gentle_throw _) (gentle_pure _)) cbs).bind fun _ =>
      (gentle_ofExcept _).bind fun _ => (gentle_query _).bind fun _ =>
        Gentle.forM gentle_destroyCommandBuffer cbs

theorem gentle_record (cb : Handle) (command : Command) : (record cb command).Gentle :=
  (gentle_query _).bind fun _ => (Gentle.forM (fun _ => gentle_query _) _).bind fun _ =>
    gentle_get.bind fun _ =>
      (Gentle.forM (fun _ => Gentle.ite (gentle_warn _) (gentle_pure _)) _).bind fun _ =>
        Gentle.forM (fun memory => (gentle_query _).bind fun _ =>
          (MemoryTracker.gentle_addCommandBuffer memory cb).within.discard.bind fun _ =>
            gentle_modify _) _

/-! ## Submissions -/

theorem gentle_checkSemaphores (s : SubmitBatch) : (checkSemaphores s).Gentle := by
  refine (Gentle.forM (fun semaphore => ?_) _).bind fun _ => Gentle.forM (fun semaphore => ?_) _
  · refine (gentle_query _).bind fun state => ?_
    cases state with
    | wait => exact gentle_throw _
    | unset => exact gentle_warn _
    | signaled => exact gentle_pure _
  · exact (gentle_query _).bind fun _ => Gentle.ite (gentle_throw _) (gentle_pure _)

theorem gentle_submit (queue : Handle) (submits : List SubmitBatch) (fence : Option Handle) :
    (submit queue submits fence).Gentle := by
  refine (gentle_query _).bind fun q => ?_
  cases fence with
  | none =>
      exact (Gentle.forM (fun _ => gentle_query _) _).bind fun _ =>
        (Gentle.forM (fun s => (gentle_checkSemaphores s).within) _).bind fun _ =>
          gentle_get.bind fun _ => (gentle_set _).bind fun _ =>
            (gentle_debug _).bind fun _ => gentle_pure _
  | some fence =>
      exact (gentle_query _).bind fun _ => (Gentle.forM (fun _ => gentle_query _) _).bind fun _ =>
        (Gentle.forM (fun s => (gentle_checkSemaphores s).within) _).bind fun _ =>
          gentle_get.bind fun _ => (gentle_set _).bind fun _ =>
            (gentle_debug _).bind fun _ => gentle_pure _

/-! ## Calls -/

theorem gentle_nothing {α : Type} {x : Track Trackers α} (hx : x.Gentle) :
    (validate.nothing x).Gentle := hx.discard.bind fun _ => gentle_pure _

/-- No warning about a call is an error. -/
theorem gentle_validate (owners : Owners) (device : Handle) (call : Call) :
    (validate owners device call).Gentle := by
  cases call with
  | createDevice | destroyDevice | deviceWaitIdle => exact gentle_pure _
  | getDeviceQueue | createSwapchain | createCommandPool | createFence | createSemaphore =>
      exact gentle_nothing (gentle_ofExcept _)
  | allocateMemory | createBuffer | createImage | allocateCommandBuffers | getFenceStatus
  | queueWaitIdle => exact gentle_nothing (gentle_query _)
  | freeMemory _ memory =>
      exact (MemoryTracker.gentle_free memory).within.discard.bind fun _ => gentle_pure _
  | mapMemory _ memory offset size =>
      exact gentle_nothing (MemoryTracker.gentle_map memory offset size).within
  | unmapMemory _ memory => exact gentle_nothing (MemoryTracker.gentle_unmap memory).within
  | destroyBuffer _ r | destroyImage _ r =>
      exact gentle_nothing ((gentle_ofExcept _).bind fun _ => gentle_destroyResource r)
  | bindBufferMemory _ r memory offset | bindImageMemory _ r memory offset =>
      exact gentle_nothing ((gentle_ofExcept _).bind fun _ => gentle_bindMemory r memory offset _)
  | unbindMemory _ r => exact gentle_nothing (gentle_unbind r)
  | queueBindSparse queue binds =>
      refine gentle_nothing ((gentle_query _).discard.bind fun _ =>
        (Gentle.forM (fun b => ?_) binds).bind fun _ => gentle_bindSparse binds)
      cases b.memory with
      | none => exact gentle_pure _
      | some memory => exact gentle_ofExcept _
  | destroySwapchain _ s => exact gentle_nothing (ResourceTracker.gentle_destroySwapchain s).within
  | destroyCommandPool _ pool => exact gentle_destroyPool pool
  | resetCommandPool _ pool => exact gentle_nothing (gentle_resetPool pool)
  | freeCommandBuffers _ pool cbs =>
      exact (gentle_freeCommandBuffers pool cbs).bind fun _ => gentle_pure _
  | beginCommandBuffer cb flags => exact gentle_nothing (gentle_begin cb flags)
  | endCommandBuffer cb => exact gentle_nothing (CommandTracker.gentle_finish cb).within
  | resetCommandBuffer cb => exact gentle_nothing (gentle_reset cb)
  | recordCommand cb command => exact gentle_nothing (gentle_record cb command)
  | destroyFence _ fence => exact gentle_nothing (QueueTracker.gentle_destroyFence fence).within
  | resetFences _ fences => exact gentle_nothing (QueueTracker.gentle_resetFences fences).within
  | waitForFences _ fences _ =>
      exact gentle_nothing (Gentle.forM (fun _ => (gentle_query _).discard) fences)
  | destroySemaphore _ semaphore =>
      exact gentle_nothing (QueueTracker.gentle_destroySemaphore semaphore).within
  | queueSubmit queue submits fence => exact gentle_nothing (gentle_submit queue submits fence)

/-! ## After the call -/

end Trackers

theorem MemoryTracker.gentle_allocate (memory device : Handle) (info : AllocationInfo) :
    (allocate memory device info).Gentle := (gentle_update _).bind fun _ => gentle_debug _

theorem MemoryTracker.gentle_leaks (device : Handle) : (leaks device).Gentle :=
  gentle_get.bind fun _ => (gentle_set _).bind fun _ =>
    (Gentle.forM (fun _ => gentle_log _ _) _).bind fun _ => gentle_pure _

namespace ResourceTracker

theorem gentle_createBuffer (buffer : Handle) (info : BufferCreateInfo) :
    (createBuffer buffer info).Gentle := (gentle_update _).bind fun _ => gentle_debug _

theorem gentle_createImage (image : Handle) (info : ImageCreateInfo) :
    (createImage image info).Gentle := (gentle_update _).bind fun _ => gentle_debug _

theorem gentle_createSwapchain (s : Handle) (images : List Handle) (usage : ImageUsage) :
    (createSwapchain s images usage).Gentle :=
  gentle_get.bind fun _ => Gentle.ite (gentle_throw _)
    ((Gentle.forM (fun _ => Gentle.ite (gentle_throw _) (gentle_pure _)) images).bind fun _ =>
      (gentle_update _).bind fun _ =>
        (Gentle.forM (fun _ => gentle_update _) images).bind fun _ => gentle_debug _)

end ResourceTracker

namespace CommandTracker

theorem gentle_createPool (pool : Handle) (flags : CommandPoolFlags) :
    (createPool pool flags).Gentle := (gentle_update _).bind fun _ => gentle_debug _

theorem gentle_allocate (pool : Handle) (cbs : List Handle) : (allocate pool cbs).Gentle :=
  (gentle_query _).discard.bind fun _ => (gentle_ofExcept _).bind fun _ => gentle_get.bind fun _ =>
    (Gentle.forM (fun _ => Gentle.ite (gentle_throw _) (gentle_pure _)) cbs).bind fun _ =>
      (Gentle.forM (fun _ => gentle_update _) cbs).bind fun _ =>
        (gentle_modify _).bind fun _ => gentle_debug _

end CommandTracker

namespace QueueTracker

theorem gentle_addQueue (queue : Handle) : (addQueue queue).Gentle :=
  gentle_get.bind fun _ => Gentle.ite (gentle_pure _)
    ((gentle_update _).bind fun _ => (gentle_debug _).bind fun _ => gentle_pure _)

theorem gentle_createFence (fence : Handle) (signaled : Bool) :
    (createFence fence signaled).Gentle := (gentle_update _).bind fun _ => gentle_debug _

theorem gentle_createSemaphore (semaphore : Handle) : (createSemaphore semaphore).Gentle :=
  gentle_update _

end QueueTracker

namespace Trackers

/-- Nothing that is entered is reported as an error on the way. -/
theorem gentle_recordCreation (device : Handle) (call : Call) :
    (recordCreation device call).Gentle := by
  have nothing : ∀ {α : Type} {x : Track Trackers α}, x.Gentle →
      (recordCreation.nothing x).Gentle := fun hx => hx.discard.bind fun _ => gentle_pure _
  cases call with
  | getDeviceQueue _ queue =>
      exact (QueueTracker.gentle_addQueue queue).within.bind fun _ => gentle_pure _
  | allocateMemory _ memory info =>
      exact (MemoryTracker.gentle_allocate memory device info).within.bind fun _ => gentle_pure _
  | createBuffer _ buffer info =>
      exact nothing (ResourceTracker.gentle_createBuffer buffer info).within
  | createImage _ image info => exact nothing (ResourceTracker.gentle_createImage image info).within
  | createSwapchain _ s images usage =>
      exact nothing (ResourceTracker.gentle_createSwapchain s images usage).within
  | createCommandPool _ pool flags =>
      exact nothing (CommandTracker.gentle_createPool pool flags).within
  | allocateCommandBuffers _ pool cbs =>
      exact (CommandTracker.gentle_allocate pool cbs).within.bind fun _ => gentle_pure _
  | createFence _ fence signaled =>
      exact nothing (QueueTracker.gentle_createFence fence signaled).within
  | createSemaphore _ semaphore =>
      exact nothing (QueueTracker.gentle_createSemaphore semaphore).within
  | getFenceStatus | queueWaitIdle => exact nothing (gentle_query _)
  | waitForFences _ fences waitAll =>
      exact Gentle.ite (nothing (Gentle.forM (fun _ => (gentle_query _).discard) fences))
        (gentle_pure _)
  | createDevice | destroyDevice | deviceWaitIdle | freeMemory | mapMemory | unmapMemory
  | destroyBuffer | destroyImage | bindBufferMemory | bindImageMemory | unbindMemory
  | queueBindSparse | destroySwapchain | destroyCommandPool | resetCommandPool
  | freeCommandBuffers | beginCommandBuffer | endCommandBuffer | resetCommandBuffer
  | recordCommand | destroyFence | resetFences | destroySemaphore | queueSubmit =>
      exact gentle_pure _

/-! ## Retirement -/

theorem gentle_retireCommandBuffer (sequence : Nat) (cb : Handle) :
    (retireCommandBuffer sequence cb).Gentle := by
  refine gentle_get.bind fun t => ?_
  cases t.commands.buffers.find? cb with
  | none => exact gentle_throw _
  | some b =>
      refine Gentle.ite (Gentle.bind ?_ fun _ => gentle_debug _) (gentle_pure _)
      exact (gentle_releaseAll cb).bind fun _ => gentle_modify _

theorem gentle_retireBatch (b : Batch) : (retireBatch b).Gentle :=
  (gentle_modify _).bind fun _ =>
    Gentle.forM (gentle_retireCommandBuffer b.sequence) b.commandBuffers

theorem gentle_retireUpTo (r : Retirement) : (retireUpTo r).Gentle :=
  (gentle_query _).bind fun _ => (gentle_ofExcept _).bind fun _ => (gentle_modify _).bind fun _ =>
    (Gentle.forM gentle_retireBatch _).bind fun _ =>
      Gentle.ite ((gentle_debug _).bind fun _ => gentle_pure _) (gentle_pure _)

end Trackers

end GpuAudit
