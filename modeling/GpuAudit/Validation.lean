import GpuAudit.Binding
import GpuAudit.Submission

/-!
# What calls do to the books of a device

Calls that create objects are checked by `validate` before they reach the driver
and entered by `recordCreation` after the driver has succeeded.  All other calls are checked
and applied by `validate`.  Waits and fence queries that succeed imply that work
has finished; `impliedRetirements` says which.

Queues, command buffers and allocations are owned by one device.  `validate`
answers with the handles that the call gives up and `recordCreation` with those it gains.
-/

namespace GpuAudit

/-! ## Checks on handles -/

/-- Refuses a handle of another kind, and the null handle. -/
def expectKind (h : Handle) (kind : ObjectKind) : Except Violation Unit := do
  Registry.checkKind kind h
  if h.isNull then .error (.nullHandle h) else .ok ()

/-- Refuses a handle that names something already. -/
def expectNew (known : Bool) (h : Handle) : Except Violation Unit :=
  if known then .error (.alreadyRegistered h) else .ok ()

/-- The device that owns each queue, command buffer and allocation. -/
abbrev Owners := Std.ExtTreeMap Handle Handle

/-- Refuses memory of another device than the one of the resource to bind. -/
def checkMemoryDevice (owners : Owners) (device resource memory : Handle) :
    Except Violation Unit :=
  match owners[memory]? with
  | some owner =>
      if owner = device then .ok ()
      else .error (.binding resource memory s!"memory was allocated on {owner}, not {device}")
  | none => .ok ()

namespace Trackers

/-! ## Before the call -/

/-- Checks a call, and applies it unless it creates something.  The answer lists the
handles the call gives up. -/
def validate (owners : Owners) (device : Handle) : Call → Track Trackers (List Handle)
  | .createDevice _ | .destroyDevice _ | .deviceWaitIdle _ => return []
  | .getDeviceQueue _ queue => nothing (Track.ofExcept (expectKind queue .queue))
  | .allocateMemory _ memory _ =>
      nothing (Track.query fun t => expectNew (t.memory.contains memory) memory)
  | .freeMemory _ memory => do
      discard (onMemory (MemoryTracker.free memory))
      return [memory]
  | .mapMemory _ memory offset size => nothing (onMemory (MemoryTracker.map memory offset size))
  | .unmapMemory _ memory => nothing (onMemory (MemoryTracker.unmap memory))
  | .createBuffer _ buffer _ => nothing (Track.query (newResource buffer .buffer))
  | .createImage _ image _ => nothing (Track.query (newResource image .image))
  | .destroyBuffer _ buffer => nothing do
      Track.ofExcept (expectKind buffer .buffer)
      destroyResource buffer
  | .destroyImage _ image => nothing do
      Track.ofExcept (expectKind image .image)
      destroyResource image
  | .bindBufferMemory _ buffer memory offset => nothing do
      Track.ofExcept (checkMemoryDevice owners device buffer memory)
      bind buffer memory offset .buffer
  | .bindImageMemory _ image memory offset => nothing do
      Track.ofExcept (checkMemoryDevice owners device image memory)
      bind image memory offset .image
  | .unbindMemory _ resource => nothing (unbind resource)
  | .queueBindSparse queue binds => nothing do
      discard (Track.query (·.queues.queue queue))
      binds.forM fun b => b.memory.forM fun memory =>
        Track.ofExcept (checkMemoryDevice owners device b.resource memory)
      bindSparse binds
  | .createSwapchain _ swapchain _ _ =>
      nothing (Track.ofExcept (expectKind swapchain .swapchain))
  | .destroySwapchain _ swapchain =>
      nothing (onResources (ResourceTracker.destroySwapchain swapchain))
  | .createCommandPool _ pool _ => nothing (Track.ofExcept (expectKind pool .commandPool))
  | .destroyCommandPool _ pool => destroyPool pool
  | .resetCommandPool _ pool => nothing (resetPool pool)
  | .allocateCommandBuffers _ pool cbs => nothing (Track.query (newCommandBuffers pool cbs))
  | .freeCommandBuffers _ pool cbs => do
      freeCommandBuffers pool cbs
      return cbs
  | .beginCommandBuffer cb flags => nothing (begin cb flags)
  | .endCommandBuffer cb => nothing (onCommands (CommandTracker.finish cb))
  | .resetCommandBuffer cb => nothing (reset cb)
  | .recordCommand cb command => nothing (record cb command)
  | .createFence _ fence _ => nothing (Track.ofExcept (expectKind fence .fence))
  | .destroyFence _ fence => nothing (onQueues (QueueTracker.destroyFence fence))
  | .resetFences _ fences => nothing (onQueues (QueueTracker.resetFences fences))
  | .getFenceStatus _ fence => nothing (Track.query (·.queues.fence fence))
  | .waitForFences _ fences _ =>
      nothing (fences.forM fun fence => discard (Track.query (·.queues.fence fence)))
  | .createSemaphore _ semaphore => nothing (Track.ofExcept (expectKind semaphore .semaphore))
  | .destroySemaphore _ semaphore => nothing (onQueues (QueueTracker.destroySemaphore semaphore))
  | .queueSubmit queue submits fence => nothing (submit queue submits fence)
  | .queueWaitIdle queue => nothing (Track.query (·.queues.queue queue))
where
  /-- A call that gives up no handle. -/
  nothing {α : Type} (x : Track Trackers α) : Track Trackers (List Handle) := do
    discard x
    return []
  /-- Refuses a resource that cannot be created under a handle. -/
  newResource (resource : Handle) (kind : ObjectKind) (t : Trackers) : Except Violation Unit := do
    expectKind resource kind
    expectNew (t.resources.contains resource) resource
  /-- Refuses command buffers that cannot be created under their handles. -/
  newCommandBuffers (pool : Handle) (cbs : List Handle) (t : Trackers) :
      Except Violation Unit := do
    discard (t.commands.pool pool)
    CommandTracker.ensureDistinct cbs
    cbs.forM fun cb => do
      expectKind cb .commandBuffer
      expectNew (t.commands.contains cb) cb

/-! ## After the call -/

/-- Enters what a successful call on a device has created, and checks what it has
observed.  The answer lists the handles that the device gains. -/
def recordCreation (device : Handle) : Call → Track Trackers (List Handle)
  | .getDeviceQueue _ queue => do
      let added ← onQueues (QueueTracker.addQueue queue)
      return if added then [queue] else []
  | .allocateMemory _ memory info => do
      onMemory (MemoryTracker.allocate memory device info)
      return [memory]
  | .createBuffer _ buffer info => nothing (onResources (ResourceTracker.createBuffer buffer info))
  | .createImage _ image info => nothing (onResources (ResourceTracker.createImage image info))
  | .createSwapchain _ swapchain images usage =>
      nothing (onResources (ResourceTracker.createSwapchain swapchain images usage))
  | .createCommandPool _ pool flags => nothing (onCommands (CommandTracker.createPool pool flags))
  | .allocateCommandBuffers _ pool cbs => do
      onCommands (CommandTracker.allocate pool cbs)
      return cbs
  | .createFence _ fence signaled => nothing (onQueues (QueueTracker.createFence fence signaled))
  | .createSemaphore _ semaphore => nothing (onQueues (QueueTracker.createSemaphore semaphore))
  | .getFenceStatus _ fence => nothing (Track.query (·.queues.fenceRetirement fence))
  | .waitForFences _ fences waitAll =>
      if waitAll ∨ fences.length = 1 then
        nothing (fences.forM fun fence => discard (Track.query (·.queues.fenceRetirement fence)))
      else return []
  | .queueWaitIdle queue => nothing (Track.query (·.queues.idleRetirement queue))
  | _ => return []
where
  /-- A call by which the device gains no handle. -/
  nothing {α : Type} (x : Track Trackers α) : Track Trackers (List Handle) := do
    discard x
    return []

/-- The retirements implied by seeing fences signaled, up to the first handle that
names no fence. -/
def fenceRetirements (t : QueueTracker) : List Handle → List Retirement
  | [] => []
  | fence :: fences =>
      match t.fenceRetirement fence with
      | .ok r => r.toList ++ fenceRetirements t fences
      | .error _ => []

/-- The retirements implied by a successful wait or fence query.  A wait for one of
several fences implies none, since it does not say which was signaled. -/
def impliedRetirements (t : Trackers) : Call → List Retirement
  | .getFenceStatus _ fence => fenceRetirements t.queues [fence]
  | .waitForFences _ fences waitAll =>
      if waitAll ∨ fences.length = 1 then fenceRetirements t.queues fences else []
  | .queueWaitIdle queue => (t.queues.idleRetirement queue).toOption.toList
  | .deviceWaitIdle _ =>
      t.queues.queues.entries.map fun (queue, q) => ⟨queue, q.lastSubmitted⟩
  | _ => []

end Trackers

end GpuAudit
