import GpuAudit.Call.CreateInfo
import GpuAudit.Call.Command

/-!
# Intercepted calls

A `Call` is one call of a client to the graphics driver.  Creation calls carry
the handle the driver returned.  `Call.scope` says through which object the
device of a call is found: most calls name their device, the others name a queue
or a command buffer that some device owns.

A `Completion` is the driver's report that a queue has finished everything up to
a sequence id.
-/

namespace GpuAudit

/-- One unit of work within a queue submission. -/
structure SubmitBatch where
  /-- Semaphores that must be signaled before the work starts. -/
  waitSemaphores : List Handle := []
  /-- Command buffers to execute, in order. -/
  commandBuffers : List Handle := []
  /-- Semaphores signaled when the work is done. -/
  signalSemaphores : List Handle := []
deriving DecidableEq, Repr, Inhabited

/-- A new binding of a sparse resource; without a memory it releases the binding. -/
structure SparseBind where
  /-- The sparse buffer or image. -/
  resource : Handle
  /-- The memory to bind to. -/
  memory : Option Handle
  /-- Where in the memory. -/
  offset : UInt64 := 0
deriving DecidableEq, Repr, Inhabited

/-- An intercepted call. -/
inductive Call
  | createDevice (device : Handle)
  | destroyDevice (device : Handle)
  | getDeviceQueue (device queue : Handle)
  | deviceWaitIdle (device : Handle)
  | allocateMemory (device memory : Handle) (info : AllocationInfo)
  | freeMemory (device memory : Handle)
  | mapMemory (device memory : Handle) (offset size : UInt64)
  | unmapMemory (device memory : Handle)
  | createBuffer (device buffer : Handle) (info : BufferCreateInfo)
  | createImage (device image : Handle) (info : ImageCreateInfo)
  | destroyBuffer (device buffer : Handle)
  | destroyImage (device image : Handle)
  | bindBufferMemory (device buffer memory : Handle) (offset : UInt64)
  | bindImageMemory (device image memory : Handle) (offset : UInt64)
  | unbindMemory (device resource : Handle)
  | queueBindSparse (queue : Handle) (binds : List SparseBind)
  | createSwapchain (device swapchain : Handle) (images : List Handle) (imageUsage : ImageUsage)
  | destroySwapchain (device swapchain : Handle)
  | createCommandPool (device pool : Handle) (flags : CommandPoolFlags)
  | destroyCommandPool (device pool : Handle)
  | resetCommandPool (device pool : Handle)
  | allocateCommandBuffers (device pool : Handle) (commandBuffers : List Handle)
  | freeCommandBuffers (device pool : Handle) (commandBuffers : List Handle)
  | beginCommandBuffer (commandBuffer : Handle) (flags : CommandBufferUsage)
  | endCommandBuffer (commandBuffer : Handle)
  | resetCommandBuffer (commandBuffer : Handle)
  | recordCommand (commandBuffer : Handle) (command : Command)
  | createFence (device fence : Handle) (signaled : Bool)
  | destroyFence (device fence : Handle)
  | resetFences (device : Handle) (fences : List Handle)
  | getFenceStatus (device fence : Handle)
  | waitForFences (device : Handle) (fences : List Handle) (waitAll : Bool)
  | createSemaphore (device semaphore : Handle)
  | destroySemaphore (device semaphore : Handle)
  | queueSubmit (queue : Handle) (submits : List SubmitBatch) (fence : Option Handle)
  | queueWaitIdle (queue : Handle)
deriving DecidableEq, Repr

/-- What the driver answered to a call. -/
inductive CallResult
  | success
  /-- A fence query or wait that did not observe completion. -/
  | notReady
  | failure
deriving DecidableEq, Repr, Inhabited

/-- The driver's report that everything on a queue up to and including a sequence
id has finished. -/
structure Completion where
  /-- The queue. -/
  queue : Handle
  /-- The last finished submission. -/
  sequence : UInt64
deriving DecidableEq, Repr, Inhabited

/-- Where the device of a call is found. -/
inductive Scope
  /-- The call names the device. -/
  | device (device : Handle)
  /-- The call names an object that the device owns. -/
  | owner (object : Handle)
deriving DecidableEq, Repr

namespace Call

/-- The name of a call in reports; a recorded command goes by its own name. -/
def name : Call → String
  | createDevice .. => "CreateDevice"
  | destroyDevice .. => "DestroyDevice"
  | getDeviceQueue .. => "GetDeviceQueue"
  | deviceWaitIdle .. => "DeviceWaitIdle"
  | allocateMemory .. => "AllocateMemory"
  | freeMemory .. => "FreeMemory"
  | mapMemory .. => "MapMemory"
  | unmapMemory .. => "UnmapMemory"
  | createBuffer .. => "CreateBuffer"
  | createImage .. => "CreateImage"
  | destroyBuffer .. => "DestroyBuffer"
  | destroyImage .. => "DestroyImage"
  | bindBufferMemory .. => "BindBufferMemory"
  | bindImageMemory .. => "BindImageMemory"
  | unbindMemory .. => "UnbindMemory"
  | queueBindSparse .. => "QueueBindSparse"
  | createSwapchain .. => "CreateSwapchain"
  | destroySwapchain .. => "DestroySwapchain"
  | createCommandPool .. => "CreateCommandPool"
  | destroyCommandPool .. => "DestroyCommandPool"
  | resetCommandPool .. => "ResetCommandPool"
  | allocateCommandBuffers .. => "AllocateCommandBuffers"
  | freeCommandBuffers .. => "FreeCommandBuffers"
  | beginCommandBuffer .. => "BeginCommandBuffer"
  | endCommandBuffer .. => "EndCommandBuffer"
  | resetCommandBuffer .. => "ResetCommandBuffer"
  | recordCommand _ command => command.name
  | createFence .. => "CreateFence"
  | destroyFence .. => "DestroyFence"
  | resetFences .. => "ResetFences"
  | getFenceStatus .. => "GetFenceStatus"
  | waitForFences .. => "WaitForFences"
  | createSemaphore .. => "CreateSemaphore"
  | destroySemaphore .. => "DestroySemaphore"
  | queueSubmit .. => "QueueSubmit"
  | queueWaitIdle .. => "QueueWaitIdle"

/-- Where the device of a call is found. -/
def scope : Call → Scope
  | queueBindSparse queue _ | queueSubmit queue .. | queueWaitIdle queue => .owner queue
  | beginCommandBuffer cb _ | endCommandBuffer cb | resetCommandBuffer cb
  | recordCommand cb _ => .owner cb
  | createDevice device | destroyDevice device | getDeviceQueue device _
  | deviceWaitIdle device | allocateMemory device .. | freeMemory device _
  | mapMemory device .. | unmapMemory device _ | createBuffer device ..
  | createImage device .. | destroyBuffer device _ | destroyImage device _
  | bindBufferMemory device .. | bindImageMemory device .. | unbindMemory device _
  | createSwapchain device .. | destroySwapchain device _ | createCommandPool device ..
  | destroyCommandPool device _ | resetCommandPool device _
  | allocateCommandBuffers device .. | freeCommandBuffers device ..
  | createFence device .. | destroyFence device _ | resetFences device _
  | getFenceStatus device _ | waitForFences device .. | createSemaphore device _
  | destroySemaphore device _ => .device device

end Call

end GpuAudit
