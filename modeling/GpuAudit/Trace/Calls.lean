import GpuAudit.Trace.Objects

/-!
# Calls in traces

How commands, calls and completion reports are written in JSON.  A call is an object
with one member: the name of the call, and its parameters as a structure.
-/

namespace GpuAudit

open Json

/-- A handle among the parameters. -/
def handleField (name : String) : Record Handle := Record.required name Handle.ofJson?

/-- Handles among the parameters. -/
def handlesField (name : String) : Record (List Handle) :=
  Record.required name (listOf Handle.ofJson?)

/-! ## Commands -/

namespace Command

/-- The name of a command in traces and its parameters. -/
def toTagged : Command → String × Value
  | copyBuffer src dst =>
      ("CopyBuffer", .object [("src", src.toJson), ("dst", dst.toJson)])
  | copyImage src dst =>
      ("CopyImage", .object [("src", src.toJson), ("dst", dst.toJson)])
  | blitImage src dst =>
      ("BlitImage", .object [("src", src.toJson), ("dst", dst.toJson)])
  | resolveImage src dst =>
      ("ResolveImage", .object [("src", src.toJson), ("dst", dst.toJson)])
  | copyBufferToImage src dst =>
      ("CopyBufferToImage", .object [("src", src.toJson), ("dst", dst.toJson)])
  | copyImageToBuffer src dst =>
      ("CopyImageToBuffer", .object [("src", src.toJson), ("dst", dst.toJson)])
  | fillBuffer buffer =>
      ("FillBuffer", .object [("buffer", buffer.toJson)])
  | updateBuffer buffer =>
      ("UpdateBuffer", .object [("buffer", buffer.toJson)])
  | clearColorImage image =>
      ("ClearColorImage", .object [("image", image.toJson)])
  | clearDepthStencilImage image =>
      ("ClearDepthStencilImage", .object [("image", image.toJson)])
  | bindVertexBuffers buffers =>
      ("BindVertexBuffers", .object [("buffers", handlesToJson buffers)])
  | bindIndexBuffer buffer =>
      ("BindIndexBuffer", .object [("buffer", buffer.toJson)])
  | drawIndirect buffer =>
      ("DrawIndirect", .object [("buffer", buffer.toJson)])
  | drawIndexedIndirect buffer =>
      ("DrawIndexedIndirect", .object [("buffer", buffer.toJson)])
  | dispatchIndirect buffer =>
      ("DispatchIndirect", .object [("buffer", buffer.toJson)])

/-- Writes a command. -/
def toJson (c : Command) : Value := .object [c.toTagged]

/-- The parameters of a command with a source and a destination. -/
def pair (make : Handle → Handle → Command) : Record Command := do
  return make (← handleField "src") (← handleField "dst")

/-- Reads the parameters of the command with a name. -/
def ofTagged? (name : String) (body : Value) : Option Command :=
  match name with
  | "CopyBuffer" => Record.decode (pair copyBuffer) body
  | "CopyImage" => Record.decode (pair copyImage) body
  | "BlitImage" => Record.decode (pair blitImage) body
  | "ResolveImage" => Record.decode (pair resolveImage) body
  | "CopyBufferToImage" => Record.decode (pair copyBufferToImage) body
  | "CopyImageToBuffer" => Record.decode (pair copyImageToBuffer) body
  | "FillBuffer" => Record.decode (fillBuffer <$> handleField "buffer") body
  | "UpdateBuffer" => Record.decode (updateBuffer <$> handleField "buffer") body
  | "ClearColorImage" => Record.decode (clearColorImage <$> handleField "image") body
  | "ClearDepthStencilImage" => Record.decode (clearDepthStencilImage <$> handleField "image") body
  | "BindVertexBuffers" => Record.decode (bindVertexBuffers <$> handlesField "buffers") body
  | "BindIndexBuffer" => Record.decode (bindIndexBuffer <$> handleField "buffer") body
  | "DrawIndirect" => Record.decode (drawIndirect <$> handleField "buffer") body
  | "DrawIndexedIndirect" => Record.decode (drawIndexedIndirect <$> handleField "buffer") body
  | "DispatchIndirect" => Record.decode (dispatchIndirect <$> handleField "buffer") body
  | _ => none

/-- Reads a command. -/
def ofJson? : Decoder Command := fun v => do
  let (name, body) ← tagged v
  ofTagged? name body

end Command

/-! ## Submissions and sparse bindings -/

/-- Writes a unit of work. -/
def SubmitBatch.toJson (s : SubmitBatch) : Value :=
  .object [("wait_semaphores", handlesToJson s.waitSemaphores),
    ("command_buffers", handlesToJson s.commandBuffers),
    ("signal_semaphores", handlesToJson s.signalSemaphores)]

/-- Reads a unit of work; a list that is missing is empty. -/
def SubmitBatch.ofJson? : Decoder SubmitBatch := Record.decode do
  let waitSemaphores ← Record.withDefault "wait_semaphores" [] (listOf Handle.ofJson?)
  let commandBuffers ← Record.withDefault "command_buffers" [] (listOf Handle.ofJson?)
  let signalSemaphores ← Record.withDefault "signal_semaphores" [] (listOf Handle.ofJson?)
  return { waitSemaphores, commandBuffers, signalSemaphores }

/-- Writes a sparse binding. -/
def SparseBind.toJson (b : SparseBind) : Value :=
  .object [("resource", b.resource.toJson), ("memory", Value.ofOption Handle.toJson b.memory),
    ("offset", .nat b.offset.toNat)]

/-- Reads a sparse binding; a missing offset is zero. -/
def SparseBind.ofJson? : Decoder SparseBind := Record.decode do
  let resource ← handleField "resource"
  let memory ← Record.optional "memory" Handle.ofJson?
  let offset ← Record.withDefault "offset" 0 word64
  return { resource, memory, offset }

/-! ## Calls -/

namespace Call

/-- The name of a call in traces and its parameters. -/
def toTagged : Call → String × Value
  | createDevice device =>
      ("CreateDevice", .object [("device", device.toJson)])
  | destroyDevice device =>
      ("DestroyDevice", .object [("device", device.toJson)])
  | getDeviceQueue device queue =>
      ("GetDeviceQueue", .object [("device", device.toJson), ("queue", queue.toJson)])
  | deviceWaitIdle device =>
      ("DeviceWaitIdle", .object [("device", device.toJson)])
  | allocateMemory device memory info =>
      ("AllocateMemory", .object [("device", device.toJson), ("memory", memory.toJson),
        ("info", info.toJson)])
  | freeMemory device memory =>
      ("FreeMemory", .object [("device", device.toJson), ("memory", memory.toJson)])
  | mapMemory device memory offset size =>
      ("MapMemory", .object [("device", device.toJson), ("memory", memory.toJson),
        ("offset", .nat offset.toNat), ("size", .nat size.toNat)])
  | unmapMemory device memory =>
      ("UnmapMemory", .object [("device", device.toJson), ("memory", memory.toJson)])
  | createBuffer device buffer info =>
      ("CreateBuffer", .object [("device", device.toJson), ("buffer", buffer.toJson),
        ("info", info.toJson)])
  | createImage device image info =>
      ("CreateImage", .object [("device", device.toJson), ("image", image.toJson),
        ("info", info.toJson)])
  | destroyBuffer device buffer =>
      ("DestroyBuffer", .object [("device", device.toJson), ("buffer", buffer.toJson)])
  | destroyImage device image =>
      ("DestroyImage", .object [("device", device.toJson), ("image", image.toJson)])
  | bindBufferMemory device buffer memory offset =>
      ("BindBufferMemory", .object [("device", device.toJson), ("buffer", buffer.toJson),
        ("memory", memory.toJson), ("offset", .nat offset.toNat)])
  | bindImageMemory device image memory offset =>
      ("BindImageMemory", .object [("device", device.toJson), ("image", image.toJson),
        ("memory", memory.toJson), ("offset", .nat offset.toNat)])
  | unbindMemory device resource =>
      ("UnbindMemory", .object [("device", device.toJson), ("resource", resource.toJson)])
  | queueBindSparse queue binds =>
      ("QueueBindSparse", .object [("queue", queue.toJson),
        ("binds", .array (binds.map SparseBind.toJson))])
  | createSwapchain device swapchain images imageUsage =>
      ("CreateSwapchain", .object [("device", device.toJson), ("swapchain", swapchain.toJson),
        ("images", handlesToJson images), ("image_usage", imageUsage.toJson)])
  | destroySwapchain device swapchain =>
      ("DestroySwapchain", .object [("device", device.toJson), ("swapchain", swapchain.toJson)])
  | createCommandPool device pool flags =>
      ("CreateCommandPool", .object [("device", device.toJson), ("pool", pool.toJson),
        ("flags", flags.toJson)])
  | destroyCommandPool device pool =>
      ("DestroyCommandPool", .object [("device", device.toJson), ("pool", pool.toJson)])
  | resetCommandPool device pool =>
      ("ResetCommandPool", .object [("device", device.toJson), ("pool", pool.toJson)])
  | allocateCommandBuffers device pool cbs =>
      ("AllocateCommandBuffers", .object [("device", device.toJson), ("pool", pool.toJson),
        ("command_buffers", handlesToJson cbs)])
  | freeCommandBuffers device pool cbs =>
      ("FreeCommandBuffers", .object [("device", device.toJson), ("pool", pool.toJson),
        ("command_buffers", handlesToJson cbs)])
  | beginCommandBuffer cb flags =>
      ("BeginCommandBuffer", .object [("command_buffer", cb.toJson), ("flags", flags.toJson)])
  | endCommandBuffer cb =>
      ("EndCommandBuffer", .object [("command_buffer", cb.toJson)])
  | resetCommandBuffer cb =>
      ("ResetCommandBuffer", .object [("command_buffer", cb.toJson)])
  | recordCommand cb command =>
      ("RecordCommand", .object [("command_buffer", cb.toJson), ("command", command.toJson)])
  | createFence device fence signaled =>
      ("CreateFence", .object [("device", device.toJson), ("fence", fence.toJson),
        ("signaled", .bool signaled)])
  | destroyFence device fence =>
      ("DestroyFence", .object [("device", device.toJson), ("fence", fence.toJson)])
  | resetFences device fences =>
      ("ResetFences", .object [("device", device.toJson), ("fences", handlesToJson fences)])
  | getFenceStatus device fence =>
      ("GetFenceStatus", .object [("device", device.toJson), ("fence", fence.toJson)])
  | waitForFences device fences waitAll =>
      ("WaitForFences", .object [("device", device.toJson), ("fences", handlesToJson fences),
        ("wait_all", .bool waitAll)])
  | createSemaphore device semaphore =>
      ("CreateSemaphore", .object [("device", device.toJson), ("semaphore", semaphore.toJson)])
  | destroySemaphore device semaphore =>
      ("DestroySemaphore", .object [("device", device.toJson), ("semaphore", semaphore.toJson)])
  | queueSubmit queue submits fence =>
      ("QueueSubmit", .object [("queue", queue.toJson),
        ("submits", .array (submits.map SubmitBatch.toJson)),
        ("fence", Value.ofOption Handle.toJson fence)])
  | queueWaitIdle queue =>
      ("QueueWaitIdle", .object [("queue", queue.toJson)])

/-- Writes a call. -/
def toJson (c : Call) : Value := .object [c.toTagged]

/-- Reads the parameters of the call with a name. -/
def ofTagged? (name : String) (body : Value) : Option Call :=
  let record (r : Record Call) := r.decode body
  match name with
  | "CreateDevice" => record do return .createDevice (← handleField "device")
  | "DestroyDevice" => record do return .destroyDevice (← handleField "device")
  | "GetDeviceQueue" => record do
      return .getDeviceQueue (← handleField "device") (← handleField "queue")
  | "DeviceWaitIdle" => record do return .deviceWaitIdle (← handleField "device")
  | "AllocateMemory" => record do
      return .allocateMemory (← handleField "device") (← handleField "memory")
        (← Record.required "info" AllocationInfo.ofJson?)
  | "FreeMemory" => record do
      return .freeMemory (← handleField "device") (← handleField "memory")
  | "MapMemory" => record do
      return .mapMemory (← handleField "device") (← handleField "memory")
        (← Record.required "offset" word64) (← Record.required "size" word64)
  | "UnmapMemory" => record do
      return .unmapMemory (← handleField "device") (← handleField "memory")
  | "CreateBuffer" => record do
      return .createBuffer (← handleField "device") (← handleField "buffer")
        (← Record.required "info" BufferCreateInfo.ofJson?)
  | "CreateImage" => record do
      return .createImage (← handleField "device") (← handleField "image")
        (← Record.required "info" ImageCreateInfo.ofJson?)
  | "DestroyBuffer" => record do
      return .destroyBuffer (← handleField "device") (← handleField "buffer")
  | "DestroyImage" => record do
      return .destroyImage (← handleField "device") (← handleField "image")
  | "BindBufferMemory" => record do
      return .bindBufferMemory (← handleField "device") (← handleField "buffer")
        (← handleField "memory") (← Record.required "offset" word64)
  | "BindImageMemory" => record do
      return .bindImageMemory (← handleField "device") (← handleField "image")
        (← handleField "memory") (← Record.required "offset" word64)
  | "UnbindMemory" => record do
      return .unbindMemory (← handleField "device") (← handleField "resource")
  | "QueueBindSparse" => record do
      return .queueBindSparse (← handleField "queue")
        (← Record.required "binds" (listOf SparseBind.ofJson?))
  | "CreateSwapchain" => record do
      return .createSwapchain (← handleField "device") (← handleField "swapchain")
        (← handlesField "images") (← Record.withDefault "image_usage" .empty Flags.ofJson?)
  | "DestroySwapchain" => record do
      return .destroySwapchain (← handleField "device") (← handleField "swapchain")
  | "CreateCommandPool" => record do
      return .createCommandPool (← handleField "device") (← handleField "pool")
        (← Record.required "flags" Flags.ofJson?)
  | "DestroyCommandPool" => record do
      return .destroyCommandPool (← handleField "device") (← handleField "pool")
  | "ResetCommandPool" => record do
      return .resetCommandPool (← handleField "device") (← handleField "pool")
  | "AllocateCommandBuffers" => record do
      return .allocateCommandBuffers (← handleField "device") (← handleField "pool")
        (← handlesField "command_buffers")
  | "FreeCommandBuffers" => record do
      return .freeCommandBuffers (← handleField "device") (← handleField "pool")
        (← handlesField "command_buffers")
  | "BeginCommandBuffer" => record do
      return .beginCommandBuffer (← handleField "command_buffer")
        (← Record.required "flags" Flags.ofJson?)
  | "EndCommandBuffer" => record do return .endCommandBuffer (← handleField "command_buffer")
  | "ResetCommandBuffer" => record do return .resetCommandBuffer (← handleField "command_buffer")
  | "RecordCommand" => record do
      return .recordCommand (← handleField "command_buffer")
        (← Record.required "command" Command.ofJson?)
  | "CreateFence" => record do
      return .createFence (← handleField "device") (← handleField "fence")
        (← Record.required "signaled" bool)
  | "DestroyFence" => record do
      return .destroyFence (← handleField "device") (← handleField "fence")
  | "ResetFences" => record do
      return .resetFences (← handleField "device") (← handlesField "fences")
  | "GetFenceStatus" => record do
      return .getFenceStatus (← handleField "device") (← handleField "fence")
  | "WaitForFences" => record do
      return .waitForFences (← handleField "device") (← handlesField "fences")
        (← Record.required "wait_all" bool)
  | "CreateSemaphore" => record do
      return .createSemaphore (← handleField "device") (← handleField "semaphore")
  | "DestroySemaphore" => record do
      return .destroySemaphore (← handleField "device") (← handleField "semaphore")
  | "QueueSubmit" => record do
      return .queueSubmit (← handleField "queue")
        (← Record.required "submits" (listOf SubmitBatch.ofJson?))
        (← Record.optional "fence" Handle.ofJson?)
  | "QueueWaitIdle" => record do return .queueWaitIdle (← handleField "queue")
  | _ => none

/-- Reads a call. -/
def ofJson? : Decoder Call := fun v => do
  let (name, body) ← tagged v
  ofTagged? name body

end Call

/-! ## Results and completions -/

/-- The name of a result in traces. -/
def CallResult.label : CallResult → String
  | success => "success"
  | notReady => "not_ready"
  | failure => "failure"

/-- Writes a driver's answer. -/
def CallResult.toJson (r : CallResult) : Value := .string r.label

/-- Reads a driver's answer. -/
def CallResult.ofJson? : Decoder CallResult :=
  oneOf [.success, .notReady, .failure] CallResult.label

/-- Writes a completion report. -/
def Completion.toJson (c : Completion) : Value :=
  .object [("queue", c.queue.toJson), ("sequence", .nat c.sequence.toNat)]

/-- Reads a completion report. -/
def Completion.ofJson? : Decoder Completion := Record.decode do
  let queue ← handleField "queue"
  let sequence ← Record.required "sequence" word64
  return { queue, sequence }

end GpuAudit
