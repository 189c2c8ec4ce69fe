import GpuAudit.Handle
import GpuAudit.Flags

/-!
# Recorded commands

A command recorded into a command buffer touches buffers and images, and each
must have been created for what the command does with it.  `Command.uses` lists
the resources in the order of the command's parameters with the usage each needs.
-/

namespace GpuAudit

/-- The usage a command needs of one of its resources. -/
inductive RequiredUsage
  | buffer (usage : BufferUsage)
  | image (usage : ImageUsage)
deriving DecidableEq, Repr

/-- A resource a command touches and the usage it needs of it. -/
structure ResourceUse where
  /-- The buffer or image. -/
  resource : Handle
  /-- What it must have been created for. -/
  usage : RequiredUsage
deriving DecidableEq, Repr

/-- A command that touches bound memory. -/
inductive Command
  | copyBuffer (src dst : Handle)
  | copyImage (src dst : Handle)
  | blitImage (src dst : Handle)
  | resolveImage (src dst : Handle)
  | copyBufferToImage (src dst : Handle)
  | copyImageToBuffer (src dst : Handle)
  | fillBuffer (buffer : Handle)
  | updateBuffer (buffer : Handle)
  | clearColorImage (image : Handle)
  | clearDepthStencilImage (image : Handle)
  | bindVertexBuffers (buffers : List Handle)
  | bindIndexBuffer (buffer : Handle)
  | drawIndirect (buffer : Handle)
  | drawIndexedIndirect (buffer : Handle)
  | dispatchIndirect (buffer : Handle)
deriving DecidableEq, Repr

namespace Command

/-- The resources a command touches, each with the usage it needs. -/
def uses : Command → List ResourceUse
  | copyBuffer src dst =>
      [⟨src, .buffer BufferUsage.transferSrc⟩, ⟨dst, .buffer BufferUsage.transferDst⟩]
  | copyImage src dst | blitImage src dst =>
      [⟨src, .image ImageUsage.transferSrc⟩, ⟨dst, .image ImageUsage.transferDst⟩]
  | resolveImage src dst => [⟨src, .image .empty⟩, ⟨dst, .image .empty⟩]
  | copyBufferToImage src dst =>
      [⟨src, .buffer BufferUsage.transferSrc⟩, ⟨dst, .image ImageUsage.transferDst⟩]
  | copyImageToBuffer src dst =>
      [⟨src, .image ImageUsage.transferSrc⟩, ⟨dst, .buffer BufferUsage.transferDst⟩]
  | fillBuffer buffer | updateBuffer buffer => [⟨buffer, .buffer BufferUsage.transferDst⟩]
  | clearColorImage image | clearDepthStencilImage image =>
      [⟨image, .image ImageUsage.transferDst⟩]
  | bindVertexBuffers buffers => buffers.map fun b => ⟨b, .buffer BufferUsage.vertexBuffer⟩
  | bindIndexBuffer buffer => [⟨buffer, .buffer BufferUsage.indexBuffer⟩]
  | drawIndirect buffer | drawIndexedIndirect buffer | dispatchIndirect buffer =>
      [⟨buffer, .buffer BufferUsage.indirectBuffer⟩]

/-- The name of a command in reports. -/
def name : Command → String
  | copyBuffer .. => "CmdCopyBuffer"
  | copyImage .. => "CmdCopyImage"
  | blitImage .. => "CmdBlitImage"
  | resolveImage .. => "CmdResolveImage"
  | copyBufferToImage .. => "CmdCopyBufferToImage"
  | copyImageToBuffer .. => "CmdCopyImageToBuffer"
  | fillBuffer .. => "CmdFillBuffer"
  | updateBuffer .. => "CmdUpdateBuffer"
  | clearColorImage .. => "CmdClearColorImage"
  | clearDepthStencilImage .. => "CmdClearDepthStencilImage"
  | bindVertexBuffers .. => "CmdBindVertexBuffers"
  | bindIndexBuffer .. => "CmdBindIndexBuffer"
  | drawIndirect .. => "CmdDrawIndirect"
  | drawIndexedIndirect .. => "CmdDrawIndexedIndirect"
  | dispatchIndirect .. => "CmdDispatchIndirect"

end Command

end GpuAudit
