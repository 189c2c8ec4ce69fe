import GpuAudit.Flags

/-!
# Create-time parameters

What a client states when it allocates memory or creates a buffer or an image.
Sizes and offsets count bytes in 64-bit words; the rules that compare sums of them
refuse a sum that is no word.
-/

namespace GpuAudit

/-- The size that stands for "from the offset to the end of the allocation". -/
def wholeSize : UInt64 := 0xffffffffffffffff

/-- Parameters of a memory allocation. -/
structure AllocationInfo where
  /-- Bytes to allocate. -/
  size : UInt64
  /-- Which memory type to allocate from. -/
  memoryTypeIndex : UInt32 := 0
  /-- Properties of that memory type. -/
  properties : MemoryProperties := .empty
deriving DecidableEq, Repr, Inhabited

/-- Parameters of a buffer. -/
structure BufferCreateInfo where
  /-- Bytes the buffer needs. -/
  size : UInt64
  /-- What the buffer may be used for. -/
  usage : BufferUsage
  /-- Whether its memory may be bound again. -/
  sparse : Bool := false
deriving DecidableEq, Repr, Inhabited

/-- Width, height and depth of an image. -/
structure Extent where
  /-- Texels along the first axis. -/
  width : UInt32
  /-- Texels along the second axis. -/
  height : UInt32
  /-- Texels along the third axis. -/
  depth : UInt32
deriving DecidableEq, Repr, Inhabited

/-- Parameters of an image. -/
structure ImageCreateInfo where
  /-- Width, height and depth. -/
  extent : Extent
  /-- Bytes of memory the image requires. -/
  memorySize : UInt64
  /-- What the image may be used for. -/
  usage : ImageUsage
  /-- Whether its memory may be bound again. -/
  sparse : Bool := false
deriving DecidableEq, Repr, Inhabited

/-- Parameters of a resource that memory can be bound to. -/
inductive ResourceInfo
  | buffer (info : BufferCreateInfo)
  | image (info : ImageCreateInfo)
deriving DecidableEq, Repr, Inhabited

namespace ResourceInfo

/-- Bytes of memory a binding must cover. -/
def memorySize : ResourceInfo → UInt64
  | buffer info => info.size
  | image info => info.memorySize

/-- Whether memory may be bound to the resource again. -/
def isSparse : ResourceInfo → Bool
  | buffer info => info.sparse
  | image info => info.sparse

/-- Whether the resource was created with any usage at all. -/
def hasUsage : ResourceInfo → Bool
  | buffer info => !info.usage.isEmpty
  | image info => !info.usage.isEmpty

end ResourceInfo

end GpuAudit
