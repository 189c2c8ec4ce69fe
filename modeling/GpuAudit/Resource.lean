import GpuAudit.Call.Command
import GpuAudit.Memory

/-!
# Buffers, images and swapchains

A buffer or an image has a record of what it was created as and of where its
memory comes from: nowhere yet, an allocation, or the swapchain that owns the
image.  Images of a swapchain belong to it from its creation to its end.

`checkBind` holds every rule for binding a resource to memory and changes
nothing; the binding itself concerns the memory records too and is in
`GpuAudit.Binding`.
-/

namespace GpuAudit

/-! ## Records -/

/-- Where the memory of a resource comes from. -/
inductive Binding
  | unbound
  | memory (memory : Handle) (offset : UInt64)
  | swapchain (swapchain : Handle)
deriving DecidableEq, Repr, Inhabited

/-- What is known of one buffer or image. -/
structure Resource where
  /-- What it was created as. -/
  info : ResourceInfo
  /-- Where its memory comes from. -/
  binding : Binding
deriving DecidableEq, Repr, Inhabited

namespace Resource

/-- The allocation a resource is bound to. -/
def memory? (r : Resource) : Option Handle :=
  match r.binding with
  | .memory memory _ => some memory
  | _ => none

/-- An image as a swapchain makes it. -/
def presentable (swapchain : Handle) (usage : ImageUsage) : Resource :=
  ⟨.image { extent := ⟨0, 0, 1⟩, memorySize := 0, usage }, .swapchain swapchain⟩

end Resource

/-- The buffers, images and swapchains of a device. -/
structure ResourceTracker where
  /-- Records of buffers. -/
  buffers : Registry .buffer Resource
  /-- Records of images. -/
  images : Registry .image Resource
  /-- The images each swapchain owns. -/
  swapchains : Registry .swapchain (List Handle)
deriving DecidableEq, Inhabited

namespace ResourceTracker

/-- No resource. -/
def empty : ResourceTracker := ⟨.empty, .empty, .empty⟩

/-! ## Questions -/

/-- The record of a buffer or image. -/
def lookup (t : ResourceTracker) (resource : Handle) : Except Violation Resource :=
  match resource.kind with
  | .buffer => t.buffers.lookup resource
  | .image => t.images.lookup resource
  | _ => .error (.invalidObject resource "expected a buffer or image")

/-- Whether a handle names a buffer or image. -/
def contains (t : ResourceTracker) (resource : Handle) : Bool :=
  t.buffers.contains resource || t.images.contains resource

/-- How many buffers and images there are. -/
def size (t : ResourceTracker) : Nat := t.buffers.size + t.images.size

/-- Refuses a use that a buffer or image was not created for. -/
def requireUsage (t : ResourceTracker) (resource : Handle) (usage : RequiredUsage) :
    Except Violation Unit := do
  let r ← t.lookup resource
  match r.info, usage with
  | .buffer info, .buffer required =>
      if info.usage.contains required then .ok () else refuse required.describe info.usage.describe
  | .image info, .image required =>
      if info.usage.contains required then .ok () else refuse required.describe info.usage.describe
  | .buffer _, .image _ => .error (.invalidObject resource "expected an image")
  | .image _, .buffer _ => .error (.invalidObject resource "expected a buffer")
where
  refuse (required created : String) : Except Violation Unit :=
    .error (.invalidUsage resource s!"requires {required} but was created with {created}")

/-- Refuses to bind a resource created for nothing, and to bind to lazily allocated
memory anything but a transient attachment. -/
def checkBindUsage (resource : Handle) (info : ResourceInfo) (properties : MemoryProperties) :
    Except Violation Unit :=
  if !info.hasUsage then
    .error (.invalidUsage resource "created with no usage flags; it cannot be bound")
  else if properties.contains MemoryProperties.lazilyAllocated then
    match info with
    | .buffer _ =>
        .error (.invalidUsage resource "buffers cannot be bound to lazily allocated memory")
    | .image image =>
        if image.usage.contains ImageUsage.transientAttachment then .ok ()
        else .error (.invalidUsage resource
          "lazily allocated memory requires TRANSIENT_ATTACHMENT usage")
  else .ok ()

/-- The allocation whose binding a new binding replaces, if there is one; only a
sparse resource may be bound again. -/
def replaced (resource memory : Handle) (r : Resource) : Except Violation (Option Handle) :=
  match r.binding with
  | .swapchain swapchain => .error (.rebind resource swapchain memory)
  | .memory current _ =>
      if r.info.isSparse then .ok (some current) else .error (.rebind resource current memory)
  | .unbound => .ok none

/-- Every rule for binding a resource of a kind to memory at an offset.  The answer
is the allocation that a sparse resource is bound to so far. -/
def checkBind (t : ResourceTracker) (allocations : MemoryTracker) (resource memory : Handle)
    (offset : UInt64) (kind : ObjectKind) : Except Violation (Option Handle) := do
  Registry.checkKind kind resource
  let r ← t.lookup resource
  let m ← allocations.lookup memory
  let previous ← replaced resource memory r
  checkBindUsage resource r.info m.info.properties
  let required := r.info.memorySize
  if m.holds offset required then .ok previous
  else .error (.binding resource memory
    s!"{required} bytes at offset {offset} do not fit the {m.info.size}-byte allocation")

/-! ## Changes -/

/-- The records with one resource bound differently. -/
def rebound (t : ResourceTracker) (resource : Handle) (binding : Binding) : ResourceTracker :=
  { t with
    buffers := t.buffers.modify resource fun r => { r with binding }
    images := t.images.modify resource fun r => { r with binding } }

/-- Enters a new buffer, not bound. -/
def createBuffer (buffer : Handle) (info : BufferCreateInfo) : Track ResourceTracker Unit := do
  Track.update fun t =>
    return { t with buffers := ← t.buffers.register buffer ⟨.buffer info, .unbound⟩ }
  Track.debug s!"created {buffer}"

/-- Enters a new image, not bound. -/
def createImage (image : Handle) (info : ImageCreateInfo) : Track ResourceTracker Unit := do
  Track.update fun t =>
    return { t with images := ← t.images.register image ⟨.image info, .unbound⟩ }
  Track.debug s!"created {image}"

/-- Strikes out a buffer or image.  The answer is its record. -/
def remove (resource : Handle) : Track ResourceTracker Resource := do
  let t ← get
  let r ← Track.ofExcept (t.lookup resource)
  match resource.kind with
  | .buffer => Track.update fun t => return { t with buffers := (← t.buffers.unregister resource).2 }
  | _ => Track.update fun t => return { t with images := (← t.images.unregister resource).2 }
  return r

/-! ## Swapchains -/

/-- A link that one record has and the other lacks means that the books are wrong. -/
def inconsistent (resource : Handle) (v : Violation) : Violation :=
  match v with
  | .clearEmptyBindings .. | .invalidObject .. =>
      .internal [resource] s!"binding bookkeeping for {resource} is inconsistent: {v.message}"
  | _ => v

/-- Enters a swapchain and the images it owns. -/
def createSwapchain (swapchain : Handle) (images : List Handle) (usage : ImageUsage) :
    Track ResourceTracker Unit := do
  let t ← get
  if t.swapchains.contains swapchain then
    throw (.alreadyRegistered swapchain)
  images.forM fun image => do
    if image.kind ≠ .image ∨ t.images.contains image then
      throw (.invalidObject image "presentable image handle is already in use")
  Track.update fun t => return { t with swapchains := ← t.swapchains.register swapchain images }
  images.forM fun image =>
    Track.update fun t =>
      return { t with images := ← t.images.register image (.presentable swapchain usage) }
  Track.debug s!"created {swapchain} with {images.length} images"

/-- Strikes out a swapchain and the images it owns.  The answer lists the images. -/
def destroySwapchain (swapchain : Handle) : Track ResourceTracker (List Handle) := do
  let t ← get
  let (images, swapchains) ← Track.ofExcept (t.swapchains.unregister swapchain)
  set { t with swapchains }
  images.forM fun image =>
    (Track.update fun t => return { t with images := (← t.images.unregister image).2 }).restate
      (inconsistent image)
  Track.debug s!"destroyed {swapchain}"
  return images

end ResourceTracker

end GpuAudit
