import GpuAudit.Call
import GpuAudit.Diagnostic
import GpuAudit.Json.Decode

/-!
# Objects in traces

How handles, flags, create-time parameters and diagnostics are written in JSON.  For
each type `toJson` writes a value with all its fields, in order, and `ofJson?` reads
it back.  Flags are strings in their text form.
-/

namespace GpuAudit

open Json

/-! ## Names -/

/-- The name of a kind in traces. -/
def ObjectKind.label : ObjectKind → String
  | device => "device"
  | deviceMemory => "device_memory"
  | buffer => "buffer"
  | image => "image"
  | commandBuffer => "command_buffer"
  | commandPool => "command_pool"
  | queue => "queue"
  | fence => "fence"
  | semaphore => "semaphore"
  | swapchain => "swapchain"

/-- Every kind of object. -/
def ObjectKind.all : List ObjectKind :=
  [.device, .deviceMemory, .buffer, .image, .commandBuffer, .commandPool, .queue, .fence,
    .semaphore, .swapchain]

/-- Writes a kind of object. -/
def ObjectKind.toJson (k : ObjectKind) : Value := .string k.label

/-- Reads a kind of object. -/
def ObjectKind.ofJson? : Decoder ObjectKind := oneOf ObjectKind.all ObjectKind.label

/-- Every kind of violation. -/
def ViolationKind.all : List ViolationKind :=
  [.invalidObject, .invalidCommandBuffer, .invalidState, .rebindObject, .clearEmptyBindings,
    .missingBindings, .bindingError, .freedMemRef, .memoryLeak, .resetWhileInFlight,
    .invalidFenceState, .invalidUsageFlag, .invalidMap, .internalError]

/-- Writes a kind of violation. -/
def ViolationKind.toJson (k : ViolationKind) : Value := .string k.name

/-- Reads a kind of violation. -/
def ViolationKind.ofJson? : Decoder ViolationKind := oneOf ViolationKind.all ViolationKind.name

/-- Every severity, mildest first. -/
def Severity.all : List Severity := [.info, .warning, .error, .fatal]

/-- Writes a severity. -/
def Severity.toJson (s : Severity) : Value := .string s.name

/-- Reads a severity. -/
def Severity.ofJson? : Decoder Severity := oneOf Severity.all Severity.name

/-! ## Handles and flags -/

/-- Writes a handle. -/
def Handle.toJson (h : Handle) : Value :=
  .object [("raw", .nat h.raw.toNat), ("kind", h.kind.toJson)]

/-- Reads a handle. -/
def Handle.ofJson? : Decoder Handle := Record.decode do
  let raw ← Record.required "raw" word64
  let kind ← Record.required "kind" ObjectKind.ofJson?
  return ⟨raw, kind⟩

/-- Handles as an array. -/
def handlesToJson (hs : List Handle) : Value := .array (hs.map Handle.toJson)

/-- Writes flags in their text form. -/
def Flags.toJson {set : FlagSet} (f : Flags set) : Value := .string f.toText

/-- Reads flags from their text form. -/
def Flags.ofJson? {set : FlagSet} : Decoder (Flags set) := fun v => do
  Flags.ofText? (← string v)

/-! ## Create-time parameters -/

/-- Writes the parameters of an allocation. -/
def AllocationInfo.toJson (i : AllocationInfo) : Value :=
  .object [("size", .nat i.size.toNat), ("memory_type_index", .nat i.memoryTypeIndex.toNat),
    ("properties", i.properties.toJson)]

/-- Reads the parameters of an allocation; only the size must be there. -/
def AllocationInfo.ofJson? : Decoder AllocationInfo := Record.decode do
  let size ← Record.required "size" word64
  let memoryTypeIndex ← Record.withDefault "memory_type_index" 0 word32
  let properties ← Record.withDefault "properties" .empty Flags.ofJson?
  return { size, memoryTypeIndex, properties }

/-- Writes the parameters of a buffer. -/
def BufferCreateInfo.toJson (i : BufferCreateInfo) : Value :=
  .object [("size", .nat i.size.toNat), ("usage", i.usage.toJson), ("sparse", .bool i.sparse)]

/-- Reads the parameters of a buffer, not sparse unless it says so. -/
def BufferCreateInfo.ofJson? : Decoder BufferCreateInfo := Record.decode do
  let size ← Record.required "size" word64
  let usage ← Record.required "usage" Flags.ofJson?
  let sparse ← Record.withDefault "sparse" false bool
  return { size, usage, sparse }

/-- Writes an extent as an array of its three numbers. -/
def Extent.toJson (e : Extent) : Value :=
  .array [.nat e.width.toNat, .nat e.height.toNat, .nat e.depth.toNat]

/-- Reads an extent from an array of three numbers. -/
def Extent.ofJson? : Decoder Extent
  | .array [w, h, d] => do return ⟨← word32 w, ← word32 h, ← word32 d⟩
  | _ => none

/-- Writes the parameters of an image. -/
def ImageCreateInfo.toJson (i : ImageCreateInfo) : Value :=
  .object [("extent", i.extent.toJson), ("memory_size", .nat i.memorySize.toNat),
    ("usage", i.usage.toJson), ("sparse", .bool i.sparse)]

/-- Reads the parameters of an image, not sparse unless it says so. -/
def ImageCreateInfo.ofJson? : Decoder ImageCreateInfo := Record.decode do
  let extent ← Record.required "extent" Extent.ofJson?
  let memorySize ← Record.required "memory_size" word64
  let usage ← Record.required "usage" Flags.ofJson?
  let sparse ← Record.withDefault "sparse" false bool
  return { extent, memorySize, usage, sparse }

/-- Writes the parameters of a resource under the name of its kind. -/
def ResourceInfo.toJson : ResourceInfo → Value
  | .buffer info => .object [("Buffer", info.toJson)]
  | .image info => .object [("Image", info.toJson)]

/-- Reads the parameters of a resource by the name of its kind. -/
def ResourceInfo.ofJson? : Decoder ResourceInfo := fun v => do
  match ← tagged v with
  | ("Buffer", info) => return .buffer (← BufferCreateInfo.ofJson? info)
  | ("Image", info) => return .image (← ImageCreateInfo.ofJson? info)
  | _ => none

/-! ## Diagnostics -/

/-- The members that write a diagnostic. -/
def Diagnostic.members (d : Diagnostic) : List (String × Value) :=
  [("kind", d.kind.toJson), ("severity", d.severity.toJson),
    ("objects", handlesToJson d.objects), ("message", .string d.message)]

/-- Writes a diagnostic. -/
def Diagnostic.toJson (d : Diagnostic) : Value := .object d.members

/-- Reads a diagnostic. -/
def Diagnostic.ofJson? : Decoder Diagnostic := Record.decode do
  let kind ← Record.required "kind" ViolationKind.ofJson?
  let severity ← Record.required "severity" Severity.ofJson?
  let objects ← Record.required "objects" (listOf Handle.ofJson?)
  let message ← Record.required "message" string
  return { kind, severity, objects, message }

end GpuAudit
