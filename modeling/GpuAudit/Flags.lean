import GpuAudit.Text.Blank
import GpuAudit.Text.Hex

/-!
# Flag sets

Calls carry five sets of 32 flags.  Each set gives names to its lowest bits, in
order, and leaves the other bits without a name; such bits may still be set and
are kept.  `FlagSet.flagNames` is all that tells the sets apart, so there is one
type `Flags`, indexed by the set, with one text form.

In text the names of the set bits stand in bit order, with ` | ` between them,
and the bits without a name stand last as one hexadecimal number.  The empty set
is the empty text.
-/

namespace GpuAudit

/-! ## The sets -/

/-- The sets of flags that calls carry. -/
inductive FlagSet
  | memoryProperties
  | bufferUsage
  | imageUsage
  | commandPool
  | commandBufferUsage
deriving DecidableEq, Repr

namespace FlagSet

/-- The names of the lowest bits of a set, from bit zero up. -/
def flagNames : FlagSet → List String
  | memoryProperties =>
      ["DEVICE_LOCAL", "HOST_VISIBLE", "HOST_COHERENT", "HOST_CACHED", "LAZILY_ALLOCATED"]
  | bufferUsage =>
      ["TRANSFER_SRC", "TRANSFER_DST", "UNIFORM_TEXEL_BUFFER", "STORAGE_TEXEL_BUFFER",
        "UNIFORM_BUFFER", "STORAGE_BUFFER", "INDEX_BUFFER", "VERTEX_BUFFER", "INDIRECT_BUFFER"]
  | imageUsage =>
      ["TRANSFER_SRC", "TRANSFER_DST", "SAMPLED", "STORAGE", "COLOR_ATTACHMENT",
        "DEPTH_STENCIL_ATTACHMENT", "TRANSIENT_ATTACHMENT", "INPUT_ATTACHMENT"]
  | commandPool => ["TRANSIENT", "RESET_COMMAND_BUFFER"]
  | commandBufferUsage => ["ONE_TIME_SUBMIT", "RENDER_PASS_CONTINUE", "SIMULTANEOUS_USE"]

/-- The name of a set in messages. -/
def title : FlagSet → String
  | memoryProperties => "MemoryProperties"
  | bufferUsage => "BufferUsage"
  | imageUsage => "ImageUsage"
  | commandPool => "CommandPoolFlags"
  | commandBufferUsage => "CommandBufferUsage"

end FlagSet

/-- A value of one of the flag sets. -/
structure Flags (set : FlagSet) where
  /-- The bits, named or not. -/
  bits : UInt32
deriving DecidableEq, Repr

/-- Property flags of the memory type an allocation was made from. -/
abbrev MemoryProperties := Flags .memoryProperties

/-- Operations a buffer was created to allow. -/
abbrev BufferUsage := Flags .bufferUsage

/-- Operations an image was created to allow. -/
abbrev ImageUsage := Flags .imageUsage

/-- How a command pool was created. -/
abbrev CommandPoolFlags := Flags .commandPool

/-- How a command buffer was begun. -/
abbrev CommandBufferUsage := Flags .commandBufferUsage

namespace Flags

variable {set : FlagSet}

/-- No flag. -/
def empty : Flags set := ⟨0⟩

instance : Inhabited (Flags set) := ⟨empty⟩

/-- Whether no bit is set, named or not. -/
def isEmpty (f : Flags set) : Bool := f.bits == 0

/-- Whether every bit of `g` is set in `f`. -/
def contains (f g : Flags set) : Bool := f.bits &&& g.bits == g.bits

/-- The bits of either. -/
def union (f g : Flags set) : Flags set := ⟨f.bits ||| g.bits⟩

/-- The flag with one bit. -/
def bit (i : Nat) : Flags set := ⟨UInt32.ofNat (1 <<< i)⟩

/-! ## Text form -/

/-- The names of the set bits among those with a name, the first of which names bit `i`. -/
def namesFrom (bits : Nat) : Nat → List String → List String
  | _, [] => []
  | i, name :: names =>
      if bits.testBit i then name :: namesFrom bits (i + 1) names
      else namesFrom bits (i + 1) names

/-- The set bits that have no name. -/
def unnamed (f : Flags set) : Nat :=
  let named := set.flagNames.length
  (f.bits.toNat >>> named) <<< named

/-- The parts of the text form: names, then the bits without one. -/
def parts (f : Flags set) : List String :=
  namesFrom f.bits.toNat 0 set.flagNames ++
    if f.unnamed = 0 then [] else [Text.hex f.unnamed]

/-- The text form. -/
def toText (f : Flags set) : String := " | ".intercalate f.parts

/-- The text form with the name of the set, as messages show it; the empty set
is written as the number zero. -/
def describe (f : Flags set) : String :=
  set.title ++ "(" ++ (if f.isEmpty then Text.hex 0 else f.toText) ++ ")"

/-! ## Reading the text form -/

/-- The bit that has a name, counted from bit `i`. -/
def bitOf (name : String) : Nat → List String → Option (Flags set)
  | _, [] => none
  | i, n :: ns => if n = name then some (bit i) else bitOf name (i + 1) ns

/-- The number that hexadecimal digits write, if it fits the bits of a set.
One plus sign may stand before the digits. -/
def ofHexDigits (cs : List Char) : Option (Flags set) :=
  let digits := match cs with
    | '+' :: ds => ds
    | ds => ds
  if digits.isEmpty then none
  else do
    let values ← digits.mapM Text.hexDigit?
    let n := Text.ofDigits 16 values
    if n < UInt32.size then some ⟨UInt32.ofNat n⟩ else none

/-- One part of the text form: a hexadecimal number or a name, spelt exactly. -/
def ofPart (cs : List Char) : Option (Flags set) :=
  match cs with
  | '0' :: 'x' :: digits => ofHexDigits digits
  | _ => bitOf (String.ofList cs) 0 set.flagNames

/-- Reads the text form.  Blanks around the parts do not matter, a blank text is
the empty set, and an empty part among others is refused. -/
def ofText? (s : String) : Option (Flags set) :=
  let cs := Text.trim s.toList
  if cs.isEmpty then some empty
  else (Text.splitOn '|' cs).foldlM (fun f part => (ofPart (Text.trim part)).map f.union) empty

end Flags

/-! ## Flags that rules look at -/

/-- Memory the host can map. -/
def MemoryProperties.hostVisible : MemoryProperties := .bit 1

/-- Memory that is backed only while a transient attachment needs it. -/
def MemoryProperties.lazilyAllocated : MemoryProperties := .bit 4

/-- Source of a transfer. -/
def BufferUsage.transferSrc : BufferUsage := .bit 0

/-- Destination of a transfer. -/
def BufferUsage.transferDst : BufferUsage := .bit 1

/-- Source of indices. -/
def BufferUsage.indexBuffer : BufferUsage := .bit 6

/-- Source of vertices. -/
def BufferUsage.vertexBuffer : BufferUsage := .bit 7

/-- Source of draw and dispatch parameters. -/
def BufferUsage.indirectBuffer : BufferUsage := .bit 8

/-- Source of a transfer. -/
def ImageUsage.transferSrc : ImageUsage := .bit 0

/-- Destination of a transfer. -/
def ImageUsage.transferDst : ImageUsage := .bit 1

/-- Attachment whose content need not be kept. -/
def ImageUsage.transientAttachment : ImageUsage := .bit 6

/-- Buffers of the pool may be reset one by one, or by beginning them again. -/
def CommandPoolFlags.resetCommandBuffer : CommandPoolFlags := .bit 1

/-- Recorded for one submission, after which the buffer is initial again. -/
def CommandBufferUsage.oneTimeSubmit : CommandBufferUsage := .bit 0

/-- May be submitted again while a submission is in flight. -/
def CommandBufferUsage.simultaneousUse : CommandBufferUsage := .bit 2

/-! ## Tests -/

example : Flags.toText (⟨0x1003⟩ : ImageUsage) = "TRANSFER_SRC | TRANSFER_DST | 0x1000" := by
  decide +kernel
example : Flags.describe (.empty : BufferUsage) = "BufferUsage(0x0)" := by decide +kernel
example : (Flags.ofText? " TRANSFER_SRC|0x1000 " : Option ImageUsage) = some ⟨0x1001⟩ := by
  decide +kernel
/-- An empty part is refused beside another, and alone it is the empty set. -/
example : (Flags.ofText? "SAMPLED |" : Option ImageUsage) = none := by decide +kernel
example : (Flags.ofText? " " : Option ImageUsage) = some .empty := by decide +kernel

end GpuAudit
