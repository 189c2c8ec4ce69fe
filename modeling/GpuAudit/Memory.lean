import Std.Data.ExtTreeSet
import GpuAudit.Call.CreateInfo
import GpuAudit.Track
import GpuAudit.Registry

/-!
# Device memory

Each allocation has a record of what it was made from, the range the host has
mapped, and two sets of links: the resources bound to it, and the command
buffers whose commands touch it.  `refCount` counts the links and decides
whether the allocation may be freed.  It is kept beside the sets and compared
with them by `checkRefCount`; a difference is an internal error.
-/

namespace GpuAudit

/-! ## Words -/

/-- The sum of two words, if it is a word: a sum that wraps around is below what was added to. -/
def checkedAdd (a b : UInt64) : Option UInt64 :=
  if a + b < a then none else some (a + b)

/-- The checked sum is the sum of the numbers, and is there exactly if that is a word. -/
theorem checkedAdd_eq_some_iff {a b c : UInt64} :
    checkedAdd a b = some c ↔ a.toNat + b.toNat = c.toNat := by
  have ha := a.toNat_lt
  have hb := b.toNat_lt
  have hc := c.toNat_lt
  have wrapped : a + b < a ↔ 2 ^ 64 ≤ a.toNat + b.toNat := by
    rw [UInt64.lt_iff_toNat_lt, UInt64.toNat_add]
    omega
  unfold checkedAdd
  split
  next wraps =>
    have := wrapped.mp wraps
    simp only [reduceCtorEq, false_iff]
    omega
  next fits =>
    have small := Nat.lt_of_not_le fun le => fits (wrapped.mpr le)
    rw [Option.some.injEq, ← UInt64.toNat_inj, UInt64.toNat_add, Nat.mod_eq_of_lt small]

/-! ## Records -/

/-- A part of an allocation that the host has mapped. -/
structure MappedRange where
  /-- Where it starts. -/
  offset : UInt64
  /-- How many bytes it has. -/
  size : UInt64
deriving DecidableEq, Repr, Inhabited

/-- What is known of one allocation. -/
structure MemoryObject where
  /-- The device it was allocated on. -/
  device : Handle
  /-- What it was allocated as. -/
  info : AllocationInfo
  /-- The mapped range, if there is one. -/
  mapped : Option MappedRange
  /-- How many links there are. -/
  refCount : Nat
  /-- Buffers and images bound to it. -/
  bindings : Std.ExtTreeSet Handle
  /-- Command buffers whose recorded commands touch it. -/
  commandBuffers : Std.ExtTreeSet Handle
deriving DecidableEq

namespace MemoryObject

/-- A fresh allocation: not mapped and without links. -/
def fresh (device : Handle) (info : AllocationInfo) : MemoryObject :=
  ⟨device, info, none, 0, ∅, ∅⟩

/-- The number of links that the two sets hold. -/
def links (m : MemoryObject) : Nat := m.bindings.size + m.commandBuffers.size

/-- The largest number of links that is counted. -/
def maxRefCount : Nat := UInt32.size - 1

/-- Refuses a record whose count differs from its links. -/
def checkRefCount (m : MemoryObject) (memory : Handle) : Except Violation Unit :=
  if m.refCount = m.links then .ok ()
  else .error (.internal [memory]
    s!"{memory} has refcount {m.refCount} but {m.links} outstanding links")

/-- Counts one link more. -/
def increment (m : MemoryObject) (memory : Handle) : Except Violation MemoryObject :=
  if m.refCount < maxRefCount then .ok { m with refCount := m.refCount + 1 }
  else .error (.internal [memory] s!"{memory} refcount overflow")

/-- Counts one link less. -/
def decrement (m : MemoryObject) (memory : Handle) : Except Violation MemoryObject :=
  if 0 < m.refCount then .ok { m with refCount := m.refCount - 1 }
  else .error (.internal [memory] s!"{memory} refcount dropped below zero")

/-- Whether the allocation has so many bytes from an offset on. -/
def holds (m : MemoryObject) (offset bytes : UInt64) : Bool :=
  match checkedAdd offset bytes with
  | some last => last ≤ m.info.size
  | none => false

/-- The bytes are there exactly if their end, as a number, is not past that of the allocation. -/
theorem holds_iff {m : MemoryObject} {offset bytes : UInt64} :
    m.holds offset bytes = true ↔ offset.toNat + bytes.toNat ≤ m.info.size.toNat := by
  unfold holds
  cases hs : checkedAdd offset bytes with
  | some last =>
      rw [checkedAdd_eq_some_iff.mp hs, ← UInt64.le_iff_toNat_le]
      exact decide_eq_true_iff
  | none =>
      simp only [Bool.false_eq_true, false_iff]
      intro inside
      -- An end within the allocation is a word.
      have small := Nat.lt_of_le_of_lt inside m.info.size.toNat_lt
      have sum : checkedAdd offset bytes = some (UInt64.ofNat (offset.toNat + bytes.toNat)) :=
        checkedAdd_eq_some_iff.mpr (UInt64.toNat_ofNat_of_lt' small).symm
      rw [hs] at sum
      cases sum

/-- The range that a request to map covers, unless it is empty, starts past the
end or does not fit.  The size `wholeSize` asks for all from the offset on. -/
def rangeAt (m : MemoryObject) (memory : Handle) (offset size : UInt64) :
    Except Violation MappedRange :=
  if size = 0 then
    .error (.invalidMap memory "mapped size must be greater than zero")
  else if m.info.size ≤ offset then
    .error (.invalidMap memory
      s!"offset {offset} is past the end of the {m.info.size}-byte allocation")
  else
    let size := if size = wholeSize then m.info.size - offset else size
    if m.holds offset size then .ok ⟨offset, size⟩
    else .error (.invalidMap memory
      s!"range (offset {offset}, size {size}) exceeds the {m.info.size}-byte allocation")

end MemoryObject

/-- The allocations of a device. -/
structure MemoryTracker where
  /-- Their records. -/
  objects : Registry .deviceMemory MemoryObject
deriving DecidableEq, Inhabited

namespace MemoryTracker

/-- No allocation. -/
def empty : MemoryTracker := ⟨.empty⟩

/-! ## Questions -/

/-- The record of an allocation. -/
def lookup (t : MemoryTracker) (memory : Handle) : Except Violation MemoryObject :=
  t.objects.lookup memory

/-- Whether a handle names an allocation. -/
def contains (t : MemoryTracker) (memory : Handle) : Bool := t.objects.contains memory

/-- The resources bound to an allocation, which must be at least one. -/
def bindings (t : MemoryTracker) (memory : Handle) : Except Violation (List Handle) := do
  let m ← t.lookup memory
  if m.bindings.isEmpty then .error (.missingBindings memory) else .ok m.bindings.toList

/-- Refuses books in which some count differs from the links it counts. -/
def verify (t : MemoryTracker) : Except Violation Unit :=
  t.objects.entries.forM fun (memory, m) => m.checkRefCount memory

/-! ## Allocation -/

/-- Puts a record in the place of the one an allocation has. -/
def put (memory : Handle) (m : MemoryObject) : Track MemoryTracker Unit :=
  modify fun t => { t with objects := t.objects.modify memory fun _ => m }

/-- Enters a new allocation, without links. -/
def allocate (memory device : Handle) (info : AllocationInfo) : Track MemoryTracker Unit := do
  Track.update fun t => return { t with objects := ← t.objects.register memory (.fresh device info) }
  Track.debug s!"allocated {info.size} bytes of device memory on {device}: {memory}"

/-- Strikes out an allocation that has no links.  If there are links, each is
logged and the record stays. -/
def free (memory : Handle) : Track MemoryTracker MemoryObject := do
  let m ← Track.query (·.lookup memory)
  Track.ofExcept (m.checkRefCount memory)
  if 0 < m.refCount then
    m.bindings.toList.forM fun resource =>
      Track.log .warn s!"{memory} freed while still bound to {resource}"
    m.commandBuffers.toList.forM fun cb =>
      Track.log .warn s!"{memory} freed while still referenced by {cb}"
    throw (.freedMemRef memory m.bindings.toList m.commandBuffers.toList)
  Track.update fun t => return { t with objects := (← t.objects.unregister memory).2 }
  if let some range := m.mapped then
    Track.debug s!"{memory} freed while mapped at {range.offset}+{range.size}; mapping dropped"
  Track.debug s!"freed device memory: {memory}"
  return m

/-- Strikes out every allocation left on a device and reports each as a leak. -/
def leaks (device : Handle) : Track MemoryTracker (List Violation) := do
  let t ← get
  let (left, objects) := t.objects.drain fun m => m.device = device
  set { t with objects }
  left.forM fun (memory, m) =>
    Track.log .warn s!"{memory} ({m.info.size} bytes) leaked by {device}"
  return left.map fun (memory, m) => .memoryLeak memory device m.info.size

/-! ## Mapping -/

/-- Maps a range of host-visible memory.  One range can be mapped at a time. -/
def map (memory : Handle) (offset size : UInt64) : Track MemoryTracker MappedRange := do
  let m ← Track.query (·.lookup memory)
  if !m.info.properties.contains MemoryProperties.hostVisible then
    throw (.invalidState memory "mapping memory that is not host-visible")
  if let some current := m.mapped then
    throw (.invalidMap memory
      s!"already mapped at offset {current.offset} size {current.size}; unmap before mapping again")
  let range ← Track.ofExcept (m.rangeAt memory offset size)
  put memory { m with mapped := some range }
  Track.debug s!"mapped {memory} at {range.offset}+{range.size}"
  return range

/-- Unmaps the mapped range. -/
def unmap (memory : Handle) : Track MemoryTracker MappedRange := do
  let m ← Track.query (·.lookup memory)
  match m.mapped with
  | none => throw (.invalidMap memory "unmapping memory that is not mapped")
  | some range =>
      put memory { m with mapped := none }
      return range

/-! ## Links -/

/-- Counts a link that has just been entered.  The answer is the new count. -/
def countUp (memory : Handle) (m : MemoryObject) : Track MemoryTracker Nat := do
  put memory m
  let m ← Track.ofExcept (m.increment memory)
  put memory m
  return m.refCount

/-- Counts off a link that has just been struck out.  The answer is the new count. -/
def countDown (memory : Handle) (m : MemoryObject) : Track MemoryTracker Nat := do
  put memory m
  let m ← Track.ofExcept (m.decrement memory)
  put memory m
  return m.refCount

/-- Enters that a resource is bound to an allocation, which it must not be yet. -/
def addBinding (memory resource : Handle) : Track MemoryTracker Nat := do
  let m ← Track.query (·.lookup memory)
  if resource ∈ m.bindings then
    throw (.internal [memory, resource] s!"{resource} is already recorded as bound to {memory}")
  countUp memory { m with bindings := m.bindings.insert resource }

/-- Strikes out that a resource is bound to an allocation. -/
def removeBinding (memory resource : Handle) : Track MemoryTracker Nat := do
  let m ← Track.query (·.lookup memory)
  if resource ∉ m.bindings then
    throw (.clearEmptyBindings resource (some memory))
  countDown memory { m with bindings := m.bindings.erase resource }

/-- Enters that the commands of a command buffer touch an allocation.  A link that
is there already is not counted again. -/
def addCommandBuffer (memory commandBuffer : Handle) : Track MemoryTracker Nat := do
  let m ← Track.query (·.lookup memory)
  if commandBuffer ∈ m.commandBuffers then
    return m.refCount
  countUp memory { m with commandBuffers := m.commandBuffers.insert commandBuffer }

/-- Strikes out that the commands of a command buffer touch an allocation. -/
def removeCommandBuffer (memory commandBuffer : Handle) : Track MemoryTracker Nat := do
  let m ← Track.query (·.lookup memory)
  if commandBuffer ∉ m.commandBuffers then
    throw (.clearEmptyBindings commandBuffer (some memory))
  countDown memory { m with commandBuffers := m.commandBuffers.erase commandBuffer }

end MemoryTracker

end GpuAudit
