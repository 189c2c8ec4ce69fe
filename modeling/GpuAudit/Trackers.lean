import GpuAudit.CommandBuffer
import GpuAudit.Resource

/-!
# The books of one device

`Trackers` holds all records of one device: its allocations, its resources, its
command buffers and its queues.  Operations on one of the four books run on the
whole by `onMemory`, `onResources`, `onCommands` and `onQueues`.
-/

namespace GpuAudit

/-- All records of one device. -/
structure Trackers where
  /-- Allocations. -/
  memory : MemoryTracker
  /-- Buffers, images and swapchains. -/
  resources : ResourceTracker
  /-- Command pools and command buffers. -/
  commands : CommandTracker
  /-- Queues, fences and semaphores. -/
  queues : QueueTracker
deriving DecidableEq, Inhabited

namespace Trackers

/-- The records of a device on which nothing has been created. -/
def empty : Trackers := ⟨.empty, .empty, .empty, .empty⟩

variable {α : Type}

/-- An operation on the allocations. -/
def onMemory (x : Track MemoryTracker α) : Track Trackers α :=
  x.within (·.memory) fun memory t => { t with memory }

/-- An operation on the resources. -/
def onResources (x : Track ResourceTracker α) : Track Trackers α :=
  x.within (·.resources) fun resources t => { t with resources }

/-- An operation on the command buffers. -/
def onCommands (x : Track CommandTracker α) : Track Trackers α :=
  x.within (·.commands) fun commands t => { t with commands }

/-- An operation on the queues. -/
def onQueues (x : Track QueueTracker α) : Track Trackers α :=
  x.within (·.queues) fun queues t => { t with queues }

end Trackers

end GpuAudit
