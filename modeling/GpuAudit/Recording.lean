import GpuAudit.Trackers

/-!
# Recording, resetting and destroying command buffers

A command buffer holds a link to every allocation its commands touch.  Recording
a command adds links; resetting, beginning again and destroying release them.
Operations on a whole pool first check that no buffer of the pool is in flight.
-/

namespace GpuAudit.Trackers

/-! ## Links -/

/-- Releases the links of a command buffer to some allocations. -/
def releaseLinks (cb : Handle) (memories : List Handle) : Track Trackers Unit :=
  memories.forM fun memory =>
    (discard (onMemory (MemoryTracker.removeCommandBuffer memory cb))).restate fun v =>
      .internal [cb, memory] s!"releasing {memory} reference from {cb}: {v.message}"

/-- Releases every link of a command buffer. -/
def releaseAll (cb : Handle) : Track Trackers Unit := do
  let b ← Track.query (·.commands.lookup cb)
  modify fun t => { t with commands := t.commands.change cb fun b => { b with memoryRefs := ∅ } }
  releaseLinks cb b.memoryRefs.toList

/-- Makes a command buffer initial again. -/
def clear (cb : Handle) : Track Trackers Unit := do
  releaseAll cb
  modify fun t =>
    { t with commands := t.commands.change cb fun b =>
        { b with state := .initial, usage := .empty, lastSubmission := none } }

/-! ## Single command buffers -/

/-- Begins the recording of a command buffer. -/
def begin (cb : Handle) (usage : CommandBufferUsage) : Track Trackers Unit := do
  Track.query fun t => t.commands.checkBegin t.queues cb
  releaseAll cb
  modify fun t =>
    { t with commands := t.commands.change cb fun b =>
        { b with state := .recording, usage, lastSubmission := none } }
  Track.debug s!"{cb} began recording"

/-- Enters that a command of a recording command buffer touches an allocation. -/
def recordLink (cb memory : Handle) : Track Trackers Unit := do
  Track.query (·.commands.checkRecording cb)
  discard (onMemory (MemoryTracker.addCommandBuffer memory cb))
  modify fun t =>
    { t with commands := t.commands.change cb fun b =>
        { b with memoryRefs := b.memoryRefs.insert memory } }

/-- Resets a command buffer that is not in flight. -/
def reset (cb : Handle) : Track Trackers Unit := do
  discard (Track.query (·.commands.lookup cb))
  Track.query fun t => t.commands.ensureRetired t.queues [cb]
  clear cb
  Track.debug s!"{cb} reset"

/-- Destroys a command buffer that is not in flight. -/
def destroyCommandBuffer (cb : Handle) : Track Trackers Unit := do
  discard (Track.query (·.commands.lookup cb))
  Track.query fun t => t.commands.ensureRetired t.queues [cb]
  let t ← get
  let (b, buffers) ← Track.ofExcept (t.commands.buffers.unregister cb)
  set { t with commands := { t.commands with buffers } }
  releaseLinks cb b.memoryRefs.toList
  modify fun t =>
    { t with commands := { t.commands with
        pools := t.commands.pools.modify b.pool fun p => { p with buffers := p.buffers.erase cb } } }
  Track.debug s!"destroyed {cb}"

/-! ## Pools -/

/-- The command buffers of a pool, none of which may be in flight. -/
def retiredBuffers (pool : Handle) : Track Trackers (List Handle) := do
  let owned ← Track.query (·.commands.owned pool)
  Track.query fun t => t.commands.ensureRetired t.queues owned
  return owned

/-- Destroys a pool and its command buffers.  The answer lists the buffers. -/
def destroyPool (pool : Handle) : Track Trackers (List Handle) := do
  let owned ← retiredBuffers pool
  owned.forM destroyCommandBuffer
  Track.update fun t => return { t with commands := { t.commands with
    pools := (← t.commands.pools.unregister pool).2 } }
  Track.debug s!"destroyed {pool} and {owned.length} command buffer(s)"
  return owned

/-- Resets every command buffer of a pool. -/
def resetPool (pool : Handle) : Track Trackers Unit := do
  let owned ← retiredBuffers pool
  owned.forM reset

/-- Destroys command buffers of a pool, each listed once. -/
def freeCommandBuffers (pool : Handle) (cbs : List Handle) : Track Trackers Unit := do
  let p ← Track.query (·.commands.pool pool)
  cbs.forM fun cb => do
    if cb ∉ p.buffers then
      throw (.invalidObject cb s!"not allocated from {pool}")
  Track.ofExcept (CommandTracker.ensureDistinct cbs)
  Track.query fun t => t.commands.ensureRetired t.queues cbs
  cbs.forM destroyCommandBuffer

/-! ## Commands -/

/-- The records of the resources a command touches, in the order of its parameters. -/
def resourcesOf (t : Trackers) (command : Command) : List (Handle × Resource) :=
  command.uses.filterMap fun u =>
    (t.resources.lookup u.resource).toOption.map fun r => (u.resource, r)

/-- Records a command.  Its resources must have been created for it.  Each resource
bound to memory adds a link, and one that is not bound gives a warning. -/
def record (cb : Handle) (command : Command) : Track Trackers Unit := do
  Track.query (·.commands.checkRecording cb)
  command.uses.forM fun u => Track.query (·.resources.requireUsage u.resource u.usage)
  let resources := (← get).resourcesOf command
  resources.forM fun (resource, r) => do
    if r.binding = .unbound then
      Track.warn (.missingBindings resource)
  (resources.filterMap fun (_, r) => r.memory?).forM (recordLink cb)

end GpuAudit.Trackers
