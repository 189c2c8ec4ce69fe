import GpuAudit.Trackers

/-!
# Binding resources to memory

A binding is entered twice: in the record of the resource and as a link of the
allocation.  `bind`, `unbind` and `destroyResource` keep the two together.  Every
rule is checked before the first change, so a refused binding changes nothing.

`bindSparse` applies several bindings of sparse resources in order, and none of
them unless all pass.
-/

namespace GpuAudit.Trackers

open ResourceTracker (inconsistent)

/-- Binds a resource of a kind to memory at an offset.  The binding that a sparse
resource has is released first. -/
def bind (resource memory : Handle) (offset : UInt64) (kind : ObjectKind) :
    Track Trackers Unit := do
  let previous ← Track.query fun t => t.resources.checkBind t.memory resource memory offset kind
  if let some old := previous then
    if old ≠ memory then
      discard ((onMemory (MemoryTracker.removeBinding old resource)).restate (inconsistent resource))
  if previous ≠ some memory then
    discard (onMemory (MemoryTracker.addBinding memory resource))
  modify fun t => { t with resources := t.resources.rebound resource (.memory memory offset) }
  Track.debug s!"bound {resource} to {memory} at offset {offset}"

/-- Releases the binding of a resource.  The answer is the allocation it was bound to. -/
def unbind (resource : Handle) : Track Trackers Handle := do
  let r ← Track.query (·.resources.lookup resource)
  match r.binding with
  | .memory memory _ =>
      discard ((onMemory (MemoryTracker.removeBinding memory resource)).restate
        (inconsistent resource))
      modify fun t => { t with resources := t.resources.rebound resource .unbound }
      Track.debug s!"unbound {resource} from {memory}"
      return memory
  | .unbound => throw (.clearEmptyBindings resource none)
  | .swapchain swapchain =>
      throw (.invalidObject resource s!"presentable image owned by {swapchain}")

/-- Destroys a buffer or image, releasing its binding first.  Images of a swapchain
go with the swapchain only.  The answer is the last record. -/
def destroyResource (resource : Handle) : Track Trackers Resource := do
  let r ← Track.query (·.resources.lookup resource)
  match r.binding with
  | .swapchain swapchain =>
      throw (.invalidObject resource
        s!"presentable image owned by {swapchain} cannot be destroyed directly")
  | .memory .. => discard (unbind resource)
  | .unbound => pure ()
  let last ← onResources (ResourceTracker.remove resource)
  Track.debug s!"destroyed {resource}"
  return last

/-! ## Sparse bindings -/

/-- Checks sparse bindings in order.  `bound` says of the resources named so far
whether they are bound after the bindings checked so far. -/
def checkSparse (t : Trackers) (bound : Std.ExtTreeMap Handle Bool) :
    List SparseBind → Except Violation Unit
  | [] => .ok ()
  | b :: bs => do
      let r ← t.resources.lookup b.resource
      if !r.info.isSparse then
        .error (.invalidState b.resource
          "sparse binding of a resource created without sparse residency")
      else match b.memory with
        | some memory =>
            discard (t.resources.checkBind t.memory b.resource memory b.offset b.resource.kind)
            checkSparse t (bound.insert b.resource true) bs
        | none =>
            if (bound[b.resource]?).getD (r.binding ≠ .unbound) then
              checkSparse t (bound.insert b.resource false) bs
            else .error (.clearEmptyBindings b.resource none)

/-- Applies one sparse binding. -/
def applySparse (b : SparseBind) : Track Trackers Unit :=
  match b.memory with
  | some memory => bind b.resource memory b.offset b.resource.kind
  | none => discard (unbind b.resource)

/-- Applies sparse bindings in order, if all of them pass. -/
def bindSparse (bs : List SparseBind) : Track Trackers Unit := do
  Track.query fun t => t.checkSparse ∅ bs
  bs.forM applySparse

end GpuAudit.Trackers
