import Mathlib.Order.Defs.Unbundled
import GpuAudit.Validation
import GpuAudit.Proofs.CommandBuffer
import GpuAudit.Proofs.Refusals

/-!
# What operations leave alone

`x.Confined R` says that the operation `x` changes a state only as the preorder `R`
allows, whatever its answer: so an operation that stops half way is confined too,
with no need to say where it stops.  The rules follow the ways to make an operation.

`Steady` is such a preorder on the books of a device.  It allows no change of the
queues and no new submission of a command buffer.  Most calls are confined by it,
since they are about other books.
-/

namespace GpuAudit

/-! ## Confined operations -/

namespace Track

variable {σ τ α β : Type} {R : σ → σ → Prop}

/-- An operation changes a state only as a relation allows, whatever its answer. -/
def Confined (R : σ → σ → Prop) (x : Track σ α) : Prop :=
  ∀ s, x.Ends s (fun _ => R s) fun _ => R s

theorem Confined.state {x : Track σ α} (h : x.Confined R) (s : σ) : R s (x.on s).state :=
  (h s).state

/-- Every operation is confined by no relation. -/
theorem confined_any (x : Track σ α) : x.Confined fun _ _ => True :=
  fun _ => ends_iff.mpr ⟨fun _ _ => trivial, fun _ _ => trivial⟩

theorem confined_modify {f : σ → σ} (h : ∀ s, R s (f s)) : (modify f : Track σ PUnit).Confined R :=
  h

theorem Confined.discard {x : Track σ α} (h : x.Confined R) : (discard x).Confined R :=
  fun s => ends_discard.mpr (h s)

theorem Confined.restate {x : Track σ α} (h : x.Confined R) (f : Violation → Violation) :
    (x.restate f).Confined R := fun s => ends_restate.mpr (h s)

/-- An operation on a part is confined if the changes it makes there are allowed. -/
theorem Confined.within {get : σ → τ} {set : τ → σ → σ} {Q : τ → τ → Prop} {x : Track τ α}
    (hx : x.Confined Q) (put : ∀ s t, Q (get s) t → R s (set t s)) :
    (within get set x).Confined R := fun s =>
  ends_within.mpr ((hx (get s)).mono (fun _ t => put s t) fun _ t => put s t)

/-- A property is kept. -/
def Preserves (P : σ → Prop) (s t : σ) : Prop := P s → P t

instance (P : σ → Prop) : IsPreorder σ (Preserves P) where
  refl _ h := h
  trans _ _ _ h k hs := k (h hs)

theorem confined_preserves {P : σ → Prop} {x : Track σ α}
    (h : ∀ s, P s → x.Ends s (fun _ => P) fun _ => P) : x.Confined (Preserves P) := fun s =>
  ends_iff.mpr ⟨fun _ ha hs => (h s hs).good_of_ok ha, fun _ hv hs => (h s hs).bad_of_error hv⟩

section Rules

variable [IsPreorder σ R]

theorem confined_pure (a : α) : (pure a : Track σ α).Confined R := fun s => refl_of R s

theorem confined_throw (v : Violation) : (throw v : Track σ α).Confined R := fun s => refl_of R s

theorem confined_ofExcept (answer : Except Violation α) : (ofExcept answer).Confined R :=
  fun s => ends_ofExcept.mpr ⟨fun _ _ => refl_of R s, fun _ _ => refl_of R s⟩

theorem confined_query (question : σ → Except Violation α) : (query question).Confined R :=
  fun s => confined_ofExcept (question s) s

theorem confined_get : (get : Track σ σ).Confined R := fun s => refl_of R s

theorem confined_debug (message : String) : (debug message).Confined R := fun s => refl_of R s

theorem confined_warn (v : Violation) : (warn v : Track σ Unit).Confined R := fun s => refl_of R s

theorem confined_update {change : σ → Except Violation σ}
    (h : ∀ s t, change s = .ok t → R s t) : (update change).Confined R := fun s =>
  ends_update.mpr (ends_ofExcept.mpr ⟨fun t => h s t, fun _ _ => refl_of R s⟩)

/-- What follows a confined operation may start from any state it allows. -/
theorem Confined.after {x : Track σ α} (h : x.Confined R) {s t : σ} (ht : R s t) :
    x.Ends t (fun _ => R s) fun _ => R s :=
  (h t).mono (fun _ _ hu => trans_of R ht hu) fun _ _ hu => trans_of R ht hu

theorem Confined.bind {x : Track σ α} {f : α → Track σ β} (hx : x.Confined R)
    (hf : ∀ a, (f a).Confined R) : (x >>= f).Confined R := fun s =>
  ends_bind.mpr ((hx s).mono (fun a _ ht => (hf a).after ht) fun _ _ ht => ht)

/-- A loop is confined as its elements are. -/
theorem Confined.forM_of_mem {f : β → Track σ PUnit} {bs : List β}
    (hf : ∀ b ∈ bs, (f b).Confined R) : (bs.forM f).Confined R := fun s =>
  Ends.forM_keeps (R s) (refl_of R s) fun b hb _ ht => (hf b hb).after ht

theorem Confined.forM {f : β → Track σ PUnit} (hf : ∀ b, (f b).Confined R) (bs : List β) :
    (bs.forM f).Confined R := Confined.forM_of_mem fun b _ => hf b

end Rules

end Track

open Track (Confined confined_pure confined_throw confined_ofExcept confined_query confined_get
  confined_debug confined_warn confined_modify confined_update)

/-! ## Operations on pools and command buffers -/

namespace CommandTracker

section Rules

variable {R : CommandTracker → CommandTracker → Prop} [IsPreorder CommandTracker R]
  {pool cb : Handle}

/-- A pool is entered without command buffers. -/
theorem confined_createPool {flags : CommandPoolFlags}
    (makes : ∀ (t : CommandTracker) pools, t.pools.register pool ⟨flags, ∅⟩ = .ok pools →
      R t { t with pools }) : (createPool pool flags).Confined R := by
  refine (confined_update fun t u hu => ?_).bind fun _ => confined_debug _
  obtain ⟨pools, hr, he⟩ := bind_eq_ok_iff.mp hu
  cases he
  exact makes t pools hr

/-- Command buffers are entered one after another, and their pool lists them then. -/
theorem confined_allocate {cbs : List Handle}
    (enters : ∀ c ∈ cbs, ∀ (t : CommandTracker) buffers,
      t.buffers.register c (.fresh pool) = .ok buffers → R t { t with buffers })
    (enrolls : ∀ t : CommandTracker, R t { t with
      pools := t.pools.modify pool fun p => { p with buffers := p.buffers.insertMany cbs } }) :
    (allocate pool cbs).Confined R := by
  have entered : ∀ c ∈ cbs, (Track.update fun t : CommandTracker =>
      return { t with buffers := ← t.buffers.register c (.fresh pool) }).Confined R := by
    refine fun c hc => confined_update fun t u hu => ?_
    obtain ⟨buffers, hr, he⟩ := bind_eq_ok_iff.mp hu
    cases he
    exact enters c hc t buffers hr
  refine (confined_query _).discard.bind fun _ => (confined_ofExcept _).bind fun _ =>
    confined_get.bind fun t => (Confined.forM (fun c => ?_) cbs).bind fun _ =>
    (Confined.forM_of_mem entered).bind fun _ =>
    Confined.bind (confined_modify enrolls) fun _ => confined_debug _
  split
  · exact confined_throw _
  · exact confined_pure _

/-- A command buffer that records ends. -/
theorem confined_finish
    (ends : ∀ (t : CommandTracker) b, t.buffers.find? cb = some b → b.state = .recording →
      R t (t.change cb fun b => { b with state := .executable })) : (finish cb).Confined R := by
  intro t
  unfold finish
  rw [Track.ends_bind, Track.ends_query, Track.ends_ofExcept]
  refine ⟨fun b hl => ?_, fun _ _ => refl_of R t⟩
  split
  next => exact refl_of R t
  next recording => exact ends t b (lookup_eq_ok_iff.mp hl) (Decidable.not_not.mp recording)

end Rules

/-! ## Submissions of command buffers -/

variable {t u : CommandTracker}

/-- A command buffer that has a last submission had it before, and is executable if it
was. -/
def Inherits (t u : CommandTracker) : Prop :=
  ∀ c b s, u.buffers.find? c = some b → b.lastSubmission = some s →
    ∃ old, t.buffers.find? c = some old ∧ old.lastSubmission = some s ∧
      (old.state = .executable → b.state = .executable)

instance : IsPreorder CommandTracker Inherits where
  refl _ _ b _ hb hs := ⟨b, hb, hs, id⟩
  trans _ _ _ h k c b s hb hs := by
    obtain ⟨b', hb', hs', ready'⟩ := k c b s hb hs
    obtain ⟨old, ho, hs, ready⟩ := h c b' s hb' hs'
    exact ⟨old, ho, hs, ready' ∘ ready⟩

theorem inherits_of_buffers (h : u.buffers = t.buffers) : t.Inherits u := by
  intro c b s hb hs
  rw [h] at hb
  exact ⟨b, hb, hs, id⟩

/-- A change that submits nothing. -/
theorem inherits_change {f : CommandBuffer → CommandBuffer} (cb : Handle)
    (hf : ∀ b, (f b).lastSubmission = none ∨ (f b).lastSubmission = b.lastSubmission ∧
      (b.state = .executable → (f b).state = .executable)) : t.Inherits (t.change cb f) := by
  intro c b s hb hs
  rw [find?_change] at hb
  split at hb
  · obtain ⟨old, ho, rfl⟩ := Option.map_eq_some_iff.mp hb
    rcases hf old with none | ⟨same, ready⟩
    · rw [none] at hs
      cases hs
    · exact ⟨old, ho, same.symm.trans hs, ready⟩
  · exact ⟨b, hb, hs, id⟩

theorem inherits_fresh {buffers : Registry .commandBuffer CommandBuffer} {cb pool : Handle}
    (view : ∀ g, buffers.find? g = if g = cb then some (.fresh pool) else t.buffers.find? g) :
    t.Inherits { t with buffers } := by
  intro c b s hb hs
  have hb : buffers.find? c = some b := hb
  rw [view] at hb
  split at hb
  · cases hb
    cases hs
  · exact ⟨b, hb, hs, id⟩

theorem inherits_strike {buffers : Registry .commandBuffer CommandBuffer} {cb : Handle}
    (view : ∀ g, buffers.find? g = if g = cb then none else t.buffers.find? g) :
    t.Inherits { t with buffers } := by
  intro c b s hb hs
  have hb : buffers.find? c = some b := hb
  rw [view] at hb
  split at hb
  · cases hb
  · exact ⟨b, hb, hs, id⟩

theorem createPool_confined (pool : Handle) (flags : CommandPoolFlags) :
    (createPool pool flags).Confined Inherits :=
  confined_createPool fun _ _ _ => inherits_of_buffers rfl

theorem allocate_confined (pool : Handle) (cbs : List Handle) :
    (allocate pool cbs).Confined Inherits :=
  confined_allocate (fun _ _ _ _ entered => inherits_fresh (Registry.find?_register entered))
    fun _ => inherits_of_buffers rfl

theorem finish_confined (cb : Handle) : (finish cb).Confined Inherits :=
  confined_finish fun _ _ _ _ => inherits_change cb fun _ => .inr ⟨rfl, fun _ => rfl⟩

end CommandTracker

/-! ## Operations on command buffers -/

namespace Trackers

section CommandBuffers

variable {R : Trackers → Trackers → Prop} [IsPreorder Trackers R] {cb : Handle}

theorem confined_reset (clears : (clear cb).Confined R) : (reset cb).Confined R :=
  (confined_query _).discard.bind fun _ => (confined_query _).bind fun _ =>
    clears.bind fun _ => confined_debug _

theorem confined_record (links : ∀ memory, (recordLink cb memory).Confined R) (command : Command) :
    (record cb command).Confined R := by
  have linked : ∀ memories : List Handle, (memories.forM (recordLink cb)).Confined R :=
    Confined.forM links
  refine (confined_query _).bind fun _ =>
    Confined.bind (Confined.forM (fun _ => confined_query _) _) fun _ =>
    confined_get.bind fun t => Confined.bind (Confined.forM (fun use => ?_) _) fun _ => linked _
  obtain ⟨resource, r⟩ := use
  dsimp only
  split
  · exact confined_warn _
  · exact confined_pure _

/-- A command buffer that has retired is struck out, its links are released, and its pool
lists it no more. -/
theorem confined_destroyCommandBuffer
    (strikes : ∀ (t : Trackers) (buffers : Registry .commandBuffer CommandBuffer),
      t.commands.isInFlight t.queues cb = false →
      (∀ g, buffers.find? g = if g = cb then none else t.commands.buffers.find? g) →
      R t { t with commands := { t.commands with buffers } })
    (releases : ∀ memories, (releaseLinks cb memories).Confined R)
    (delists : ∀ (t : Trackers) pool, R t { t with commands := { t.commands with
      pools := t.commands.pools.modify pool fun p => { p with buffers := p.buffers.erase cb } } }) :
    (destroyCommandBuffer cb).Confined R := by
  refine (confined_query _).discard.bind fun _ => fun t => ?_
  rw [Track.ends_bind, Track.ends_query, Track.ends_ofExcept]
  refine ⟨fun _ checked => ?_, fun _ _ => refl_of R t⟩
  have retired := CommandTracker.ensureRetired_eq_ok_iff.mp checked cb List.mem_cons_self
  rw [Track.ends_bind, Track.ends_get, Track.ends_bind, Track.ends_ofExcept]
  refine ⟨fun (b, buffers) hr => ?_, fun _ _ => refl_of R t⟩
  have rest := (releases b.memoryRefs.toList).bind fun _ =>
    Confined.bind (confined_modify fun t => delists t b.pool) fun _ =>
    confined_debug s!"destroyed {cb}"
  rw [Track.ends_bind, Track.ends_set]
  exact rest.after (strikes t buffers retired (Registry.find?_unregister hr))

theorem confined_retiredBuffers (pool : Handle) : (retiredBuffers pool).Confined R :=
  (confined_query _).bind fun _ => (confined_query _).bind fun _ => confined_pure _

theorem confined_destroyPool (destroys : ∀ cb, (destroyCommandBuffer cb).Confined R)
    (removes : ∀ (t : Trackers) pool p pools, t.commands.pools.unregister pool = .ok (p, pools) →
      R t { t with commands := { t.commands with pools } }) (pool : Handle) :
    (destroyPool pool).Confined R := by
  refine (confined_retiredBuffers pool).bind fun owned =>
    (Confined.forM destroys owned).bind fun _ => (confined_update fun t u hu => ?_).bind fun _ =>
    (confined_debug _).bind fun _ => confined_pure _
  obtain ⟨⟨p, pools⟩, hr, he⟩ := bind_eq_ok_iff.mp hu
  cases he
  exact removes t pool p pools hr

theorem confined_resetPool (resets : ∀ cb, (reset cb).Confined R) (pool : Handle) :
    (resetPool pool).Confined R :=
  (confined_retiredBuffers pool).bind fun owned => Confined.forM resets owned

theorem confined_freeCommandBuffers {cbs : List Handle}
    (destroys : ∀ cb ∈ cbs, (destroyCommandBuffer cb).Confined R) (pool : Handle) :
    (freeCommandBuffers pool cbs).Confined R := by
  refine (confined_query _).bind fun p => (Confined.forM (fun cb => ?_) cbs).bind fun _ =>
    (confined_ofExcept _).bind fun _ => (confined_query _).bind fun _ =>
    Confined.forM_of_mem destroys
  split
  · exact confined_throw _
  · exact confined_pure _

end CommandBuffers

/-! ## Bindings -/

section Bindings

variable {R : Trackers → Trackers → Prop} [IsPreorder Trackers R]
  (links : ∀ (t : Trackers) memory, R t { t with memory })
  (rebinds : ∀ (t : Trackers) resource binding,
    R t { t with resources := t.resources.rebound resource binding })

include links rebinds

theorem confined_bind (resource memory : Handle) (offset : UInt64) (kind : ObjectKind) :
    (bind resource memory offset kind).Confined R := by
  have entered : (discard (onMemory (MemoryTracker.addBinding memory resource)) :
      Track Trackers PUnit).Confined R :=
    ((Track.confined_any _).within fun t m _ => links t m).discard
  have released : ∀ old, (discard ((onMemory (MemoryTracker.removeBinding old resource)).restate
      (ResourceTracker.inconsistent resource)) : Track Trackers PUnit).Confined R := fun _ =>
    (((Track.confined_any _).within fun t m _ => links t m).restate _).discard
  have bound : (modify fun t => { t with
        resources := t.resources.rebound resource (.memory memory offset) } :
      Track Trackers PUnit).Confined R :=
    confined_modify fun t => rebinds t resource _
  refine (confined_query _).bind fun previous => ?_
  split
  next replacing =>
    split
    · split
      · exact (released _).bind fun _ => entered.bind fun _ => bound.bind fun _ => confined_debug _
      · exact entered.bind fun _ => bound.bind fun _ => confined_debug _
    · exact entered.bind fun _ => bound.bind fun _ => confined_debug _
  next moving =>
    split
    · split
      · exact (released _).bind fun _ => bound.bind fun _ => confined_debug _
      · exact bound.bind fun _ => confined_debug _
    · exact bound.bind fun _ => confined_debug _

theorem confined_unbind (resource : Handle) : (unbind resource).Confined R := by
  refine (confined_query _).bind fun r => ?_
  split
  · exact (((Track.confined_any _).within fun t m _ => links t m).restate _).discard.bind fun _ =>
      (confined_modify fun t => rebinds t resource _).bind fun _ => (confined_debug _).bind fun _ =>
        confined_pure _
  · exact confined_throw _
  · exact confined_throw _

theorem confined_destroyResource {resource : Handle}
    (removes : (onResources (ResourceTracker.remove resource)).Confined R) :
    (destroyResource resource).Confined R := by
  have struck : (do
      let last ← onResources (ResourceTracker.remove resource)
      Track.debug s!"destroyed {resource}"
      return last : Track Trackers Resource).Confined R :=
    removes.bind fun _ => (confined_debug _).bind fun _ => confined_pure _
  refine (confined_query _).bind fun r => ?_
  split
  · exact (confined_throw _).bind fun _ => struck
  · exact (confined_unbind links rebinds resource).discard.bind fun _ => struck
  · exact struck

theorem confined_bindSparse (bs : List SparseBind) : (bindSparse bs).Confined R := by
  refine (confined_query _).bind fun _ => Confined.forM (fun b => ?_) bs
  unfold applySparse
  split
  · exact confined_bind links rebinds _ _ _ _
  · exact (confined_unbind links rebinds _).discard

end Bindings

/-! ## Operations on the other books -/

/-- Whether validating a call may change queues, fences or semaphores. -/
def Schedules : Call → Prop
  | .queueSubmit .. | .destroyFence .. | .resetFences .. | .destroySemaphore .. => True
  | _ => False

/-- Whether a call creates a queue, a fence or a semaphore. -/
def Equips : Call → Prop
  | .getDeviceQueue .. | .createFence .. | .createSemaphore .. => True
  | _ => False

section Quiet

variable {α : Type} {R : Trackers → Trackers → Prop}
  (quiet : ∀ t u : Trackers, u.queues = t.queues → u.commands = t.commands → R t u)

include quiet

theorem confined_onMemory (x : Track MemoryTracker α) : (onMemory x).Confined R :=
  (Track.confined_any x).within fun t _ _ => quiet t _ rfl rfl

theorem confined_onResources (x : Track ResourceTracker α) : (onResources x).Confined R :=
  (Track.confined_any x).within fun t _ _ => quiet t _ rfl rfl

variable [IsPreorder Trackers R]

/-! ### Links -/

theorem confined_releaseLinks (cb : Handle) (memories : List Handle) :
    (releaseLinks cb memories).Confined R :=
  Confined.forM (fun _ => (confined_onMemory quiet _).discard.restate _) memories

theorem confined_recordLink {cb memory : Handle}
    (touches : (modify fun t => { t with commands := t.commands.change cb fun b =>
      { b with memoryRefs := b.memoryRefs.insert memory } } : Track Trackers PUnit).Confined R) :
    (recordLink cb memory).Confined R :=
  (confined_query _).bind fun _ => (confined_onMemory quiet _).discard.bind fun _ => touches

/-! ### Calls -/

omit quiet in
theorem confined_nothing {x : Track Trackers α} (hx : x.Confined R) :
    (validate.nothing x).Confined R := hx.discard.bind fun _ => confined_pure _

/-- A call that schedules nothing is confined if what it does to command buffers is. -/
theorem confined_validate (begins : ∀ cb usage, (begin cb usage).Confined R)
    (finishes : ∀ cb, (onCommands (CommandTracker.finish cb)).Confined R)
    (resets : ∀ cb, (reset cb).Confined R)
    (links : ∀ cb memory, (recordLink cb memory).Confined R)
    (destroys : ∀ cb, (destroyCommandBuffer cb).Confined R)
    (removes : ∀ (t : Trackers) pool p pools, t.commands.pools.unregister pool = .ok (p, pools) →
      R t { t with commands := { t.commands with pools } })
    (owners : Owners) (device : Handle) {call : Call} (other : ¬Schedules call) :
    (validate owners device call).Confined R := by
  have memory : ∀ (t : Trackers) memory, R t { t with memory } := fun t _ => quiet t _ rfl rfl
  have rebinds : ∀ (t : Trackers) resource binding,
      R t { t with resources := t.resources.rebound resource binding } :=
    fun t _ _ => quiet t _ rfl rfl
  cases call with
  | createDevice | destroyDevice | deviceWaitIdle => exact confined_pure _
  | queueSubmit | destroyFence | resetFences | destroySemaphore => exact absurd trivial other
  | freeMemory _ memory => exact (confined_onMemory quiet _).discard.bind fun _ => confined_pure _
  | mapMemory | unmapMemory => exact confined_nothing (confined_onMemory quiet _)
  | destroyBuffer _ buffer =>
      exact confined_nothing ((confined_ofExcept _).bind fun _ =>
        confined_destroyResource memory rebinds (confined_onResources quiet _))
  | destroyImage _ image =>
      exact confined_nothing ((confined_ofExcept _).bind fun _ =>
        confined_destroyResource memory rebinds (confined_onResources quiet _))
  | bindBufferMemory | bindImageMemory =>
      exact confined_nothing ((confined_ofExcept _).bind fun _ => confined_bind memory rebinds _ _ _ _)
  | unbindMemory _ resource => exact confined_nothing (confined_unbind memory rebinds resource)
  | queueBindSparse queue binds =>
      refine confined_nothing ((confined_query _).discard.bind fun _ =>
        (Confined.forM (fun b => ?_) binds).bind fun _ => confined_bindSparse memory rebinds binds)
      cases b.memory with
      | none => exact confined_pure _
      | some memory => exact confined_ofExcept _
  | destroySwapchain => exact confined_nothing (confined_onResources quiet _)
  | destroyCommandPool _ pool => exact confined_destroyPool destroys removes pool
  | resetCommandPool _ pool => exact confined_nothing (confined_resetPool resets pool)
  | freeCommandBuffers _ pool cbs =>
      exact (confined_freeCommandBuffers (fun cb _ => destroys cb) pool).bind fun _ =>
        confined_pure _
  | beginCommandBuffer cb flags => exact confined_nothing (begins cb flags)
  | endCommandBuffer cb => exact confined_nothing (finishes cb)
  | resetCommandBuffer cb => exact confined_nothing (resets cb)
  | recordCommand cb command => exact confined_nothing (confined_record (links cb) command)
  | waitForFences _ fences _ =>
      exact confined_nothing (Confined.forM (fun _ => (confined_query _).discard) fences)
  | getDeviceQueue | createSwapchain | createCommandPool | createFence | createSemaphore =>
      exact confined_nothing (confined_ofExcept _)
  | allocateMemory | createBuffer | createImage | allocateCommandBuffers | getFenceStatus
  | queueWaitIdle => exact confined_nothing (confined_query _)

/-- What a call has created is entered in confines if its command pools and command buffers
are. -/
theorem confined_recordCreation
    (makes : ∀ pool flags, (onCommands (CommandTracker.createPool pool flags)).Confined R)
    (allocates : ∀ pool cbs, (onCommands (CommandTracker.allocate pool cbs)).Confined R)
    (device : Handle) {call : Call} (other : ¬Equips call) :
    (recordCreation device call).Confined R := by
  have nothing : ∀ {β : Type} {x : Track Trackers β}, x.Confined R →
      (recordCreation.nothing x).Confined R := fun hx =>
    hx.discard.bind fun _ => confined_pure _
  cases call with
  | getDeviceQueue | createFence | createSemaphore => exact absurd trivial other
  | allocateMemory => exact (confined_onMemory quiet _).bind fun _ => confined_pure _
  | createBuffer | createImage | createSwapchain => exact nothing (confined_onResources quiet _)
  | createCommandPool _ pool flags => exact nothing (makes pool flags)
  | allocateCommandBuffers _ pool cbs => exact (allocates pool cbs).bind fun _ => confined_pure _
  | getFenceStatus | queueWaitIdle => exact nothing (confined_query _)
  | waitForFences _ fences waitAll =>
      show (if waitAll = true ∨ fences.length = 1 then _ else _ : Track _ _).Confined R
      split
      · exact nothing (Confined.forM (fun _ => (confined_query _).discard) fences)
      · exact confined_pure _
  | createDevice | destroyDevice | deviceWaitIdle | freeMemory | mapMemory | unmapMemory
  | destroyBuffer | destroyImage | bindBufferMemory | bindImageMemory | unbindMemory
  | queueBindSparse | destroySwapchain | destroyCommandPool | resetCommandPool
  | freeCommandBuffers | beginCommandBuffer | endCommandBuffer | resetCommandBuffer
  | recordCommand | destroyFence | resetFences | destroySemaphore | queueSubmit =>
      exact confined_pure _

end Quiet

end Trackers

/-! ## Operations beside the queues -/

namespace Trackers

variable {α : Type} {t u : Trackers}

/-- The queues stay, and no command buffer is submitted. -/
structure Steady (t u : Trackers) : Prop where
  /-- The queues stay. -/
  queues : u.queues = t.queues
  /-- No command buffer is submitted. -/
  commands : t.commands.Inherits u.commands

instance : IsPreorder Trackers Steady where
  refl t := ⟨rfl, refl_of CommandTracker.Inherits t.commands⟩
  trans _ _ _ h k := ⟨k.queues.trans h.queues, trans_of CommandTracker.Inherits h.commands k.commands⟩

theorem steady_of_eq (t u : Trackers) (hq : u.queues = t.queues) (hc : u.commands = t.commands) :
    Steady t u :=
  ⟨hq, CommandTracker.inherits_of_buffers (by rw [hc])⟩

theorem onCommands_steady {x : Track CommandTracker α} (hx : x.Confined CommandTracker.Inherits) :
    (onCommands x).Confined Steady :=
  hx.within fun _ _ h => ⟨rfl, h⟩

theorem change_steady (cb : Handle) {f : CommandBuffer → CommandBuffer}
    (hf : ∀ b, (f b).lastSubmission = none ∨ (f b).lastSubmission = b.lastSubmission ∧
      (b.state = .executable → (f b).state = .executable)) :
    (modify fun t => { t with commands := t.commands.change cb f } :
      Track Trackers PUnit).Confined Steady :=
  confined_modify fun _ => ⟨rfl, CommandTracker.inherits_change cb hf⟩

theorem releaseAll_steady (cb : Handle) : (releaseAll cb).Confined Steady :=
  (confined_query _).bind fun _ => Confined.bind (change_steady cb fun _ => .inr ⟨rfl, id⟩) fun _ =>
    confined_releaseLinks steady_of_eq cb _

theorem clear_steady (cb : Handle) : (clear cb).Confined Steady :=
  (releaseAll_steady cb).bind fun _ => change_steady cb fun _ => .inl rfl

theorem begin_steady (cb : Handle) (usage : CommandBufferUsage) :
    (begin cb usage).Confined Steady :=
  (confined_query _).bind fun _ => (releaseAll_steady cb).bind fun _ =>
    Confined.bind (change_steady cb fun _ => .inl rfl) fun _ => confined_debug _

theorem recordLink_steady (cb memory : Handle) : (recordLink cb memory).Confined Steady :=
  confined_recordLink steady_of_eq (change_steady cb fun _ => .inr ⟨rfl, id⟩)

theorem destroyCommandBuffer_steady (cb : Handle) : (destroyCommandBuffer cb).Confined Steady :=
  confined_destroyCommandBuffer
    (fun _ _ _ view => ⟨rfl, CommandTracker.inherits_strike view⟩)
    (confined_releaseLinks steady_of_eq cb)
    fun _ _ => ⟨rfl, CommandTracker.inherits_of_buffers rfl⟩

theorem validate_steady (owners : Owners) (device : Handle) {call : Call}
    (other : ¬Schedules call) : (validate owners device call).Confined Steady :=
  confined_validate steady_of_eq begin_steady
    (fun cb => onCommands_steady (CommandTracker.finish_confined cb))
    (fun cb => confined_reset (clear_steady cb)) recordLink_steady destroyCommandBuffer_steady
    (fun _ _ _ _ _ => ⟨rfl, CommandTracker.inherits_of_buffers rfl⟩) owners device other

theorem recordCreation_steady (device : Handle) {call : Call} (other : ¬Equips call) :
    (recordCreation device call).Confined Steady :=
  confined_recordCreation steady_of_eq
    (fun pool flags => onCommands_steady (CommandTracker.createPool_confined pool flags))
    (fun pool cbs => onCommands_steady (CommandTracker.allocate_confined pool cbs)) device other

end Trackers

end GpuAudit
