import GpuAudit.Proofs.Binding
import GpuAudit.Proofs.Stock

/-!
# Bindings that stay

A resource that is not sparse, and is bound to memory, is `Pinned`, and so is an image of
a swapchain.  `Rebinds` says that pinned resources keep their records, except those that
are named, and that every record is an old one or `Fits` the memory that it is bound to.

So `Rebinds` confines every operation that binds resources or releases them, whatever the
books are and wherever the operation stops: a list of sparse bindings names nothing, and
`unbind` and `destroyResource` name their resource.
-/

namespace GpuAudit

open Track (Confined confined_query confined_ofExcept confined_debug confined_pure confined_throw)

/-! ## Records -/

namespace Resource

variable {x : Resource} {allocations allocations' : MemoryTracker}

/-- Only a call that names the resource may change what it is bound to. -/
def Pinned (x : Resource) : Prop :=
  (∃ s, x.binding = .swapchain s) ∨
    x.info.isSparse = false ∧ ∃ memory offset, x.binding = .memory memory offset

/-- What a resource is bound to is live and large enough for it, and it was created for
some use, which lazily allocated memory asks to be a transient attachment. -/
def Fits (allocations : MemoryTracker) (x : Resource) : Prop :=
  ∀ memory offset, x.binding = .memory memory offset → x.info.hasUsage = true ∧
    ∃ m, allocations.objects.find? memory = some m ∧
      offset.toNat + x.info.memorySize.toNat ≤ m.info.size.toNat ∧
      (m.info.properties.contains MemoryProperties.lazilyAllocated = true →
        ∃ image, x.info = .image image ∧
          image.usage.contains ImageUsage.transientAttachment = true)

theorem fits_of_not_bound (h : ∀ memory offset, x.binding ≠ .memory memory offset) :
    x.Fits allocations := fun memory offset bound => absurd bound (h memory offset)

theorem Fits.of_sameInfo (h : x.Fits allocations) (same : allocations.SameInfo allocations') :
    x.Fits allocations' := by
  intro memory offset bound
  obtain ⟨used, m, hm, large, lazily⟩ := h memory offset bound
  obtain ⟨m', hm', he⟩ := same.info hm
  exact ⟨used, m', hm', he ▸ large, he ▸ lazily⟩

end Resource

namespace Trackers

variable {t u : Trackers} {named : Handle → Prop} {r memory : Handle} {x : Resource}
  {offset : UInt64}

/-- A binding that passes its check fits. -/
theorem fits_of_checkBindUsage {m : MemoryObject}
    (hm : t.memory.objects.find? memory = some m)
    (usage : ResourceTracker.checkBindUsage r x.info m.info.properties = .ok ())
    (large : offset.toNat + x.info.memorySize.toNat ≤ m.info.size.toNat) :
    ({ x with binding := .memory memory offset } : Resource).Fits t.memory := by
  intro memory' offset' bound
  cases bound
  obtain ⟨used, lazily⟩ := checkBindUsage_eq_ok_iff.mp usage
  exact ⟨used, m, hm, large, lazily⟩

/-! ## Links -/

/-- Only links of allocations change. -/
structure Relinks (t u : Trackers) : Prop where
  /-- The allocations stay. -/
  memory : t.memory.SameInfo u.memory
  /-- The resources stay. -/
  resources : u.resources = t.resources
  /-- The command buffers stay. -/
  commands : u.commands = t.commands
  /-- The queues stay. -/
  queues : u.queues = t.queues

instance : IsPreorder Trackers Relinks where
  refl t := ⟨refl_of _ t.memory, rfl, rfl, rfl⟩
  trans _ _ _ h k := ⟨trans_of _ h.memory k.memory, k.resources.trans h.resources,
    k.commands.trans h.commands, k.queues.trans h.queues⟩

theorem onMemory_relinks {α : Type} {x : Track MemoryTracker α}
    (hx : x.Confined MemoryTracker.SameInfo) : (onMemory x).Confined Relinks :=
  hx.within fun _ _ h => ⟨h, rfl, rfl, rfl⟩

theorem removeBinding_relinks (memory r : Handle) :
    (discard ((onMemory (MemoryTracker.removeBinding memory r)).restate
      (ResourceTracker.inconsistent r))).Confined Relinks :=
  ((onMemory_relinks (MemoryTracker.removeBinding_sameInfo memory r)).restate _).discard

theorem addBinding_relinks (memory r : Handle) :
    (discard (onMemory (MemoryTracker.addBinding memory r))).Confined Relinks :=
  (onMemory_relinks (MemoryTracker.addBinding_sameInfo memory r)).discard

/-! ## Rebinding -/

/-- Resources are bound differently, or struck out: those that are named, and others that
are not pinned. -/
structure Rebinds (named : Handle → Prop) (t u : Trackers) : Prop where
  /-- The allocations stay. -/
  memory : t.memory.SameInfo u.memory
  /-- The command buffers stay. -/
  commands : u.commands = t.commands
  /-- The queues stay. -/
  queues : u.queues = t.queues
  /-- Swapchains own their images. -/
  chained : t.resources.Chained → u.resources.Chained
  /-- No resource is entered. -/
  absent : ∀ r, t.resources.find? r = none → u.resources.find? r = none
  /-- What a resource was created as stays. -/
  info : ∀ r x y, t.resources.find? r = some x → u.resources.find? r = some y → y.info = x.info
  /-- Pinned resources stay as they are, unless they are named. -/
  kept : ∀ r x, t.resources.find? r = some x → x.Pinned → ¬named r →
    u.resources.find? r = some x
  /-- Other bindings fit. -/
  fits : ∀ r x, u.resources.find? r = some x → t.resources.find? r = some x ∨ x.Fits u.memory

theorem rebinds_of_relinks (h : Relinks t u) : Rebinds named t u where
  memory := h.memory
  commands := h.commands
  queues := h.queues
  chained := h.resources ▸ id
  absent _ hr := h.resources ▸ hr
  info r x y hx hy := by
    rw [h.resources, hx] at hy
    cases hy
    rfl
  kept _ _ hx _ _ := h.resources ▸ hx
  fits _ _ hx := .inl (h.resources ▸ hx)

instance : IsPreorder Trackers (Rebinds named) where
  refl t := rebinds_of_relinks (refl_of Relinks t)
  trans t u v h k := by
    refine ⟨trans_of _ h.memory k.memory, k.commands.trans h.commands, k.queues.trans h.queues,
      k.chained ∘ h.chained, fun r hr => k.absent r (h.absent r hr), fun r x z hx hz => ?_,
      fun r x hx pinned other => k.kept r x (h.kept r x hx pinned other) pinned other,
      fun r z hz => ?_⟩
    · cases hy : u.resources.find? r with
      | none =>
          rw [k.absent r hy] at hz
          cases hz
      | some y => rw [k.info r y z hy hz, h.info r x y hx hy]
    · rcases k.fits r z hz with hy | fits
      · rcases h.fits r z hy with hx | fits
        · exact .inl hx
        · exact .inr (fits.of_sameInfo k.memory)
      · exact .inr fits

theorem rebinds_refl (t : Trackers) : Rebinds named t t := refl_of (Rebinds named) t

/-- A resource is bound differently that is not pinned, or named. -/
theorem rebinds_rebound {binding : Binding} (h : Relinks t u)
    (hx : t.resources.find? r = some x) (free : ∀ s, x.binding ≠ .swapchain s)
    (loose : x.Pinned → named r) (apart : ∀ s, binding ≠ .swapchain s)
    (fits : ({ x with binding } : Resource).Fits t.memory) :
    Rebinds named t { u with resources := u.resources.rebound r binding } := by
  have view : ∀ g, (u.resources.rebound r binding).find? g =
      if g = r then some { x with binding } else t.resources.find? g := fun g => by
    rw [h.resources, ResourceTracker.find?_rebound]
    split
    next here => rw [here, hx, Option.map_some]
    next => rfl
  refine ⟨h.memory, h.commands, h.queues, fun chained => ?_, fun g hg => ?_, fun g y z hy hz => ?_,
    fun g y hy pinned other => ?_, fun g z hz => ?_⟩
  · show (u.resources.rebound r binding).Chained
    rw [h.resources]
    exact chained.rebound hx free apart
  · show (u.resources.rebound r binding).find? g = none
    rw [view, if_neg fun here => ?_, hg]
    rw [here, hx] at hg
    cases hg
  · have hz : (u.resources.rebound r binding).find? g = some z := hz
    rw [view] at hz
    split at hz
    next here =>
      rw [here, hx] at hy
      cases hy
      cases hz
      rfl
    next =>
      rw [hy] at hz
      cases hz
      rfl
  · show (u.resources.rebound r binding).find? g = some y
    rw [view, if_neg fun here => ?_, hy]
    rw [here, hx] at hy
    cases hy
    exact other (here ▸ loose pinned)
  · have hz : (u.resources.rebound r binding).find? g = some z := hz
    rw [view] at hz
    split at hz
    next here =>
      cases hz
      exact .inr (fits.of_sameInfo h.memory)
    next => exact .inl hz

/-- A binding that passes its check replaces none of a pinned resource. -/
theorem bind_rebinds (r memory : Handle) (offset : UInt64) (kind : ObjectKind) :
    (bind r memory offset kind).Confined (Rebinds named) := by
  intro t
  unfold bind
  rw [Track.ends_bind, Track.ends_query, Track.ends_ofExcept]
  refine ⟨fun previous hp => ?_, fun _ _ => rebinds_refl t⟩
  obtain ⟨-, x, m, hx, hm, hrep, usage, large⟩ := checkBind_eq_ok_iff.mp hp
  have loose : (∀ s, x.binding ≠ .swapchain s) ∧ ¬x.Pinned := by
    rcases replaced_eq_ok_iff.mp hrep with ⟨unbound, -⟩ | ⟨current, off, bound, sparse, -⟩
    · simp [Resource.Pinned, unbound]
    · simp [Resource.Pinned, bound, sparse]
  -- The links are entered first; the binding of the resource comes last.
  have last : ∀ u, Relinks t u → (do
      modify fun t => { t with resources := t.resources.rebound r (.memory memory offset) }
      Track.debug s!"bound {r} to {memory} at offset {offset}" : Track Trackers Unit).Ends u
        (fun _ => Rebinds named t) fun _ => Rebinds named t := fun u hu => by
    rw [Track.ends_bind, Track.ends_modify]
    exact rebinds_rebound hu hx loose.1 (fun pinned => absurd pinned loose.2)
      (fun s => by simp) (fits_of_checkBindUsage hm usage large)
  have stops : ∀ u, Relinks t u → Rebinds named t u := fun _ => rebinds_of_relinks
  have entered : ∀ u, Relinks t u → (do
      discard (onMemory (MemoryTracker.addBinding memory r))
      modify fun t => { t with resources := t.resources.rebound r (.memory memory offset) }
      Track.debug s!"bound {r} to {memory} at offset {offset}" : Track Trackers Unit).Ends u
        (fun _ => Rebinds named t) fun _ => Rebinds named t := fun u hu => by
    rw [Track.ends_bind]
    exact ((addBinding_relinks memory r).after hu).mono (fun _ v hv => last v hv)
      fun _ v hv => stops v hv
  have start := refl_of Relinks t
  rcases replaced_eq_ok_iff.mp hrep with ⟨-, rfl⟩ | ⟨current, -, -, -, rfl⟩
  · simp only [ne_eq, reduceCtorEq, not_false_eq_true, if_true]
    exact entered t start
  · by_cases same : current = memory
    · simp only [same, ne_eq, not_true_eq_false, if_false]
      exact last t start
    · simp only [same, ne_eq, not_false_eq_true, if_true, Option.some.injEq]
      rw [Track.ends_bind]
      exact ((removeBinding_relinks current r) t).mono (fun _ u hu => entered u hu)
        fun _ u hu => stops u hu

/-- Only a resource that is named, or sparse, is released. -/
theorem unbind_rebinds (t : Trackers)
    (loose : ∀ x, t.resources.find? r = some x → x.info.isSparse = false → named r) :
    (unbind r).Ends t (fun _ => Rebinds named t) fun _ => Rebinds named t := by
  unfold unbind
  rw [Track.ends_bind, Track.ends_query, Track.ends_ofExcept]
  refine ⟨fun x hl => ?_, fun _ _ => rebinds_refl t⟩
  have hx := ResourceTracker.lookup_eq_ok_iff.mp hl
  split
  next memory offset bound =>
    rw [Track.ends_bind]
    refine ((removeBinding_relinks memory r) t).mono (fun _ u hu => ?_)
      fun _ u hu => rebinds_of_relinks hu
    rw [Track.ends_bind, Track.ends_modify]
    refine rebinds_rebound hu hx (fun s => by simp [bound]) (fun pinned => ?_) (fun s => by simp)
      (Resource.fits_of_not_bound fun _ _ => by simp)
    rcases pinned with ⟨s, hs⟩ | ⟨sparse, -⟩
    · rw [bound] at hs
      cases hs
    · exact loose x hx sparse
  next => exact rebinds_refl t
  next => exact rebinds_refl t

/-- A resource that is released was bound to memory; it is not bound afterwards, and
otherwise as it was. -/
theorem unbind_views (t : Trackers) (r : Handle) :
    (unbind r).Ends t
      (fun _ u => ∃ x memory offset, t.resources.find? r = some x ∧
        x.binding = .memory memory offset ∧
        u.resources.find? r = some { x with binding := .unbound })
      fun _ u => u.resources = t.resources := by
  unfold unbind
  rw [Track.ends_bind, Track.ends_query, Track.ends_ofExcept]
  refine ⟨fun x hl => ?_, fun _ _ => rfl⟩
  have hx := ResourceTracker.lookup_eq_ok_iff.mp hl
  split
  next memory offset bound =>
    rw [Track.ends_bind]
    refine ((removeBinding_relinks memory r) t).mono (fun _ u hu => ?_)
      fun _ u hu => hu.resources
    rw [Track.ends_bind, Track.ends_modify]
    refine ⟨x, memory, offset, hx, bound, ?_⟩
    show (u.resources.rebound r .unbound).find? r = _
    rw [ResourceTracker.find?_rebound, if_pos rfl, hu.resources, hx, Option.map_some]
  next => exact rfl
  next => exact rfl

/-- A resource that belongs to no swapchain is struck out. -/
theorem rebinds_struck {resources : ResourceTracker} (h : Rebinds named t u)
    (hx : u.resources.find? r = some x) (unbound : x.binding = .unbound)
    (view : ∀ g, resources.find? g = if g = r then none else u.resources.find? g)
    (swapchains : resources.swapchains = u.resources.swapchains) :
    Rebinds named t { u with resources } := by
  refine trans_of (Rebinds named) h (?_ : Rebinds named u { u with resources })
  refine ⟨refl_of _ u.memory, rfl, rfl, fun chained => ?_,
    fun g hg => ?_, fun g y z hy hz => ?_, fun g y hy pinned _ => ?_, fun g z hz => ?_⟩
  · exact chained.edit (.removed hx unbound view swapchains)
  · show resources.find? g = none
    rw [view, hg, ite_self]
  · have hz : resources.find? g = some z := hz
    rw [view] at hz
    split at hz
    · cases hz
    · rw [hy] at hz
      cases hz
      rfl
  · show resources.find? g = some y
    rw [view, if_neg fun here => ?_, hy]
    rw [here, hx] at hy
    cases hy
    simp [Resource.Pinned, unbound] at pinned
  · have hz : resources.find? g = some z := hz
    rw [view] at hz
    split at hz
    · cases hz
    · exact .inl hz

theorem destroyResource_rebinds (r : Handle) (given : named r) :
    (destroyResource r).Confined (Rebinds named) := by
  intro t
  unfold destroyResource
  rw [Track.ends_bind, Track.ends_query, Track.ends_ofExcept]
  refine ⟨fun x hl => ?_, fun _ _ => rebinds_refl t⟩
  have hx := ResourceTracker.lookup_eq_ok_iff.mp hl
  have struck : ∀ u y, Rebinds named t u → u.resources.find? r = some y →
      y.binding = .unbound → (do
        let last ← onResources (ResourceTracker.remove r)
        Track.debug s!"destroyed {r}"
        return last : Track Trackers Resource).Ends u (fun _ => Rebinds named t)
          fun _ => Rebinds named t := fun u y hu hy unbound => by
    rw [Track.ends_bind, onResources, Track.ends_within]
    refine (ResourceTracker.remove_strikes hy).mono (fun _ v hv => ?_) fun _ _ hf => hf.elim
    exact rebinds_struck hu hy unbound hv.1 hv.2
  split
  next => exact rebinds_refl t
  next memory offset bound =>
    rw [Track.ends_bind, Track.ends_discard]
    refine ((unbind_rebinds t fun _ _ _ => given).and (unbind_views t r)).mono
      (fun _ u hu => ?_) fun _ _ hu => hu.1
    obtain ⟨rebinds, y, _, _, -, -, hy⟩ := hu
    exact struck u _ rebinds hy rfl
  next unbound => exact struck t x (rebinds_refl t) hx unbound

/-- A resource that is destroyed belonged to no swapchain and is gone; otherwise nothing
changes. -/
theorem destroyResource_views (t : Trackers) (r : Handle) :
    (destroyResource r).Ends t
      (fun _ u => (∀ x s, t.resources.find? r = some x → x.binding ≠ .swapchain s) ∧
        u.resources.find? r = none)
      fun _ u => u.resources = t.resources := by
  have struck : ∀ u x, u.resources.find? r = some x →
      (∀ x s, t.resources.find? r = some x → x.binding ≠ .swapchain s) → (do
        let last ← onResources (ResourceTracker.remove r)
        Track.debug s!"destroyed {r}"
        return last : Track Trackers Resource).Ends u
          (fun _ v => (∀ x s, t.resources.find? r = some x → x.binding ≠ .swapchain s) ∧
            v.resources.find? r = none)
          fun _ v => v.resources = t.resources := fun u x hx free => by
    rw [Track.ends_bind, onResources, Track.ends_within]
    refine (ResourceTracker.remove_strikes hx).mono (fun _ v hv => ?_) fun _ _ hf => hf.elim
    exact ⟨free, (hv.1 r).trans (if_pos rfl)⟩
  unfold destroyResource
  rw [Track.ends_bind, Track.ends_query, Track.ends_ofExcept]
  refine ⟨fun x hl => ?_, fun _ _ => rfl⟩
  have hx := ResourceTracker.lookup_eq_ok_iff.mp hl
  have free : (∀ s, x.binding ≠ .swapchain s) →
      ∀ y s, t.resources.find? r = some y → y.binding ≠ .swapchain s := fun apart y s hy => by
    rw [hx] at hy
    cases hy
    exact apart s
  split
  next => exact rfl
  next bound =>
    rw [Track.ends_bind, Track.ends_discard]
    refine (unbind_views t r).mono (fun _ u hu => ?_) fun _ _ hu => hu
    obtain ⟨y, _, _, -, -, hy⟩ := hu
    exact struck u _ hy (free fun s => by simp [bound])
  next unbound => exact struck t x hx (free fun s => by simp [unbound])

/-- A list of sparse bindings that passes its check names sparse resources only. -/
theorem sparse_of_checkSparse {bs : List SparseBind} {bound : Std.ExtTreeMap Handle Bool}
    (hc : t.checkSparse bound bs = .ok ()) {b : SparseBind} (hb : b ∈ bs) :
    ∃ x, t.resources.find? b.resource = some x ∧ x.info.isSparse = true := by
  induction bs generalizing bound with
  | nil => cases hb
  | cons c bs ih =>
      rw [checkSparse_cons] at hc
      obtain ⟨_, first, rest⟩ := bind_eq_ok_iff.mp hc
      rcases List.mem_cons.mp hb with rfl | hb
      · rw [checkSparse] at first
        obtain ⟨x, hl, first⟩ := bind_eq_ok_iff.mp first
        refine ⟨x, ResourceTracker.lookup_eq_ok_iff.mp hl, ?_⟩
        split at first
        · cases first
        next sparse => simpa using sparse
      · exact ih rest hb

/-- A list of sparse bindings changes no pinned resource, wherever it stops. -/
theorem bindSparse_rebinds (bs : List SparseBind) : (bindSparse bs).Confined (Rebinds named) := by
  intro t
  unfold bindSparse
  rw [Track.ends_bind, Track.ends_query, Track.ends_ofExcept]
  refine ⟨fun _ hc => ?_, fun _ _ => rebinds_refl t⟩
  refine Track.Ends.forM_keeps (Rebinds named t) (rebinds_refl t) fun b hb u hu => ?_
  obtain ⟨x, hx, sparse⟩ := sparse_of_checkSparse hc hb
  unfold applySparse
  split
  · exact (bind_rebinds _ _ _ _).after hu
  · have loose : ∀ y, u.resources.find? b.resource = some y → y.info.isSparse = false →
        named b.resource := fun y hy other => by
      rw [hu.info _ x y hx hy, sparse] at other
      cases other
    rw [Track.ends_discard]
    exact (unbind_rebinds u loose).mono (fun _ v hv => trans_of (Rebinds named) hu hv)
      fun _ v hv => trans_of (Rebinds named) hu hv

end Trackers

end GpuAudit
