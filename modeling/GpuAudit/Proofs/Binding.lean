import GpuAudit.Binding
import GpuAudit.Proofs.Edit

/-!
# Bindings are released before they are replaced

`bind`, `unbind` and `destroyResource` make the edits that keep the two sides of a
binding together, and change nothing where they fail.

A list of sparse bindings is checked on the books as they are before the list.
`Foresees` relates these to the books after a part of the list: a resource is bound
there as the check remembers it, and all else that the check asks for is as before.
So no binding of a list that passes is refused.
-/

namespace GpuAudit

/-- The binding that a sparse binding asks for. -/
def SparseBind.binding (b : SparseBind) : Binding :=
  match b.memory with
  | some memory => .memory memory b.offset
  | none => .unbound

/-- The resources bound as sparse bindings ask, one after another. -/
def ResourceTracker.followed (t : ResourceTracker) (bs : List SparseBind) : ResourceTracker :=
  bs.foldl (fun t b => t.rebound b.resource b.binding) t

/-- The use that a resource was created for allows memory with these properties: there is
some, and lazily allocated memory is for transient attachments. -/
def ResourceInfo.Suits (info : ResourceInfo) (properties : MemoryProperties) : Prop :=
  info.hasUsage = true ∧ (properties.contains MemoryProperties.lazilyAllocated = true →
    ∃ image, info = .image image ∧
      image.usage.contains ImageUsage.transientAttachment = true)

namespace Trackers

open MemoryObject (maxRefCount)

variable {t u : Trackers} (gone : List Handle) {r memory : Handle} {x : Resource}

/-! ## What the rules check -/

theorem replaced_eq_ok_iff {previous : Option Handle} :
    ResourceTracker.replaced r memory x = .ok previous ↔
      (x.binding = .unbound ∧ previous = none) ∨
        ∃ current offset, x.binding = .memory current offset ∧ x.info.isSparse = true ∧
          previous = some current := by
  unfold ResourceTracker.replaced
  split
  next s hs => simp [hs]
  next current offset hb =>
    rw [hb]
    constructor
    · intro he
      split at he
      next sparse =>
        cases he
        exact .inr ⟨current, offset, rfl, sparse, rfl⟩
      next _ => cases he
    · rintro (⟨hn, _⟩ | ⟨_, _, hc, sparse, rfl⟩)
      · cases hn
      · cases hc
        exact if_pos sparse
  next hb =>
    constructor
    · intro he
      cases he
      exact .inl ⟨hb, rfl⟩
    · rintro (⟨_, rfl⟩ | ⟨_, _, hc, _⟩)
      · rfl
      · rw [hb] at hc
        cases hc

theorem checkBindUsage_eq_ok_iff {info : ResourceInfo} {properties : MemoryProperties} {v : Unit} :
    ResourceTracker.checkBindUsage r info properties = .ok v ↔ info.Suits properties := by
  unfold ResourceTracker.checkBindUsage ResourceInfo.Suits
  by_cases used : info.hasUsage = true
  · by_cases lazily : properties.contains MemoryProperties.lazilyAllocated = true
    · cases info with
      | buffer buffer => simp [used, lazily]
      | image image =>
          by_cases transient : image.usage.contains ImageUsage.transientAttachment = true
          · simp [used, transient]
          · simp [used, lazily, transient]
    · simp [used, lazily]
  · simp [used]

theorem checkBind_eq_ok_iff {resources : ResourceTracker} {allocations : MemoryTracker}
    {offset : UInt64} {kind : ObjectKind} {previous : Option Handle} :
    resources.checkBind allocations r memory offset kind = .ok previous ↔
      r.kind = kind ∧ ∃ x m, resources.find? r = some x ∧
        allocations.objects.find? memory = some m ∧
        ResourceTracker.replaced r memory x = .ok previous ∧
        ResourceTracker.checkBindUsage r x.info m.info.properties = .ok () ∧
        offset.toNat + x.info.memorySize.toNat ≤ m.info.size.toNat := by
  unfold ResourceTracker.checkBind
  simp only [bind_eq_ok_iff, Registry.checkKind_eq_ok_iff, ResourceTracker.lookup_eq_ok_iff,
    MemoryTracker.lookup_eq_ok_iff]
  constructor
  · rintro ⟨_, hk, x, hx, m, hm, prev, hp, _, hu, h⟩
    split at h
    next fits =>
      cases h
      exact ⟨hk, x, m, hx, hm, hp, hu, MemoryObject.holds_iff.mp fits⟩
    next _ => cases h
  · rintro ⟨hk, x, m, hx, hm, hp, hu, fits⟩
    exact ⟨(), hk, x, hx, m, hm, previous, hp, (), hu, if_pos (MemoryObject.holds_iff.mpr fits)⟩

/-! ## Single bindings -/

/-- The same allocations are live, with the same sizes and properties. -/
def SameAllocations (t u : Trackers) : Prop :=
  ∀ g, (u.memory.objects.find? g).map (·.info) = (t.memory.objects.find? g).map (·.info)

theorem SameAllocations.trans {v : Trackers} (h : SameAllocations t u) (h' : SameAllocations u v) :
    SameAllocations t v := fun g => (h' g).trans (h g)

theorem sameAllocations_attach (t : Trackers) (memory r : Handle) :
    SameAllocations t { t with memory := t.memory.change memory (·.attach r) } :=
  MemoryTracker.part_change fun _ => rfl

theorem sameAllocations_detach (t : Trackers) (memory r : Handle) :
    SameAllocations t { t with memory := t.memory.change memory (·.detach r) } :=
  MemoryTracker.part_change fun _ => rfl

/-- The link of a bound resource can be removed. -/
theorem removeBinding_of_bound (h : t.Sound) {offset : UInt64}
    (hx : t.resources.find? r = some x) (hb : x.binding = .memory memory offset) :
    (discard ((onMemory (MemoryTracker.removeBinding memory r)).restate
      (ResourceTracker.inconsistent r))).Ends t
      (fun _ u => u = { t with memory := t.memory.change memory (·.detach r) })
      fun _ _ => False := by
  obtain ⟨m, hm, hr⟩ := h.linked.live (boundTo_of_binding hx hb)
  rw [Track.ends_discard, Track.ends_restate, onMemory, Track.ends_within]
  refine (MemoryTracker.removeBinding_ends hm (h.linked.tallied memory m hm) hr).mono
    (fun _ u hu => ?_) fun _ _ hf => hf
  rw [hu]

/-- The link of a resource that the allocation does not list can be entered. -/
theorem addBinding_of_not_listed (h : t.memory.Tallied) {m : MemoryObject}
    (hm : t.memory.objects.find? memory = some m) (new : r ∉ m.bindings) :
    (discard (onMemory (MemoryTracker.addBinding memory r))).Ends t
      (fun _ u => u = { t with memory := t.memory.change memory (·.attach r) })
      fun v u => (v.isFatal = true ∧ ¬u.memory.Counted) ∧ maxRefCount ≤ m.refCount := by
  rw [Track.ends_discard, onMemory, Track.ends_within]
  refine (MemoryTracker.addBinding_ends hm (h memory m hm) new).mono (fun _ u hu => ?_)
    fun _ _ hf => hf
  rw [hu]

/-- A resource is listed by the allocation it is bound to, and by no other. -/
theorem not_listed (h : t.Linked) {m : MemoryObject} (hx : t.resources.find? r = some x)
    (hm : t.memory.objects.find? memory = some m) (other : x.memory? ≠ some memory) :
    r ∉ m.bindings := fun hr => by
  obtain ⟨y, hy, hb⟩ := (h.bound r memory).mpr ⟨m, hm, hr⟩
  rw [hx] at hy
  cases hy
  exact other hb

theorem memory?_of_binding {offset : UInt64} (hb : x.binding = .memory memory offset) :
    x.memory? = some memory := by
  unfold Resource.memory?
  rw [hb]

/-- The books after a resource has been bound.  A link that moves to another allocation is
released before it is entered. -/
def boundAt (t : Trackers) (r memory : Handle) (offset : UInt64) (previous : Option Handle) :
    Trackers :=
  { t with
    memory := match previous with
      | none => t.memory.change memory (·.attach r)
      | some old =>
          if old = memory then t.memory
          else (t.memory.change old (·.detach r)).change memory (·.attach r)
    resources := t.resources.rebound r (.memory memory offset) }

/-- A binding that passes the check is made, unless the allocation has as many links as can be
counted and none to the resource. -/
theorem bind_of_check (h : t.Sound) {offset : UInt64} {kind : ObjectKind}
    {previous : Option Handle}
    (hp : t.resources.checkBind t.memory r memory offset kind = .ok previous) :
    (bind r memory offset kind).Ends t (fun _ u => u = t.boundAt r memory offset previous)
      fun v u => (v.isFatal = true ∧ ¬u.memory.Counted) ∧
        ∃ m, t.memory.objects.find? memory = some m ∧ r ∉ m.bindings ∧
          maxRefCount ≤ m.refCount := by
  unfold bind
  rw [Track.ends_bind, Track.ends_query, hp, Track.ends_ofExcept_ok]
  obtain ⟨-, x, m, hx, hm, hrep, -, -⟩ := checkBind_eq_ok_iff.mp hp
  rcases replaced_eq_ok_iff.mp hrep with ⟨unbound, rfl⟩ | ⟨current, off, bound, -, rfl⟩
  · simp only [ne_eq, reduceCtorEq, not_false_eq_true, if_true, Track.ends_bind]
    have new := not_listed h.linked hx hm (by simp [Resource.memory?, unbound])
    refine (addBinding_of_not_listed h.linked.tallied hm new).mono (fun _ u hu => ?_)
      fun _ _ hf => ⟨hf.1, m, hm, new, hf.2⟩
    rw [hu]
    exact rfl
  · by_cases same : current = memory
    · simp only [same, ne_eq, not_true_eq_false, if_false, Track.ends_bind]
      simp [boundAt]
    · simp only [same, ne_eq, not_false_eq_true, if_true, Option.some.injEq, Track.ends_bind]
      refine (removeBinding_of_bound h hx bound).mono (fun _ u hu => ?_) fun _ _ hf => hf.elim
      rw [hu]
      have new := not_listed h.linked hx hm (by
        rw [memory?_of_binding bound]
        simpa using same)
      have hm' : (t.memory.change current (·.detach r)).objects.find? memory = some m := by
        rw [MemoryTracker.find?_change, if_neg (Ne.symm same), hm]
      have first : Edit [] t _ := .detached hx bound
      have tallied : (t.memory.change current (·.detach r)).Tallied := (h.linked.edit first).tallied
      refine (addBinding_of_not_listed tallied hm' new).mono (fun _ u hu => ?_)
        fun _ _ hf => ⟨hf.1, m, hm, new, hf.2⟩
      rw [hu, boundAt]
      simp [same]

/-- A resource is bound by at most two edits: the old link goes before the new one is made. -/
theorem boundAt_edits {offset : UInt64} {kind : ObjectKind} {previous : Option Handle}
    (hp : t.resources.checkBind t.memory r memory offset kind = .ok previous) :
    Edits gone t (t.boundAt r memory offset previous) ∧
      SameAllocations t (t.boundAt r memory offset previous) := by
  obtain ⟨-, x, m, hx, hm, hrep, -, -⟩ := checkBind_eq_ok_iff.mp hp
  rcases replaced_eq_ok_iff.mp hrep with ⟨unbound, rfl⟩ | ⟨current, off, bound, -, rfl⟩
  · exact ⟨.single (.attached offset hx unbound hm), sameAllocations_attach t memory r⟩
  · by_cases same : current = memory
    · simp only [boundAt, same, if_true]
      exact ⟨.single (.moved offset hx (same ▸ bound)), fun _ => rfl⟩
    · simp only [boundAt, same, if_false]
      have unbound : (t.resources.rebound r .unbound).find? r =
          some { x with binding := .unbound } := by
        rw [ResourceTracker.find?_rebound, if_pos rfl, hx, Option.map_some]
      have hm' : (t.memory.change current (·.detach r)).objects.find? memory = some m := by
        rw [MemoryTracker.find?_change, if_neg (Ne.symm same), hm]
      have first : Edit gone t _ := .detached hx bound
      have released := sameAllocations_detach t current r
      have entered := sameAllocations_attach
        { t with memory := t.memory.change current (·.detach r) } memory r
      refine ⟨(Relation.ReflTransGen.single first).tail ?_, released.trans entered⟩
      rw [← ResourceTracker.rebound_rebound .unbound (.memory memory offset)]
      exact .attached offset unbound rfl hm'

theorem bind_ends (h : t.Sound) (r memory : Handle) (offset : UInt64) (kind : ObjectKind) :
    (bind r memory offset kind).Ends t (fun _ u => Edits gone t u) (Fails t) := by
  cases hp : t.resources.checkBind t.memory r memory offset kind with
  | ok previous =>
      refine (bind_of_check h hp).mono (fun _ u hu => ?_) fun _ _ hf => .inr hf.1
      exact hu ▸ (boundAt_edits gone hp).1
  | error v =>
      unfold bind
      rw [Track.ends_bind, Track.ends_query, hp]
      exact fails_of_refused (t.resources.mild_checkBind r t.memory memory offset kind v hp)

/-- The binding of a bound resource is released. -/
theorem unbind_of_bound (h : t.Sound) {offset : UInt64} (hx : t.resources.find? r = some x)
    (bound : x.binding = .memory memory offset) :
    (unbind r).Ends t
      (fun _ u => Edits gone t u ∧ SameAllocations t u ∧
        u.resources = t.resources.rebound r .unbound) fun _ _ => False := by
  unfold unbind
  rw [Track.ends_bind, Track.ends_query, ResourceTracker.lookup_eq_ok_iff.mpr hx,
    Track.ends_ofExcept_ok, bound]
  simp only [Track.ends_bind]
  refine (removeBinding_of_bound h hx bound).mono (fun _ u hu => ?_) fun _ _ hf => hf
  rw [hu]
  exact ⟨.single (.detached hx bound), sameAllocations_detach t memory r, rfl⟩

theorem unbind_ends (h : t.Sound) (r : Handle) :
    (unbind r).Ends t (fun _ u => Edits gone t u) (Track.Refused t) := by
  cases hl : t.resources.lookup r with
  | error v =>
      unfold unbind
      rw [Track.ends_bind, Track.ends_query, hl]
      exact ⟨t.resources.mild_lookup r v hl, rfl⟩
  | ok x =>
      have hx := ResourceTracker.lookup_eq_ok_iff.mp hl
      cases hb : x.binding with
      | memory memory offset =>
          exact (unbind_of_bound gone h hx hb).mono (fun _ _ hu => hu.1) fun _ _ hf => hf.elim
      | unbound =>
          unfold unbind
          rw [Track.ends_bind, Track.ends_query, hl, Track.ends_ofExcept_ok, hb]
          exact ⟨rfl, rfl⟩
      | swapchain s =>
          unfold unbind
          rw [Track.ends_bind, Track.ends_query, hl, Track.ends_ofExcept_ok, hb]
          exact ⟨rfl, rfl⟩

theorem destroyResource_ends (h : t.Sound) (r : Handle) :
    (destroyResource r).Ends t (fun _ u => Edits gone t u) (Track.Refused t) := by
  unfold destroyResource
  refine Track.Asks.before (Track.asks_query fun t => t.resources.mild_lookup r)
    (fun x hx => ?_) fun _ hv => ⟨hv, rfl⟩
  rw [Track.on_query, ResourceTracker.lookup_eq_ok_iff] at hx
  split
  next s _ => exact ⟨rfl, rfl⟩
  next memory offset bound =>
    rw [Track.ends_bind, Track.ends_discard]
    refine (unbind_of_bound gone h hx bound).mono (fun _ u hu => ?_) fun _ _ hf => hf.elim
    obtain ⟨edits, -, hres⟩ := hu
    have unbound : u.resources.find? r = some { x with binding := .unbound } := by
      rw [hres, ResourceTracker.find?_rebound, if_pos rfl, hx, Option.map_some]
    rw [Track.ends_bind, onResources, Track.ends_within]
    refine (ResourceTracker.remove_ends unbound rfl).mono (fun _ u' hu' => ?_)
      fun _ _ hf => hf.elim
    exact edits.tail (.resources hu')
  next unbound =>
    rw [Track.ends_bind, onResources, Track.ends_within]
    refine (ResourceTracker.remove_ends hx unbound).mono (fun _ u hu => ?_) fun _ _ hf => hf.elim
    exact .single (.resources hu)

/-! ## Sparse bindings -/

/-- A binding after a part of a list, where the check remembers whether it is there. -/
def Remembered (before after : Binding) : Option Bool → Prop
  | some true => ∃ memory offset, after = .memory memory offset
  | some false => after = .unbound
  | none => after = before

/-- The books after a part of a list are as the check of the list remembers them. -/
structure Foresees (t : Trackers) (bound : Std.ExtTreeMap Handle Bool) (u : Trackers) : Prop where
  /-- No allocation is entered or struck out. -/
  allocations : SameAllocations t u
  /-- Resources differ in their bindings only, and there as remembered. -/
  resources : ∀ r x, t.resources.find? r = some x → ∃ y, u.resources.find? r = some y ∧
    y.info = x.info ∧ Remembered x.binding y.binding bound[r]?
  /-- No resource is entered. -/
  absent : ∀ r, t.resources.find? r = none → u.resources.find? r = none

theorem foresees_refl (t : Trackers) : Foresees t ∅ t :=
  ⟨fun _ => rfl, fun _ x hx => ⟨x, hx, rfl, by simp [Remembered]⟩, fun _ h => h⟩

/-- After one more binding of the list the check remembers one resource more. -/
theorem Foresees.rebound {bound : Std.ExtTreeMap Handle Bool} (h : Foresees t bound u)
    {v : Trackers} {binding : Binding} (isBound : Bool) (same : SameAllocations u v)
    (hv : v.resources = u.resources.rebound r binding)
    (hb : Remembered .unbound binding (some isBound)) : Foresees t (bound.insert r isBound) v := by
  refine ⟨h.allocations.trans same, fun g x hx => ?_, fun g hg => ?_⟩
  case refine_2 => simp [hv, ResourceTracker.find?_rebound, h.absent g hg]
  obtain ⟨y, hy, hi, hr⟩ := h.resources g x hx
  rw [hv, ResourceTracker.find?_rebound, Std.ExtTreeMap.getElem?_insert]
  by_cases hg : g = r
  · subst hg
    rw [if_pos rfl, hy, if_pos Std.ReflCmp.compare_self]
    refine ⟨{ y with binding }, rfl, hi, ?_⟩
    cases isBound with
    | true => exact hb
    | false => exact hb
  · rw [if_neg hg, if_neg (by simpa using Ne.symm hg)]
    exact ⟨y, hy, hi, hr⟩

theorem Foresees.allocation {bound : Std.ExtTreeMap Handle Bool} (h : Foresees t bound u)
    {m : MemoryObject} (hm : t.memory.objects.find? memory = some m) :
    ∃ m', u.memory.objects.find? memory = some m' ∧ m'.info = m.info := by
  have := h.allocations memory
  rw [hm, Option.map_some, Option.map_eq_some_iff] at this
  exact this

theorem binding_of_some {b : SparseBind} (hm : b.memory = some memory) :
    b.binding = .memory memory b.offset := by
  unfold SparseBind.binding
  rw [hm]

theorem binding_of_none {b : SparseBind} (hm : b.memory = none) : b.binding = .unbound := by
  unfold SparseBind.binding
  rw [hm]

theorem applySparse_of_some {b : SparseBind} (hm : b.memory = some memory) :
    applySparse b = bind b.resource memory b.offset b.resource.kind := by
  unfold applySparse
  rw [hm]

theorem applySparse_of_none {b : SparseBind} (hm : b.memory = none) :
    applySparse b = discard (unbind b.resource) := by
  unfold applySparse
  rw [hm]

/-- A sparse resource belongs to no swapchain, and is bound as the check remembers. -/
theorem Foresees.record {bound : Std.ExtTreeMap Handle Bool} (h : Foresees t bound u)
    (chained : t.resources.Chained) (hx : t.resources.find? r = some x)
    (sparse : x.info.isSparse = true) :
    ∃ y, u.resources.find? r = some y ∧ y.info = x.info ∧
      (y.binding = .unbound ∨ ∃ memory offset, y.binding = .memory memory offset) ∧
      (bound[r]?).getD (decide (x.binding ≠ .unbound)) = decide (y.binding ≠ .unbound) := by
  obtain ⟨y, hy, hi, hr⟩ := h.resources r x hx
  refine ⟨y, hy, hi, ?_⟩
  match bound[r]?, hr with
  | some true, ⟨memory, offset, hb⟩ => simp [hb]
  | some false, hb =>
      have hb : y.binding = .unbound := hb
      simp [hb]
  | none, same =>
      have same : y.binding = x.binding := same
      rw [same]
      refine ⟨?_, rfl⟩
      cases hb : x.binding with
      | unbound => exact .inl rfl
      | memory memory offset => exact .inr ⟨memory, offset, rfl⟩
      | swapchain s =>
          obtain ⟨-, usage, rfl⟩ := chained.presentable r x s hx hb
          cases sparse

theorem replaced_of_sparse (sparse : x.info.isSparse = true)
    (hb : x.binding = .unbound ∨ ∃ memory offset, x.binding = .memory memory offset) :
    ∃ previous, ResourceTracker.replaced r memory x = .ok previous := by
  rcases hb with hb | ⟨current, offset, hb⟩
  · exact ⟨none, replaced_eq_ok_iff.mpr (.inl ⟨hb, rfl⟩)⟩
  · exact ⟨some current, replaced_eq_ok_iff.mpr (.inr ⟨current, offset, hb, sparse, rfl⟩)⟩

/-- A binding of a sparse resource fares after a part of a list as it does before. -/
theorem Foresees.checkBind {bound : Std.ExtTreeMap Handle Bool} (h : Foresees t bound u)
    (chained : t.resources.Chained) (hx : t.resources.find? r = some x)
    (sparse : x.info.isSparse = true) (memory : Handle) (offset : UInt64) (kind : ObjectKind) :
    discard (u.resources.checkBind u.memory r memory offset kind) =
      discard (t.resources.checkBind t.memory r memory offset kind) := by
  obtain ⟨y, hy, hi, hb, -⟩ := h.record chained hx sparse
  obtain ⟨x', hx', -, hbx, -⟩ := (foresees_refl t).record chained hx sparse
  cases hx.symm.trans hx'
  obtain ⟨p, hp⟩ : ∃ p, ResourceTracker.replaced r memory y = .ok p :=
    replaced_of_sparse (by rw [hi, sparse]) hb
  obtain ⟨q, hq⟩ : ∃ q, ResourceTracker.replaced r memory x = .ok q :=
    replaced_of_sparse sparse hbx
  unfold ResourceTracker.checkBind
  rw [ResourceTracker.lookup_eq_ok_iff.mpr hx, ResourceTracker.lookup_eq_ok_iff.mpr hy]
  cases Registry.checkKind kind r with
  | error v => rfl
  | ok _ =>
      cases hm : t.memory.objects.find? memory with
      | none =>
          have gone : u.memory.objects.find? memory = none := by
            simpa [hm] using h.allocations memory
          obtain ⟨v, hv, hv'⟩ := Registry.lookup_of_absent hm gone
          simp only [MemoryTracker.lookup, hv, hv']
          rfl
      | some m =>
          obtain ⟨m', hm', him⟩ := h.allocation hm
          rw [MemoryTracker.lookup_eq_ok_iff.mpr hm, MemoryTracker.lookup_eq_ok_iff.mpr hm']
          have holds : m'.holds offset x.info.memorySize = m.holds offset x.info.memorySize := by
            unfold MemoryObject.holds
            rw [him]
          simp only [Bind.bind, Except.bind, hp, hq, hi, him, holds]
          cases ResourceTracker.checkBindUsage r x.info m.info.properties with
          | error v => rfl
          | ok _ =>
              dsimp only
              split
              · rfl
              · rfl

/-- A list is checked from its first binding on; the check remembers whether that binds
its resource or releases it. -/
theorem checkSparse_cons (t : Trackers) (bound : Std.ExtTreeMap Handle Bool) (b : SparseBind)
    (bs : List SparseBind) : t.checkSparse bound (b :: bs) = (do
      t.checkSparse bound [b]
      t.checkSparse (bound.insert b.resource b.memory.isSome) bs) := by
  simp only [checkSparse]
  cases t.resources.lookup b.resource with
  | error v => rfl
  | ok x =>
      simp only [Bind.bind, Except.bind]
      split
      next => rfl
      next =>
        cases b.memory with
        | some memory =>
            dsimp only
            split
            · rfl
            · rfl
        | none =>
            dsimp only
            split
            · rfl
            · rfl

/-- The first binding after a part of a list fares as the check of the list says. -/
theorem Foresees.checkSparse {bound : Std.ExtTreeMap Handle Bool} (h : Foresees t bound u)
    (chained : t.resources.Chained) (b : SparseBind) :
    u.checkSparse ∅ [b] = t.checkSparse bound [b] := by
  simp only [Trackers.checkSparse]
  cases hx : t.resources.find? b.resource with
  | none =>
      obtain ⟨v, hv, hv'⟩ := ResourceTracker.lookup_of_absent hx (h.absent _ hx)
      rw [hv, hv']
      rfl
  | some x =>
      rw [ResourceTracker.lookup_eq_ok_iff.mpr hx]
      by_cases sparse : x.info.isSparse = true
      · obtain ⟨y, hy, hi, -, isBound⟩ := h.record chained hx sparse
        rw [ResourceTracker.lookup_eq_ok_iff.mpr hy]
        simp only [Bind.bind, Except.bind, hi, sparse]
        cases b.memory with
        | some memory =>
            simp only [h.checkBind chained hx sparse]
        | none =>
            simp only [isBound]
            simp
      · obtain ⟨y, hy, hi, -⟩ := h.resources b.resource x hx
        rw [ResourceTracker.lookup_eq_ok_iff.mpr hy]
        simp only [Bind.bind, Except.bind, hi, sparse]
        simp

/-- A sparse binding that passes the check is applied. -/
theorem applySparse_of_check (h : t.Sound) {b : SparseBind} (hc : t.checkSparse ∅ [b] = .ok ()) :
    (applySparse b).Ends t
      (fun _ u => Edits gone t u ∧ SameAllocations t u ∧
        u.resources = t.resources.rebound b.resource b.binding)
      fun v u => v.isFatal = true ∧ ¬u.memory.Counted := by
  simp only [checkSparse] at hc
  obtain ⟨x, hl, hc⟩ := bind_eq_ok_iff.mp hc
  have hx := ResourceTracker.lookup_eq_ok_iff.mp hl
  split at hc
  next => cases hc
  next sparse =>
    have sparse : x.info.isSparse = true := by simpa using sparse
    cases hm : b.memory with
    | some memory =>
        rw [hm] at hc
        obtain ⟨_, hcheck, -⟩ := bind_eq_ok_iff.mp hc
        obtain ⟨previous, hcheck⟩ := discard_eq_ok_iff.mp hcheck
        rw [applySparse_of_some hm, binding_of_some hm]
        refine (bind_of_check h hcheck).mono (fun _ u hu => ?_) fun _ _ hf => hf.1
        obtain ⟨edits, same⟩ := boundAt_edits gone hcheck
        exact hu ▸ ⟨edits, same, rfl⟩
    | none =>
        rw [hm] at hc
        obtain ⟨y, hy, -, hb, -⟩ := (foresees_refl t).record h.chained hx sparse
        cases hx.symm.trans hy
        rw [applySparse_of_none hm, binding_of_none hm, Track.ends_discard]
        rcases hb with hb | ⟨memory, offset, hb⟩
        · simp [hb] at hc
        · exact (unbind_of_bound gone h hx hb).mono (fun _ _ hu => hu) fun _ _ hf => hf.elim

/-- After one more binding of the list the check remembers one resource more. -/
theorem Foresees.applied {bound : Std.ExtTreeMap Handle Bool} (h : Foresees t bound u)
    {v : Trackers} (b : SparseBind) (same : SameAllocations u v)
    (hv : v.resources = u.resources.rebound b.resource b.binding) :
    Foresees t (bound.insert b.resource b.memory.isSome) v := by
  refine h.rebound b.memory.isSome same hv ?_
  cases hm : b.memory with
  | some memory => exact ⟨memory, b.offset, binding_of_some hm⟩
  | none => exact binding_of_none hm

/-- A list of sparse bindings that passes the check is applied as a whole. -/
theorem applySparse_ends (h : t.Sound) {bs : List SparseBind} {bound : Std.ExtTreeMap Handle Bool}
    (edits : Edits gone t u) (foresees : Foresees t bound u)
    (hc : t.checkSparse bound bs = .ok ()) :
    (bs.forM applySparse).Ends u
      (fun _ v => Edits gone t v ∧ v.resources = u.resources.followed bs)
      fun w v => w.isFatal = true ∧ ¬v.memory.Counted := by
  induction bs generalizing bound u with
  | nil => exact ⟨edits, rfl⟩
  | cons b bs ih =>
      rw [checkSparse_cons] at hc
      obtain ⟨_, first, rest⟩ := bind_eq_ok_iff.mp hc
      rw [← foresees.checkSparse h.chained] at first
      rw [Track.ends_forM_cons]
      refine (applySparse_of_check gone (h.edits edits) first).mono (fun _ v hv => ?_)
        fun _ _ hf => hf
      obtain ⟨step, same, hv⟩ := hv
      refine (ih (edits.trans step) (foresees.applied b same hv) rest).mono
        (fun _ w hw => ⟨hw.1, ?_⟩) fun _ _ hf => hf
      rw [hw.2, hv]
      rfl

theorem bindSparse_ends (h : t.Sound) (bs : List SparseBind) :
    (bindSparse bs).Ends t (fun _ u => Edits gone t u) (Fails t) := by
  unfold bindSparse
  refine Track.Asks.before (Track.asks_query fun t => t.mild_checkSparse ∅ bs) (fun _ hc => ?_)
    fun _ hv => fails_of_refused hv
  rw [Track.on_query] at hc
  exact (applySparse_ends gone h .refl (foresees_refl t) hc).mono (fun _ _ hu => hu.1)
    fun _ _ hf => .inr hf

end Trackers

end GpuAudit
