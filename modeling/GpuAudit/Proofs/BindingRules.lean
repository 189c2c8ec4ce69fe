import GpuAudit.Proofs.Rebinding
import GpuAudit.Proofs.Sparse

/-!
# The rules of a binding

A resource is bound exactly if it `MayBind`: it and the allocation are known, the resource
may be bound again, its use allows the memory, and the range fits.  The rules are checked in
this order, and `BindFault` says what is raised at the first that is broken.

A binding that is made is entered on both sides (`Binds`): the allocation gains the link, the
one that the resource was bound to before loses it, and nothing happens to the links if the
two are the same.  Where the books agree, the old link is there and the new one is not; so
counting off cannot fail, and counting up fails only at an allocation that has as many links
as can be counted.
-/

namespace GpuAudit

open MemoryObject (maxRefCount)

/-! ## The rules -/

namespace Resource

/-- The resource may be bound: it belongs to no swapchain, and is not bound yet or sparse. -/
structure Rebindable (x : Resource) : Prop where
  /-- An image of a swapchain stays with it. -/
  apart : ∀ s, x.binding ≠ .swapchain s
  /-- Only a sparse resource is bound again. -/
  loose : x.binding = .unbound ∨ x.info.isSparse = true

/-- The resource is bound to an allocation, or belongs to a swapchain. -/
def HeldBy (x : Resource) (owner : Handle) : Prop :=
  x.binding = .swapchain owner ∨ ∃ offset, x.binding = .memory owner offset

end Resource

/-- A range lies inside the allocation; its end is not reduced to the width of the offset. -/
def MemoryObject.Spans (m : MemoryObject) (offset size : UInt64) : Prop :=
  offset.toNat + size.toNat ≤ m.info.size.toNat

namespace Trackers

variable {t u : Trackers} {r memory : Handle} {offset : UInt64} {kind : ObjectKind}
  {previous : Option Handle} {x : Resource} {m : MemoryObject} {v : Violation}

/-- A buffer or image of a kind is known. -/
structure Knows (t : Trackers) (r : Handle) (kind : ObjectKind) (x : Resource) : Prop where
  /-- It is of this kind. -/
  kind : r.kind = kind
  /-- It has a record. -/
  record : t.resources.find? r = some x

/-- Every rule for binding a resource of a kind to memory at an offset. -/
def MayBind (t : Trackers) (r memory : Handle) (offset : UInt64) (kind : ObjectKind) : Prop :=
  ∃ x m, t.Knows r kind x ∧ t.memory.objects.find? memory = some m ∧ x.Rebindable ∧
    x.info.Suits m.info.properties ∧ m.Spans offset x.info.memorySize

/-- What is raised at the first rule that is broken. -/
inductive BindFault (t : Trackers) (r memory : Handle) (offset : UInt64) (kind : ObjectKind) :
    Violation → Prop
  /-- No such resource is known. -/
  | unknown (detail : String) (absent : ∀ x, ¬t.Knows r kind x) :
      BindFault t r memory offset kind (.invalidObject r detail)
  /-- The allocation is not live. -/
  | dead {x : Resource} (detail : String) (known : t.Knows r kind x)
      (absent : t.memory.objects.find? memory = none) :
      BindFault t r memory offset kind (.invalidObject memory detail)
  /-- The resource may not be bound again. -/
  | held {x : Resource} {m : MemoryObject} {owner : Handle} (known : t.Knows r kind x)
      (live : t.memory.objects.find? memory = some m) (fixed : ¬x.Rebindable)
      (holder : x.HeldBy owner) : BindFault t r memory offset kind (.rebind r owner memory)
  /-- The resource was created for no use that allows the memory. -/
  | unsuited {x : Resource} {m : MemoryObject} (detail : String) (known : t.Knows r kind x)
      (live : t.memory.objects.find? memory = some m) (free : x.Rebindable)
      (unsuited : ¬x.info.Suits m.info.properties) :
      BindFault t r memory offset kind (.invalidUsage r detail)
  /-- The range does not lie inside the allocation. -/
  | outside {x : Resource} {m : MemoryObject} (detail : String) (known : t.Knows r kind x)
      (live : t.memory.objects.find? memory = some m) (free : x.Rebindable)
      (suits : x.info.Suits m.info.properties) (outside : ¬m.Spans offset x.info.memorySize) :
      BindFault t r memory offset kind (.binding r memory detail)

theorem rebindable_iff : x.Rebindable ↔ ∃ previous, ResourceTracker.replaced r memory x =
    .ok previous := by
  simp only [replaced_eq_ok_iff]
  constructor
  · rintro ⟨apart, loose⟩
    cases hb : x.binding with
    | unbound => exact ⟨none, .inl ⟨rfl, rfl⟩⟩
    | memory current offset =>
        have sparse := loose.resolve_left fun unbound => by simp [hb] at unbound
        exact ⟨some current, .inr ⟨current, offset, rfl, sparse, rfl⟩⟩
    | swapchain s => exact absurd hb (apart s)
  · rintro ⟨_, ⟨unbound, -⟩ | ⟨current, offset, bound, sparse, -⟩⟩
    · exact ⟨fun s => by simp [unbound], .inl unbound⟩
    · exact ⟨fun s => by simp [bound], .inr sparse⟩

theorem mayBind_iff : t.MayBind r memory offset kind ↔
    ∃ previous, t.resources.checkBind t.memory r memory offset kind = .ok previous := by
  simp only [checkBind_eq_ok_iff, checkBindUsage_eq_ok_iff]
  constructor
  · rintro ⟨x, m, known, live, free, suits, spans⟩
    obtain ⟨previous, hp⟩ := rebindable_iff.mp free
    exact ⟨previous, known.kind, x, m, known.record, live, hp, suits, spans⟩
  · rintro ⟨previous, hk, x, m, hx, live, hp, suits, spans⟩
    exact ⟨x, m, ⟨hk, hx⟩, live, rebindable_iff.mpr ⟨previous, hp⟩, suits, spans⟩

theorem heldBy_of_replaced (hv : ResourceTracker.replaced r memory x = .error v) :
    ∃ owner, x.HeldBy owner ∧ v = .rebind r owner memory := by
  unfold ResourceTracker.replaced at hv
  split at hv
  next s hb =>
    cases hv
    exact ⟨s, .inl hb, rfl⟩
  next current offset hb =>
    split at hv
    · cases hv
    · cases hv
      exact ⟨current, .inr ⟨offset, hb⟩, rfl⟩
  next => cases hv

theorem invalidUsage_of_checkBindUsage {info : ResourceInfo} {properties : MemoryProperties}
    (hv : ResourceTracker.checkBindUsage r info properties = .error v) :
    ∃ detail, v = .invalidUsage r detail := by
  have raises : Track.Raises (fun v => ∃ detail, v = .invalidUsage r detail)
      (ResourceTracker.checkBindUsage r info properties) := by
    refine (Track.raises_error ⟨_, rfl⟩).ite (Track.Raises.ite ?_ (Track.raises_ok _))
    cases info with
    | buffer _ => exact Track.raises_error ⟨_, rfl⟩
    | image _ => exact (Track.raises_ok _).ite (Track.raises_error ⟨_, rfl⟩)
  exact raises v hv

/-- A binding that does not pass the check is refused for the first rule that it breaks. -/
theorem bindFault_of_checkBind
    (hv : t.resources.checkBind t.memory r memory offset kind = .error v) :
    t.BindFault r memory offset kind v := by
  unfold ResourceTracker.checkBind at hv
  simp only [bind_eq_error_iff, Registry.checkKind_eq_ok_iff, ResourceTracker.lookup_eq_ok_iff,
    MemoryTracker.lookup_eq_ok_iff] at hv
  rcases hv with hk | ⟨_, hk, hx | ⟨x, hx, hm | ⟨m, hm, hp | ⟨previous, hp, hu | ⟨_, hu, hs⟩⟩⟩⟩⟩
  · obtain ⟨detail, rfl⟩ := Registry.misses_checkKind kind r v hk
    refine .unknown detail fun x known => ?_
    have passes : Registry.checkKind kind r = .ok () :=
      Registry.checkKind_eq_ok_iff.mpr known.kind
    rw [passes] at hk
    cases hk
  · obtain ⟨detail, rfl⟩ := t.resources.misses_lookup r v hx
    refine .unknown detail fun x known => ?_
    rw [ResourceTracker.lookup_eq_ok_iff.mpr known.record] at hx
    cases hx
  · obtain ⟨detail, rfl⟩ := Registry.misses_lookup memory v hm
    refine .dead detail ⟨hk, hx⟩ ?_
    rw [Option.eq_none_iff_forall_ne_some]
    intro m live
    rw [MemoryTracker.lookup_eq_ok_iff.mpr live] at hm
    cases hm
  · obtain ⟨owner, held, rfl⟩ := heldBy_of_replaced hp
    refine .held ⟨hk, hx⟩ hm (fun free => ?_) held
    obtain ⟨previous, passed⟩ := rebindable_iff.mp free
    rw [passed] at hp
    cases hp
  · obtain ⟨detail, rfl⟩ := invalidUsage_of_checkBindUsage hu
    refine .unsuited detail ⟨hk, hx⟩ hm (rebindable_iff.mpr ⟨previous, hp⟩) fun suits => ?_
    have passes : ResourceTracker.checkBindUsage r x.info m.info.properties = .ok () :=
      checkBindUsage_eq_ok_iff.mpr suits
    rw [passes] at hu
    cases hu
  · split at hs
    · cases hs
    next outside =>
      cases hs
      exact .outside _ ⟨hk, hx⟩ hm (rebindable_iff.mpr ⟨previous, hp⟩)
        (checkBindUsage_eq_ok_iff.mp hu) fun inside => outside (MemoryObject.holds_iff.mpr inside)

/-! ## The books after a binding -/

/-- A resource is bound, on both sides, and nothing else is changed. -/
structure Binds (t : Trackers) (r memory : Handle) (offset : UInt64) (u : Trackers) : Prop where
  /-- The resource is bound to the memory at the offset, and otherwise as it was. -/
  resources : ∃ x, t.resources.find? r = some x ∧ ∀ g, u.resources.find? g =
    if g = r then some { x with binding := .memory memory offset } else t.resources.find? g
  /-- The swapchains stay. -/
  swapchains : u.resources.swapchains = t.resources.swapchains
  /-- The allocation lists the resource, and no other does. -/
  listed : ∀ g, u.memory.Lists g r ↔ g = memory
  /-- The allocation gains a link, if the resource was not bound to it. -/
  gains : ¬t.resources.BoundTo r memory → ∃ m, t.memory.objects.find? memory = some m ∧
    r ∉ m.bindings ∧ u.memory.objects.find? memory = some { m with
      refCount := m.refCount + 1, bindings := m.bindings.insert r }
  /-- Another allocation that the resource was bound to loses a link. -/
  loses : ∀ old, t.resources.BoundTo r old → old ≠ memory →
    ∃ m count, t.memory.objects.find? old = some m ∧ r ∈ m.bindings ∧ m.refCount = count + 1 ∧
      u.memory.objects.find? old = some { m with
        refCount := count, bindings := m.bindings.erase r }
  /-- The other allocations stay, and so does this one if the resource was bound to it. -/
  stays : ∀ g, (t.resources.BoundTo r g ↔ g = memory) →
    u.memory.objects.find? g = t.memory.objects.find? g
  /-- The command buffers stay. -/
  commands : u.commands = t.commands
  /-- The queues stay. -/
  queues : u.queues = t.queues

theorem boundTo_iff_replaced (hx : t.resources.find? r = some x)
    (hp : ResourceTracker.replaced r memory x = .ok previous) (g : Handle) :
    t.resources.BoundTo r g ↔ previous = some g := by
  rw [ResourceTracker.boundTo_iff]
  simp only [hx, Option.some.injEq, exists_and_left, exists_eq_left']
  rcases replaced_eq_ok_iff.mp hp with ⟨unbound, rfl⟩ | ⟨current, off, bound, -, rfl⟩
  · simp [unbound]
  · simp [bound]

/-- The allocations after a binding, one by one. -/
theorem find?_boundAt (g : Handle) :
    (t.boundAt r memory offset previous).memory.objects.find? g =
      if previous = some g ↔ g = memory then t.memory.objects.find? g
      else if g = memory then (t.memory.objects.find? g).map (·.attach r)
      else (t.memory.objects.find? g).map (·.detach r) := by
  unfold boundAt
  cases previous with
  | none =>
      by_cases here : g = memory
      · simp [here]
      · simp [here]
  | some old =>
      by_cases same : old = memory
      · by_cases here : g = memory
        · simp [same, here]
        · simp [same, here, Ne.symm here]
      · by_cases here : g = memory
        · simp [same, here, Ne.symm same]
        · by_cases left : g = old
          · simp [same, left]
          · simp [same, here, left, Ne.symm left]

theorem boundAt_binds (h : t.Sound)
    (hp : t.resources.checkBind t.memory r memory offset kind = .ok previous) :
    t.Binds r memory offset (t.boundAt r memory offset previous) := by
  obtain ⟨-, x, m, hx, hm, hrep, -, -⟩ := checkBind_eq_ok_iff.mp hp
  have before := boundTo_iff_replaced hx hrep
  have sound := h.edits (boundAt_edits [] hp).1
  refine ⟨⟨x, hx, fun g => ?_⟩, rfl, fun g => ?_, fun other => ?_, fun old bound other => ?_,
    fun g same => ?_, rfl, rfl⟩
  · show (t.resources.rebound r _).find? g = _
    rw [ResourceTracker.find?_rebound]
    split
    next here => rw [here, hx, Option.map_some]
    next => rfl
  · rw [← sound.linked.bound]
    show (t.resources.rebound r _).BoundTo r g ↔ _
    rw [ResourceTracker.boundTo_rebound hx, if_pos rfl]
    simp [Resource.memory?, eq_comm]
  · have new : r ∉ m.bindings := fun listed => other ((h.linked.bound r memory).mpr ⟨m, hm, listed⟩)
    refine ⟨m, hm, new, ?_⟩
    rw [before] at other
    rw [find?_boundAt, if_neg (by simpa using other), if_pos rfl, hm]
    exact rfl
  · obtain ⟨m, hm, listed⟩ := (h.linked.bound r old).mp bound
    have tallied : m.refCount = m.links := h.linked.tallied old m hm
    have links := MemoryObject.links_pos_of_bound listed
    refine ⟨m, m.refCount - 1, hm, listed, by omega, ?_⟩
    rw [before] at bound
    rw [find?_boundAt, if_neg (by simpa [bound] using other), if_neg other, hm]
    exact rfl
  · rw [before] at same
    rw [find?_boundAt, if_pos same]

/-- Where the books agree, only an allocation with as many links as can be counted stands in
the way of a binding that passes the check. -/
theorem Sound.bind_exactly (h : t.Sound) (r memory : Handle) (offset : UInt64) (kind : ObjectKind)
    (room : ∀ m, t.memory.objects.find? memory = some m → r ∉ m.bindings →
      m.refCount < maxRefCount) :
    (bind r memory offset kind).Exactly t (t.MayBind r memory offset kind)
      (t.BindFault r memory offset kind) fun _ u => t.Binds r memory offset u := by
  unfold Track.Exactly
  cases hp : t.resources.checkBind t.memory r memory offset kind with
  | ok previous =>
      refine (bind_of_check h hp).mono (fun _ u hu => ?_) fun _ _ hf => ?_
      · exact ⟨mayBind_iff.mpr ⟨previous, hp⟩, hu ▸ boundAt_binds h hp⟩
      · obtain ⟨-, m, hm, new, full⟩ := hf
        exact absurd (room m hm new) (Nat.not_lt.mpr full)
  | error v =>
      unfold bind
      rw [Track.ends_bind, Track.ends_query, hp]
      refine ⟨rfl, fun may => ?_, bindFault_of_checkBind hp⟩
      obtain ⟨previous, passed⟩ := mayBind_iff.mp may
      rw [passed] at hp
      cases hp

end Trackers

namespace Layer

variable {l : Layer} {config : Config} {device : Handle} {session : Session}

/-- In every session of every run a resource is bound exactly if it and the allocation are
known, it belongs to no swapchain and is not bound yet or sparse, its use allows the memory,
and the range lies inside the allocation.  Then it is bound there, the allocation lists it
and no other does, and the link is counted where it is new and counted off where it was
before.  Otherwise nothing changes, and what is raised tells the first of the conditions
that fails. -/
theorem bindings_exactly (h : Reached Sheltered config l)
    (hs : l.sessions[device]? = some session)
    (few : session.halted = true → session.trackers.memory.Counted) (r memory : Handle)
    (offset : UInt64) (kind : ObjectKind)
    (room : ∀ m, session.trackers.memory.objects.find? memory = some m → r ∉ m.bindings →
      m.refCount < maxRefCount) :
    (Trackers.bind r memory offset kind).Exactly session.trackers
      (session.trackers.MayBind r memory offset kind)
      (session.trackers.BindFault r memory offset kind)
      fun _ u => session.trackers.Binds r memory offset u :=
  (books_of_sheltered h hs few).sound.bind_exactly r memory offset kind room

/-- The sparse buffer is bound to the first allocation. -/
def boundBuffer : List Hook :=
  sparseBuffer ++ [.pre (.bindBufferMemory ⟨1, .device⟩ ⟨5, .buffer⟩ ⟨3, .deviceMemory⟩ 0)]

/-- The buffer can be moved to the other allocation, which alone lists it then.  It cannot be
bound at an offset to which its size is added only with an overflow. -/
theorem bindings_of_boundBuffer :
    ∃ session ∈ ((start {}).run boundBuffer).sessions[(⟨1, .device⟩ : Handle)]?,
      let bound (offset : UInt64) := (Trackers.bind ⟨5, .buffer⟩ ⟨4, .deviceMemory⟩ offset
        .buffer).on session.trackers
      session.trackers.resources.BoundTo ⟨5, .buffer⟩ ⟨3, .deviceMemory⟩ ∧
        (∀ g, (bound 256).state.memory.Lists g ⟨5, .buffer⟩ ↔ g = ⟨4, .deviceMemory⟩) ∧
        (bound 0xffffffffffffffff).state = session.trackers := by
  have reached : Reached Sheltered {} ((start {}).run boundBuffer) :=
    Reached.start.run (by decide +kernel)
  have found : ∃ session ∈ ((start {}).run boundBuffer).sessions[(⟨1, .device⟩ : Handle)]?,
      let bound (offset : UInt64) := (Trackers.bind ⟨5, .buffer⟩ ⟨4, .deviceMemory⟩ offset
        .buffer).on session.trackers
      (session.halted = true → session.trackers.memory.Counted) ∧
      (∃ x ∈ session.trackers.resources.find? ⟨5, .buffer⟩,
        x.memory? = some ⟨3, .deviceMemory⟩) ∧
      (∀ m ∈ session.trackers.memory.objects.find? ⟨4, .deviceMemory⟩,
        ⟨5, .buffer⟩ ∉ m.bindings → m.refCount < maxRefCount) ∧
      (bound 256).value = .ok () ∧
      (bound 0xffffffffffffffff).value = .error (.binding ⟨5, .buffer⟩ ⟨4, .deviceMemory⟩
        "256 bytes at offset 18446744073709551615 do not fit the 4096-byte allocation") := by
    decide +kernel
  obtain ⟨session, hs, few, start, room, moved, refused⟩ := found
  have exact := fun offset => bindings_exactly reached hs few ⟨5, .buffer⟩ ⟨4, .deviceMemory⟩
    offset .buffer room
  exact ⟨session, hs, start, ((exact 256).good_of_ok moved).2.listed,
    ((exact 0xffffffffffffffff).bad_of_error refused).1⟩

end Layer

end GpuAudit
