import GpuAudit.Proofs.Admission
import GpuAudit.Proofs.Commands
import GpuAudit.Proofs.Events

/-!
# Allocations with many links

Buffers can be bound to an allocation until its count is full (`crowds_of_room`), and what is
bound to it can be released as long as there is a link to count off (`empties_of_listed`).
Neither asks what else is in the books, or whether the count is right.

A link that is entered where the count is full stays, though it is not counted and the call
fails with an internal error: an old binding is then released already (`bind_full`), and a
command buffer that is recorded again has the link (`recordLink_full`, `recordLink_listed`).
-/

namespace GpuAudit

open MemoryObject (maxRefCount attach detach)

/-! ## Links of one allocation -/

namespace MemoryObject

variable {m : MemoryObject} {rs : List Handle}

theorem mem_overlist (cb : Handle) : cb ∈ (m.overlist cb).commandBuffers :=
  Handle.mem_insert.mpr (.inl rfl)

theorem refCount_foldl_attach : ∀ (rs : List Handle) (m : MemoryObject),
    (rs.foldl (fun m r => m.attach r) m).refCount = m.refCount + rs.length
  | [], _ => rfl
  | r :: rs, m => by
      rw [List.foldl_cons, refCount_foldl_attach rs, List.length_cons]
      show m.refCount + 1 + rs.length = _
      omega

theorem refCount_foldl_detach : ∀ (rs : List Handle) (m : MemoryObject),
    (rs.foldl (fun m r => m.detach r) m).refCount = m.refCount - rs.length
  | [], _ => rfl
  | r :: rs, m => by
      rw [List.foldl_cons, refCount_foldl_detach rs, List.length_cons]
      show m.refCount - 1 - rs.length = _
      omega

theorem mem_bindings_foldl_attach {g : Handle} : ∀ {rs : List Handle} {m : MemoryObject},
    g ∈ (rs.foldl (fun m r => m.attach r) m).bindings ↔ g ∈ rs ∨ g ∈ m.bindings
  | [], _ => by simp
  | r :: rs, m => by
      rw [List.foldl_cons, mem_bindings_foldl_attach, List.mem_cons]
      show g ∈ rs ∨ g ∈ m.bindings.insert r ↔ _
      rw [Handle.mem_insert, or_left_comm, or_assoc]

/-- What no change touches stays. -/
theorem part_foldl {γ : Type} {part : MemoryObject → γ}
    {change : Handle → MemoryObject → MemoryObject} (same : ∀ r m, part (change r m) = part m) :
    ∀ (rs : List Handle) (m : MemoryObject), part (rs.foldl (fun m r => change r m) m) = part m
  | [], _ => rfl
  | r :: rs, m => (part_foldl same rs _).trans (same r m)

end MemoryObject

namespace ResourceTracker

/-- A buffer that is new is created, and nothing else changes. -/
theorem createBuffer_new {t : ResourceTracker} {b : Handle} (info : BufferCreateInfo)
    (names : b.Names .buffer) (new : t.find? b = none) :
    (createBuffer b info).Ends t (fun _ u => ∀ g, u.find? g =
      if g = b then some ⟨.buffer info, .unbound⟩ else t.find? g) fun _ _ => False := by
  rw [find?_of_buffer names.1] at new
  obtain ⟨buffers, entered, -⟩ := Registry.Admits.registers ⟨names, new⟩ ⟨.buffer info, .unbound⟩
  unfold createBuffer
  rw [Track.ends_bind, Track.ends_update, entered]
  exact fun g => find?_register_buffer entered

end ResourceTracker

namespace Trackers

variable {t s u : Trackers} {memory device r cb : Handle} {rs : List Handle}
  {m : MemoryObject} {x : Resource} {left : Resource}
  {change : Handle → MemoryObject → MemoryObject}

/-! ## Several resources -/

/-- The links between an allocation and some resources change one after another, which leaves
each of the resources alike.  All else stays. -/
structure Shifts (change : Handle → MemoryObject → MemoryObject) (left : Resource)
    (memory : Handle) (rs : List Handle) (t u : Trackers) : Prop where
  /-- The allocation. -/
  allocation : ∀ m, t.memory.objects.find? memory = some m →
    u.memory.objects.find? memory = some (rs.foldl (fun m r => change r m) m)
  /-- Other allocations stay. -/
  allocations : ∀ g, g ≠ memory → u.memory.objects.find? g = t.memory.objects.find? g
  /-- The resources. -/
  resources : ∀ g, u.resources.find? g = if g ∈ rs then some left else t.resources.find? g
  /-- The command buffers stay. -/
  commands : u.commands = t.commands
  /-- The queues stay. -/
  queues : u.queues = t.queues

theorem shifts_nil : Shifts change left memory [] t t :=
  ⟨fun _ hm => hm, fun _ _ => rfl, fun g => by simp, rfl, rfl⟩

theorem Shifts.cons (h : Shifts change left memory [r] t s)
    (k : Shifts change left memory rs s u) : Shifts change left memory (r :: rs) t u where
  allocation m hm := k.allocation _ (h.allocation m hm)
  allocations g away := (k.allocations g away).trans (h.allocations g away)
  resources g := by
    rw [k.resources, h.resources]
    by_cases later : g ∈ rs
    · simp [later]
    · simp [later]
  commands := k.commands.trans h.commands
  queues := k.queues.trans h.queues

/-- One change, of the record of the allocation and of that of the resource. -/
theorem shifts_of_change {resources : ResourceTracker}
    (view : ∀ g, resources.find? g = if g = r then some left else t.resources.find? g) :
    Shifts change left memory [r] t
      { t with memory := t.memory.change memory (change r), resources } where
  allocation m hm := by
    show (t.memory.change memory (change r)).objects.find? memory = _
    rw [MemoryTracker.find?_change, if_pos rfl, hm]
    rfl
  allocations g away := (MemoryTracker.find?_change _ g).trans (if_neg away)
  resources g := by simpa using view g
  commands := rfl
  queues := rfl

/-! ## Bindings, whatever the counts say -/

/-- A resource is bound to an allocation that has room and does not list it. -/
theorem bind_new {offset : UInt64} {kind : ObjectKind}
    (hp : t.resources.checkBind t.memory r memory offset kind = .ok none)
    (hm : t.memory.objects.find? memory = some m) (new : r ∉ m.bindings)
    (room : m.refCount < maxRefCount) :
    (bind r memory offset kind).Ends t (fun _ u => u = t.boundAt r memory offset none)
      fun _ _ => False := by
  unfold bind
  rw [Track.ends_bind, Track.ends_query, hp, Track.ends_ofExcept_ok]
  simp only [ne_eq, reduceCtorEq, not_false_eq_true, if_true, Track.ends_bind]
  rw [Track.ends_discard, onMemory, Track.ends_within]
  refine (MemoryTracker.addBinding_room hm new room).mono (fun _ u hu => ?_) fun _ _ hf => hf
  rw [hu]
  exact rfl

/-- A sparse resource whose new allocation is full loses the link to the old one.  Its record
stays. -/
theorem bind_full {old : Handle} {o : MemoryObject} {offset : UInt64} {kind : ObjectKind}
    (hp : t.resources.checkBind t.memory r memory offset kind = .ok (some old))
    (ho : t.memory.objects.find? old = some o) (listed : r ∈ o.bindings) (pos : 0 < o.refCount)
    (other : memory ≠ old) (hm : t.memory.objects.find? memory = some m) (new : r ∉ m.bindings)
    (full : maxRefCount ≤ m.refCount) :
    (bind r memory offset kind).Ends t (fun _ _ => False) fun v u => v.isFatal = true ∧
      u.resources = t.resources ∧ u.memory.objects.find? old = some (o.detach r) := by
  unfold bind
  rw [Track.ends_bind, Track.ends_query, hp, Track.ends_ofExcept_ok]
  simp only [ne_eq, Ne.symm other, not_false_eq_true, if_true, Option.some.injEq, Track.ends_bind]
  rw [Track.ends_discard, Track.ends_restate, onMemory, Track.ends_within]
  refine (MemoryTracker.removeBinding_listed ho listed pos).mono (fun _ u hu => ?_)
    fun _ _ hf => hf.elim
  rw [hu, Track.ends_discard, onMemory, Track.ends_within]
  have hm' : (t.memory.change old (·.detach r)).objects.find? memory = some m := by
    rw [MemoryTracker.find?_change, if_neg other, hm]
  refine (MemoryTracker.addBinding_full hm' new full).mono (fun _ _ hf => hf) fun v u hu => ?_
  refine ⟨hu.1, rfl, ?_⟩
  show u.objects.find? old = _
  rw [hu.2, MemoryTracker.find?_change, if_neg (Ne.symm other), MemoryTracker.find?_change,
    if_pos rfl, ho]
  rfl

/-- A listed resource is released as long as there is a link to count off. -/
theorem unbind_listed {offset : UInt64} (hx : t.resources.find? r = some x)
    (bound : x.binding = .memory memory offset) (hm : t.memory.objects.find? memory = some m)
    (listed : r ∈ m.bindings) (pos : 0 < m.refCount) :
    (unbind r).Ends t (fun _ u => u = { t with
        memory := t.memory.change memory (·.detach r)
        resources := t.resources.rebound r .unbound }) fun _ _ => False := by
  unfold unbind
  rw [Track.ends_bind, Track.ends_query, ResourceTracker.lookup_eq_ok_iff.mpr hx,
    Track.ends_ofExcept_ok, bound]
  simp only [Track.ends_bind]
  rw [Track.ends_discard, Track.ends_restate, onMemory, Track.ends_within]
  refine (MemoryTracker.removeBinding_listed hm listed pos).mono (fun _ u hu => ?_)
    fun _ _ hf => hf
  rw [hu]
  exact rfl

/-! ## Command buffers, whatever the counts say -/

section Recorded

variable {b : CommandBuffer} (hb : t.commands.buffers.find? cb = some b)
  (recording : b.state = .recording) (hm : t.memory.objects.find? memory = some m)

include hb recording hm

/-- Where the allocation is full, a command buffer is listed and not counted, and does not get
the link. -/
theorem recordLink_full (new : cb ∉ m.commandBuffers) (full : maxRefCount ≤ m.refCount) :
    (recordLink cb memory).Ends t (fun _ _ => False) fun v u => v.isFatal = true ∧
      u = { t with memory := t.memory.change memory fun _ => m.overlist cb } := by
  have passes : t.commands.checkRecording cb = .ok () :=
    CommandTracker.checkRecording_eq_ok_iff.mpr ⟨b, hb, recording⟩
  unfold recordLink
  rw [Track.ends_bind, Track.ends_query, passes, Track.ends_ofExcept_ok, Track.ends_bind,
    Track.ends_discard, onMemory, Track.ends_within]
  refine (MemoryTracker.addCommandBuffer_full hm new full).mono (fun _ _ hf => hf.elim)
    fun v u hu => ?_
  rw [hu.2]
  exact ⟨hu.1, rfl⟩

/-- A command buffer that is listed gets the link. -/
theorem recordLink_listed (listed : cb ∈ m.commandBuffers) :
    (recordLink cb memory).Ends t (fun _ u => u = { t with
        commands := t.commands.change cb fun b =>
          { b with memoryRefs := b.memoryRefs.insert memory } }) fun _ _ => False := by
  have passes : t.commands.checkRecording cb = .ok () :=
    CommandTracker.checkRecording_eq_ok_iff.mpr ⟨b, hb, recording⟩
  unfold recordLink
  rw [Track.ends_bind, Track.ends_query, passes, Track.ends_ofExcept_ok, Track.ends_bind,
    Track.ends_discard, onMemory, Track.ends_within]
  refine (MemoryTracker.addCommandBuffer_listed hm listed).mono (fun _ u hu => ?_)
    fun _ _ hf => hf
  rw [hu]
  exact rfl

end Recorded

/-- A command that touches one allocation is recorded as its link is. -/
theorem record_single {command : Command} {good : PUnit → Trackers → Prop}
    {bad : Violation → Trackers → Prop} (may : t.MayRecord cb command)
    (one : t.memoriesOf command = [memory])
    (link : (recordLink cb memory).Ends t good bad) : (record cb command).Ends t good bad := by
  have links := Track.ends_forM_singleton.mpr link
  unfold Track.Ends at links ⊢
  rw [record_of_may may, one]
  exact links

section Spent

variable {b : CommandBuffer} (hb : t.commands.buffers.find? cb = some b)
  (refs : b.memoryRefs.toList = [memory]) (hm : t.memory.objects.find? memory = some m)
  (spent : m.refCount = 0)

include hb refs hm spent

/-- A command buffer is struck out before its links are released, so it is gone although the
operation fails. -/
theorem destroyCommandBuffer_spent (retired : t.commands.isInFlight t.queues cb = false) :
    (destroyCommandBuffer cb).Ends t (fun _ _ => False)
      fun v u => v.isFatal = true ∧ u.commands.buffers.find? cb = none := by
  have passes : t.commands.ensureRetired t.queues [cb] = .ok () :=
    CommandTracker.ensureRetired_eq_ok_iff.mpr (by simpa using retired)
  have struck := Registry.unregister_eq_ok_iff.mpr ⟨hb, rfl⟩
  unfold destroyCommandBuffer
  rw [Track.ends_bind, Track.ends_discard, Track.ends_query,
    CommandTracker.lookup_eq_ok_iff.mpr hb, Track.ends_ofExcept_ok, Track.ends_bind,
    Track.ends_query, passes, Track.ends_ofExcept_ok, Track.ends_bind, Track.ends_get,
    Track.ends_bind, struck, Track.ends_ofExcept_ok]
  simp only [Track.ends_bind, Track.ends_set]
  unfold releaseLinks
  rw [refs, Track.ends_forM_singleton, Track.ends_restate, Track.ends_discard, onMemory,
    Track.ends_within]
  exact (MemoryTracker.removeCommandBuffer_spent cb hm spent).mono (fun _ _ hf => hf.elim)
    fun _ _ _ => ⟨rfl, (Registry.find?_unregister struck cb).trans (if_pos rfl)⟩

theorem freeCommandBuffers_spent {pool : Handle} (may : t.MayFree pool [cb]) :
    (freeCommandBuffers pool [cb]).Ends t (fun _ _ => False)
      fun v u => v.isFatal = true ∧ u.commands.buffers.find? cb = none := by
  obtain ⟨p, hp, listed, once, retired⟩ := may
  have own : cb ∈ p.buffers := listed cb List.mem_cons_self
  have distinct : CommandTracker.ensureDistinct [cb] = .ok () :=
    CommandTracker.ensureDistinct_eq_ok_iff.mpr once
  have passes : t.commands.ensureRetired t.queues [cb] = .ok () :=
    CommandTracker.ensureRetired_eq_ok_iff.mpr retired
  unfold freeCommandBuffers
  rw [Track.ends_bind, Track.ends_query, CommandTracker.pool_eq_ok_iff.mpr hp,
    Track.ends_ofExcept_ok, Track.ends_bind, Track.ends_forM_singleton,
    if_neg (not_not_intro own), Track.ends_pure, Track.ends_bind, distinct,
    Track.ends_ofExcept_ok, Track.ends_bind, Track.ends_query, passes, Track.ends_ofExcept_ok,
    Track.ends_forM_singleton]
  exact destroyCommandBuffer_spent hb refs hm spent (retired cb List.mem_cons_self)

end Spent

/-- An allocation has room for some new buffers, and each of them may be bound to it. -/
structure HasRoom (t : Trackers) (memory : Handle) (m : MemoryObject) (info : BufferCreateInfo)
    (bs : List Handle) : Prop where
  /-- The allocation. -/
  live : t.memory.objects.find? memory = some m
  /-- It is memory for such buffers. -/
  suits : (ResourceInfo.buffer info).Suits m.info.properties
  /-- It is large enough for one. -/
  fits : info.size.toNat ≤ m.info.size.toNat
  /-- No buffer comes twice. -/
  distinct : bs.Nodup
  /-- The buffers are new. -/
  new : ∀ b ∈ bs, b.Names .buffer ∧ t.resources.find? b = none ∧ b ∉ m.bindings
  /-- There are links left to count. -/
  room : m.refCount + bs.length ≤ maxRefCount

theorem HasRoom.shift {info : BufferCreateInfo} {b : Handle} {bs : List Handle}
    (h : t.HasRoom memory m info (b :: bs)) (shift : Shifts attach left memory [b] t s) :
    s.HasRoom memory (m.attach b) info bs where
  live := shift.allocation m h.live
  suits := h.suits
  fits := h.fits
  distinct := (List.nodup_cons.mp h.distinct).2
  new g hg := by
    have other : g ≠ b := fun here => (List.nodup_cons.mp h.distinct).1 (here ▸ hg)
    obtain ⟨names, new, unlisted⟩ := h.new g (List.mem_cons_of_mem _ hg)
    refine ⟨names, ?_, fun listed => (Handle.mem_insert.mp listed).elim other unlisted⟩
    rw [shift.resources, if_neg (by simpa using other), new]
  room := by
    have := h.room
    rw [List.length_cons] at this
    show m.refCount + 1 + _ ≤ _
    omega

/-- The first of the buffers may be bound once it is created. -/
theorem HasRoom.checkBind {info : BufferCreateInfo} {b : Handle} {bs : List Handle}
    (h : t.HasRoom memory m info (b :: bs)) {resources : ResourceTracker}
    (made : resources.find? b = some ⟨.buffer info, .unbound⟩) :
    resources.checkBind t.memory b memory 0 .buffer = .ok none := by
  obtain ⟨names, -, -⟩ := h.new b List.mem_cons_self
  exact checkBind_eq_ok_iff.mpr ⟨names.1, _, m, made, h.live,
    replaced_eq_ok_iff.mpr (.inl ⟨rfl, rfl⟩), checkBindUsage_eq_ok_iff.mpr h.suits,
    (Nat.zero_add _).symm ▸ h.fits⟩

end Trackers

/-! ## Runs -/

namespace Layer

open Trackers (Shifts HasRoom shifts_nil shifts_of_change)

theorem checkMemoryDevice_of_owner {owners : Owners} {device resource memory : Handle}
    (owner : owners[memory]? = some device) :
    checkMemoryDevice owners device resource memory = .ok () := by
  unfold checkMemoryDevice
  simp [owner]

/-- A buffer is created and bound to an allocation. -/
def crowding (device memory : Handle) (info : BufferCreateInfo) (b : Handle) : List Event :=
  [.call (.createBuffer device b info) .success,
   .call (.bindBufferMemory device b memory 0) .success]

/-- What is bound is released. -/
def emptying (device b : Handle) : Event := .call (.unbindMemory device b) .success

variable {config : Config} {owners : Owners} {device memory b : Handle} {bs : List Handle}
  {t : Trackers} {m : MemoryObject} {info : BufferCreateInfo} {offset : UInt64}
  (lenient : config.validation.haltOnInternalError = false)

include lenient

theorem created_alone (device : Handle) (names : b.Names .buffer)
    (new : t.resources.find? b = none) :
    ∃ resources : ResourceTracker, (∀ g, resources.find? g =
        if g = b then some ⟨.buffer info, .unbound⟩ else t.resources.find? g) ∧
      Leads config owners device t [.call (.createBuffer device b info) .success]
        { t with resources } := by
  have plain : Call.Plain (.createBuffer device b info) := trivial
  have none : t.resources.contains b = false :=
    Trackers.resource_new_iff.mpr (Option.or_eq_none_iff.mp new)
  have called : ∃ u, (u = { t with resources := u.resources } ∧ ∀ g, u.resources.find? g =
        if g = b then some ⟨.buffer info, .unbound⟩ else t.resources.find? g) ∧
      Leads config owners device t [.call (.createBuffer device b info) .success] u := by
    refine called_alone lenient plain (found_alone rfl) (Trackers.ends_nothing.mpr ?_)
    rw [Track.ends_query, Trackers.newResource_eq_ok_iff.mpr ⟨names, none⟩,
      Track.ends_ofExcept_ok]
    refine ⟨rfl, Trackers.ends_entering.mpr ?_⟩
    rw [Trackers.onResources, Track.ends_within]
    exact (ResourceTracker.createBuffer_new info names new).mono
      (fun _ _ view => ⟨rfl, rfl, view⟩) fun _ _ hf => hf
  obtain ⟨u, ⟨same, view⟩, leads⟩ := called
  exact ⟨u.resources, view, same ▸ leads⟩

theorem bound_alone (owner : owners[memory]? = some device)
    (hp : t.resources.checkBind t.memory b memory offset .buffer = .ok none)
    (hm : t.memory.objects.find? memory = some m) (new : b ∉ m.bindings)
    (room : m.refCount < maxRefCount) :
    Leads config owners device t [.call (.bindBufferMemory device b memory offset) .success]
      (t.boundAt b memory offset none) := by
  have plain : Call.Plain (.bindBufferMemory device b memory offset) := trivial
  have called : ∃ u, u = t.boundAt b memory offset none ∧
      Leads config owners device t [.call (.bindBufferMemory device b memory offset) .success] u := by
    refine called_alone lenient plain (found_alone rfl) (Trackers.ends_nothing.mpr ?_)
    rw [Track.ends_bind, checkMemoryDevice_of_owner owner, Track.ends_ofExcept_ok]
    exact (Trackers.bind_new hp hm new room).mono (fun _ _ hu => ⟨rfl, rfl, hu⟩) fun _ _ hf => hf
  obtain ⟨_, rfl, leads⟩ := called
  exact leads

/-- A sparse buffer is bound to a full allocation in vain, and loses the link that it has. -/
theorem unlinked_alone (suppress : config.validation.suppressOnError = true)
    (owner : owners[memory]? = some device) {old : Handle} {o : MemoryObject}
    (hp : t.resources.checkBind t.memory b memory offset .buffer = .ok (some old))
    (ho : t.memory.objects.find? old = some o) (listed : b ∈ o.bindings) (pos : 0 < o.refCount)
    (other : memory ≠ old) (hm : t.memory.objects.find? memory = some m) (new : b ∉ m.bindings)
    (full : maxRefCount ≤ m.refCount) :
    ∃ u, (u.resources = t.resources ∧ u.memory.objects.find? old = some (o.detach b)) ∧
      Leads config owners device t [.call (.bindBufferMemory device b memory offset) .success] u := by
  have plain : Call.Plain (.bindBufferMemory device b memory offset) := trivial
  refine refused_alone lenient plain (found_alone rfl) suppress (Trackers.ends_nothing.mpr ?_)
  rw [Track.ends_bind, checkMemoryDevice_of_owner owner, Track.ends_ofExcept_ok]
  exact (Trackers.bind_full hp ho listed pos other hm new full).mono (fun _ _ hf => hf)
    fun _ _ hv => ⟨Violation.isError_of_fatal hv.1, hv.2⟩

/-- One buffer more is bound to an allocation that has room for it. -/
theorem crowding_step (owner : owners[memory]? = some device)
    (h : t.HasRoom memory m info (b :: bs)) :
    ∃ u, Shifts attach ⟨.buffer info, .memory memory 0⟩ memory [b] t u ∧
      Leads config owners device t (crowding device memory info b) u := by
  obtain ⟨names, new, unlisted⟩ := h.new b List.mem_cons_self
  have room := h.room
  rw [List.length_cons] at room
  obtain ⟨resources, view, created⟩ := created_alone lenient device names new
  have passes := h.checkBind ((view b).trans (if_pos rfl))
  refine ⟨_, shifts_of_change fun g => ?_,
    created.append (bound_alone lenient owner passes h.live unlisted (by omega))⟩
  rw [ResourceTracker.find?_rebound, view]
  by_cases here : g = b
  · simp [here]
  · simp [here]

/-- Buffers can be bound to an allocation as long as it has room for them. -/
theorem crowds_of_room (owner : owners[memory]? = some device)
    (h : t.HasRoom memory m info bs) :
    ∃ u, Shifts attach ⟨.buffer info, .memory memory 0⟩ memory bs t u ∧
      Leads config owners device t (bs.flatMap (crowding device memory info)) u := by
  induction bs generalizing t m with
  | nil => exact ⟨t, shifts_nil, .nil t⟩
  | cons b bs ih =>
      obtain ⟨s, first, here⟩ := crowding_step lenient owner h
      obtain ⟨u, rest, later⟩ := ih (h.shift first)
      exact ⟨u, first.cons rest, here.append later⟩

/-- What is bound is released as long as there are links to count off. -/
theorem empties_of_listed (distinct : bs.Nodup)
    (bound : ∀ b ∈ bs, t.resources.find? b = some ⟨.buffer info, .memory memory 0⟩ ∧
      b ∈ m.bindings)
    (live : t.memory.objects.find? memory = some m) (counted : bs.length ≤ m.refCount) :
    ∃ u, Shifts detach ⟨.buffer info, .unbound⟩ memory bs t u ∧
      Leads config owners device t (bs.map (emptying device)) u := by
  induction bs generalizing t m with
  | nil => exact ⟨t, shifts_nil, .nil t⟩
  | cons b bs ih =>
      have plain : Call.Plain (.unbindMemory device b) := trivial
      obtain ⟨hb, listed⟩ := bound b List.mem_cons_self
      obtain ⟨fresh, distinct⟩ := List.nodup_cons.mp distinct
      rw [List.length_cons] at counted
      have called : ∃ s, Shifts detach ⟨.buffer info, .unbound⟩ memory [b] t s ∧
          Leads config owners device t [emptying device b] s := by
        refine called_alone lenient plain (found_alone rfl) (Trackers.ends_nothing.mpr ?_)
        refine (Trackers.unbind_listed hb rfl live listed (by omega)).mono
          (fun _ u hu => ⟨rfl, rfl, ?_⟩) fun _ _ hf => hf
        rw [hu]
        refine shifts_of_change fun g => ?_
        rw [ResourceTracker.find?_rebound]
        by_cases here : g = b
        · simp [here, hb]
        · simp [here]
      obtain ⟨s, first, here⟩ := called
      have others : ∀ g ∈ bs, s.resources.find? g = some ⟨.buffer info, .memory memory 0⟩ ∧
          g ∈ (m.detach b).bindings := fun g hg => by
        have other : g ≠ b := fun here => fresh (here ▸ hg)
        obtain ⟨hg', listed'⟩ := bound g (List.mem_cons_of_mem _ hg)
        rw [first.resources, if_neg (by simpa using other), hg']
        exact ⟨rfl, Handle.mem_erase.mpr ⟨other, listed'⟩⟩
      have left : bs.length ≤ (m.detach b).refCount := by
        show bs.length ≤ m.refCount - 1
        omega
      obtain ⟨u, rest, later⟩ := ih distinct others (first.allocation m live) left
      exact ⟨u, first.cons rest, here.append later⟩

/-- A recording that fails because the allocation is full leaves the command buffer listed. -/
theorem listed_alone (suppress : config.validation.suppressOnError = true) {cb : Handle}
    (owner : owners[cb]? = some device) {command : Command} (may : t.MayRecord cb command)
    (one : t.memoriesOf command = [memory]) (hm : t.memory.objects.find? memory = some m)
    (new : cb ∉ m.commandBuffers) (full : maxRefCount ≤ m.refCount) :
    ∃ u, (u.resources = t.resources ∧ u.queues = t.queues ∧ u.commands = t.commands ∧
        u.memory.objects.find? memory = some (m.overlist cb)) ∧
      Leads config owners device t [.call (.recordCommand cb command) .success] u := by
  obtain ⟨b, hb, recording⟩ := may.recording
  have plain : Call.Plain (.recordCommand cb command) := trivial
  have records := Trackers.record_single may one (Trackers.recordLink_full hb recording hm new full)
  refine refused_alone lenient plain (found_alone_of_owner rfl owner) suppress
    (Trackers.ends_nothing.mpr (records.mono (fun _ _ hf => hf) fun v u hv => ?_))
  refine ⟨Violation.isError_of_fatal hv.1, ?_⟩
  rw [hv.2]
  refine ⟨rfl, rfl, rfl, ?_⟩
  rw [MemoryTracker.find?_change, if_pos rfl, hm]
  rfl

/-- A command buffer that is listed already gets its link, and the link is not counted. -/
theorem linked_alone {cb : Handle} (owner : owners[cb]? = some device) {command : Command}
    (may : t.MayRecord cb command) (one : t.memoriesOf command = [memory])
    (hm : t.memory.objects.find? memory = some m) (listed : cb ∈ m.commandBuffers) :
    ∃ u, (u.resources = t.resources ∧ u.queues = t.queues ∧ u.memory = t.memory ∧
        u.commands = t.commands.change cb fun b =>
          { b with memoryRefs := b.memoryRefs.insert memory }) ∧
      Leads config owners device t [.call (.recordCommand cb command) .success] u := by
  obtain ⟨b, hb, recording⟩ := may.recording
  have plain : Call.Plain (.recordCommand cb command) := trivial
  have records := Trackers.record_single may one (Trackers.recordLink_listed hb recording hm listed)
  refine called_alone lenient plain (found_alone_of_owner rfl owner)
    (Trackers.ends_nothing.mpr (records.mono (fun _ u hu => ⟨rfl, rfl, ?_⟩) fun _ _ hf => hf))
  rw [hu]
  exact ⟨rfl, rfl, rfl, rfl⟩

/-- A command buffer whose link was counted off already is struck out, and the call fails. -/
theorem unfreed_alone (suppress : config.validation.suppressOnError = true) {pool cb : Handle}
    {buffer : CommandBuffer} (may : t.MayFree pool [cb])
    (hb : t.commands.buffers.find? cb = some buffer) (refs : buffer.memoryRefs.toList = [memory])
    (hm : t.memory.objects.find? memory = some m) (spent : m.refCount = 0) :
    ∃ u, u.commands.buffers.find? cb = none ∧
      Leads config owners device t [.call (.freeCommandBuffers device pool [cb]) .success] u := by
  have plain : Call.Plain (.freeCommandBuffers device pool [cb]) := trivial
  refine refused_alone lenient plain (found_alone rfl) suppress ?_
  show (Trackers.freeCommandBuffers pool [cb] >>= fun _ => pure [cb]).Ends t _ _
  rw [Track.ends_bind]
  exact (Trackers.freeCommandBuffers_spent hb refs hm spent may).mono (fun _ _ hf => hf.elim)
    fun _ _ hv => ⟨Violation.isError_of_fatal hv.1, hv.2⟩

omit lenient

/-! ## A full allocation -/

/-- Internal errors do not halt. -/
def unhalting : Config := { validation := { haltOnInternalError := false } }

theorem lenient_unhalting : unhalting.validation.haltOnInternalError = false := rfl

/-- A sparse buffer is bound to an allocation, another allocation has no links, and a command
buffer records. -/
def beforeCrowd : List Event :=
  [.call (.createDevice ⟨1, .device⟩) .success,
   .call (.allocateMemory ⟨1, .device⟩ ⟨2, .deviceMemory⟩ { size := 4096 }) .success,
   .call (.allocateMemory ⟨1, .device⟩ ⟨3, .deviceMemory⟩ { size := 4096 }) .success,
   .call (.createBuffer ⟨1, .device⟩ ⟨4, .buffer⟩
     { size := 256, usage := BufferUsage.transferDst, sparse := true }) .success,
   .call (.bindBufferMemory ⟨1, .device⟩ ⟨4, .buffer⟩ ⟨2, .deviceMemory⟩ 0) .success,
   .call (.createCommandPool ⟨1, .device⟩ ⟨5, .commandPool⟩ .empty) .success,
   .call (.allocateCommandBuffers ⟨1, .device⟩ ⟨5, .commandPool⟩ [⟨6, .commandBuffer⟩]) .success,
   .call (.beginCommandBuffer ⟨6, .commandBuffer⟩ .empty) .success]

/-- The owners that these calls leave. -/
def ownersBefore : Owners := ((start unhalting).pass beforeCrowd).owners

/-- The books that these calls leave. -/
def booksBefore : Trackers :=
  ((((start unhalting).pass beforeCrowd).sessions[(⟨1, .device⟩ : Handle)]?).map
    (·.trackers)).getD .empty

/-- As many buffers as links of an allocation are counted: too many to compute with. -/
@[irreducible] def crowd : List Handle :=
  (List.range maxRefCount).map fun i => ⟨UInt64.ofNat (i + 100), .buffer⟩

/-- What each of them is created as. -/
def crowdInfo : BufferCreateInfo := { size := 256, usage := BufferUsage.transferDst }

theorem mem_crowd_iff {b : Handle} :
    b ∈ crowd ↔ ∃ i < maxRefCount, (⟨UInt64.ofNat (i + 100), .buffer⟩ : Handle) = b := by
  unfold crowd
  simp only [List.mem_map, List.mem_range]

theorem length_crowd : crowd.length = maxRefCount := by
  unfold crowd
  rw [List.length_map, List.length_range]

theorem toNat_of_mem_crowd {i : Nat} (hi : i < maxRefCount) :
    (UInt64.ofNat (i + 100)).toNat = i + 100 := by
  have most : maxRefCount = 4294967295 := rfl
  exact UInt64.toNat_ofNat_of_lt' (by show i + 100 < 2 ^ 64; omega)

theorem nodup_crowd : crowd.Nodup := by
  unfold crowd
  refine List.Nodup.map_on (fun i hi j hj same => ?_) List.nodup_range
  have raws := congrArg (·.raw.toNat) same
  dsimp only at raws
  rw [toNat_of_mem_crowd (List.mem_range.mp hi), toNat_of_mem_crowd (List.mem_range.mp hj)] at raws
  omega

theorem mem_crowd {b : Handle} (hb : b ∈ crowd) : b.kind = .buffer ∧ 100 ≤ b.raw.toNat := by
  obtain ⟨i, hi, rfl⟩ := mem_crowd_iff.mp hb
  dsimp only
  rw [toNat_of_mem_crowd hi]
  exact ⟨rfl, by omega⟩

theorem not_mem_crowd {b : Handle} (small : b.raw.toNat < 100) : b ∉ crowd := fun hb =>
  Nat.not_lt_of_le (mem_crowd hb).2 small

/-- The buffers are created and bound to the second allocation. -/
def crowdEvents : List Event :=
  crowd.flatMap (crowding ⟨1, .device⟩ ⟨3, .deviceMemory⟩ crowdInfo)

/-- The second allocation before that. -/
def unlinked : MemoryObject := .fresh ⟨1, .device⟩ { size := 4096 }

theorem alone_before : (start unhalting).pass beforeCrowd =
    alone unhalting ownersBefore ⟨1, .device⟩ booksBefore := by decide +kernel

theorem hasRoom_before :
    booksBefore.HasRoom ⟨3, .deviceMemory⟩ unlinked crowdInfo crowd where
  live := by decide +kernel
  suits := ⟨by decide, fun lazily => absurd lazily (by decide)⟩
  fits := by decide
  distinct := nodup_crowd
  new b hb := by
    obtain ⟨kind, large⟩ := mem_crowd hb
    have small : ∀ e ∈ booksBefore.resources.buffers.entries, e.1.raw.toNat < 100 := by
      decide +kernel
    refine ⟨⟨kind, ?_⟩, ?_, by simp [unlinked, MemoryObject.fresh]⟩
    · unfold Handle.isNull
      refine beq_eq_false_iff_ne.mpr fun null => ?_
      rw [null] at large
      exact absurd large (by decide)
    · rw [ResourceTracker.find?_of_buffer kind, Option.eq_none_iff_forall_ne_some]
      intro x hx
      exact absurd (small (b, x) (Registry.mem_entries.mpr hx)) (Nat.not_lt_of_le large)
  room := by
    rw [length_crowd]
    exact Nat.le_of_eq (Nat.zero_add _)

/-- The second allocation after that. -/
def crowded : MemoryObject := crowd.foldl (fun m b => m.attach b) unlinked

theorem refCount_crowded : crowded.refCount = maxRefCount := by
  unfold crowded
  rw [MemoryObject.refCount_foldl_attach, length_crowd]
  exact Nat.zero_add _

theorem info_crowded : crowded.info = unlinked.info := by
  unfold crowded
  rw [MemoryObject.part_foldl fun r (m : MemoryObject) => (rfl : (m.attach r).info = m.info)]

theorem commandBuffers_crowded : crowded.commandBuffers = unlinked.commandBuffers := by
  unfold crowded
  rw [MemoryObject.part_foldl fun r (m : MemoryObject) =>
    (rfl : (m.attach r).commandBuffers = m.commandBuffers)]

theorem mem_bindings_crowded {b : Handle} : b ∈ crowded.bindings ↔ b ∈ crowd :=
  MemoryObject.mem_bindings_foldl_attach.trans (or_iff_left (by simp [unlinked, MemoryObject.fresh]))

/-- The allocation gets as many links as are counted. -/
theorem crowdEvents_lead : ∃ u,
    Shifts attach ⟨.buffer crowdInfo, .memory ⟨3, .deviceMemory⟩ 0⟩ ⟨3, .deviceMemory⟩ crowd
      booksBefore u ∧
    Leads unhalting ownersBefore ⟨1, .device⟩ booksBefore crowdEvents u :=
  crowds_of_room lenient_unhalting (by decide +kernel) hasRoom_before

end Layer

end GpuAudit
