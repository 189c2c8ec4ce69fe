import GpuAudit.Proofs.Listings
import GpuAudit.Proofs.Refusals

/-!
# Links of allocations

The record of an allocation lists two kinds of links and counts them together.
`Tallied` says that every count is right, `Counted` that every allocation has few
enough links for the count.

Each operation on links is one change of one record: `attach` and `detach` for
resources, `retain` and `release` for command buffers.  `addBinding_ends` and its
siblings say when the change is made.  A command buffer that is recycled lets go of
all its allocations (`forget`).  An operation that would count past the largest count
is the only one that stops after it has changed something, and it leaves a record
that is not `Counted`.
-/

namespace GpuAudit

/-! ## Changes of one record -/

namespace MemoryObject

/-- The record with a resource bound to the allocation. -/
def attach (resource : Handle) (m : MemoryObject) : MemoryObject :=
  { m with refCount := m.refCount + 1, bindings := m.bindings.insert resource }

/-- The record with a resource no longer bound to the allocation. -/
def detach (resource : Handle) (m : MemoryObject) : MemoryObject :=
  { m with refCount := m.refCount - 1, bindings := m.bindings.erase resource }

/-- The record with a command buffer that touches the allocation. -/
def retain (commandBuffer : Handle) (m : MemoryObject) : MemoryObject :=
  { m with refCount := m.refCount + 1, commandBuffers := m.commandBuffers.insert commandBuffer }

/-- The record with a command buffer that no longer touches the allocation. -/
def release (commandBuffer : Handle) (m : MemoryObject) : MemoryObject :=
  { m with refCount := m.refCount - 1, commandBuffers := m.commandBuffers.erase commandBuffer }

/-- The record with a command buffer listed that is not counted. -/
def overlist (commandBuffer : Handle) (m : MemoryObject) : MemoryObject :=
  { m with commandBuffers := m.commandBuffers.insert commandBuffer }

@[simp] theorem refCount_overlist (m : MemoryObject) (commandBuffer : Handle) :
    (m.overlist commandBuffer).refCount = m.refCount := rfl

@[simp] theorem bindings_overlist (m : MemoryObject) (commandBuffer : Handle) :
    (m.overlist commandBuffer).bindings = m.bindings := rfl

/-- The count is the number of links. -/
def Tallied (m : MemoryObject) : Prop := m.refCount = m.links

/-- The links are few enough to be counted. -/
def Counted (m : MemoryObject) : Prop := m.links ≤ maxRefCount

instance (m : MemoryObject) : Decidable m.Counted := inferInstanceAs (Decidable (_ ≤ _))

theorem tallied_fresh (device : Handle) (info : AllocationInfo) : (fresh device info).Tallied := by
  simp [Tallied, fresh, links]

/-- An allocation that lists a resource has links. -/
theorem links_pos_of_bound {m : MemoryObject} {resource : Handle} (h : resource ∈ m.bindings) :
    0 < m.links := Nat.add_pos_left (Handle.size_pos h) _

/-- So has one that lists a command buffer. -/
theorem links_pos_of_used {m : MemoryObject} {commandBuffer : Handle}
    (h : commandBuffer ∈ m.commandBuffers) : 0 < m.links := Nat.add_pos_right _ (Handle.size_pos h)

theorem Tallied.attach {m : MemoryObject} {resource : Handle} (h : m.Tallied)
    (new : resource ∉ m.bindings) : (m.attach resource).Tallied := by
  unfold Tallied links MemoryObject.attach at *
  simp only [Handle.size_insert new]
  omega

theorem Tallied.detach {m : MemoryObject} {resource : Handle} (h : m.Tallied)
    (old : resource ∈ m.bindings) : (m.detach resource).Tallied := by
  have pos := Handle.size_pos old
  unfold Tallied links MemoryObject.detach at *
  simp only [Handle.size_erase old]
  omega

theorem Tallied.retain {m : MemoryObject} {commandBuffer : Handle} (h : m.Tallied)
    (new : commandBuffer ∉ m.commandBuffers) : (m.retain commandBuffer).Tallied := by
  unfold Tallied links MemoryObject.retain at *
  simp only [Handle.size_insert new]
  omega

theorem Tallied.release {m : MemoryObject} {commandBuffer : Handle} (h : m.Tallied)
    (old : commandBuffer ∈ m.commandBuffers) : (m.release commandBuffer).Tallied := by
  have pos := Handle.size_pos old
  unfold Tallied links MemoryObject.release at *
  simp only [Handle.size_erase old]
  omega

/-- The record with another mapped range, or none. -/
def remap (mapped : Option MappedRange) (m : MemoryObject) : MemoryObject := { m with mapped }

/-- The record without links of a command buffer. -/
def without (commandBuffer : Handle) (m : MemoryObject) : MemoryObject :=
  if commandBuffer ∈ m.commandBuffers then m.release commandBuffer else m

theorem links_without_le (commandBuffer : Handle) (m : MemoryObject) :
    (m.without commandBuffer).links ≤ m.links := by
  unfold MemoryObject.without
  split
  next old =>
    have := Handle.size_erase old
    show m.bindings.size + (m.commandBuffers.erase commandBuffer).size ≤
      m.bindings.size + m.commandBuffers.size
    omega
  next _ => exact Nat.le_refl _

theorem Counted.without {m : MemoryObject} (h : m.Counted) (commandBuffer : Handle) :
    (m.without commandBuffer).Counted := Nat.le_trans (links_without_le commandBuffer m) h

theorem Tallied.without {m : MemoryObject} (h : m.Tallied) (commandBuffer : Handle) :
    (m.without commandBuffer).Tallied := by
  unfold MemoryObject.without
  split
  next old => exact h.release old
  next _ => exact h

@[simp] theorem bindings_without (m : MemoryObject) (commandBuffer : Handle) :
    (m.without commandBuffer).bindings = m.bindings := by
  unfold without release
  split <;> rfl

theorem mem_commandBuffers_without {m : MemoryObject} {commandBuffer c : Handle} :
    c ∈ (m.without commandBuffer).commandBuffers ↔ c ≠ commandBuffer ∧ c ∈ m.commandBuffers := by
  unfold without release
  split
  next _ => exact Handle.mem_erase
  next new =>
    constructor
    · intro hc
      exact ⟨fun he => new (he ▸ hc), hc⟩
    · intro hc
      exact hc.2

theorem Tallied.remap {m : MemoryObject} (h : m.Tallied) (mapped : Option MappedRange) :
    (m.remap mapped).Tallied := h

theorem checkRefCount_eq_ok {m : MemoryObject} (h : m.Tallied) (memory : Handle) :
    m.checkRefCount memory = .ok () := if_pos h

theorem tallied_of_checkRefCount {m : MemoryObject} {memory : Handle} {u : Unit}
    (h : m.checkRefCount memory = .ok u) : m.Tallied := by
  unfold checkRefCount at h
  split at h
  next tallied => exact tallied
  · cases h

end MemoryObject

namespace MemoryTracker

open MemoryObject (maxRefCount)

variable {t : MemoryTracker} {memory : Handle} {m : MemoryObject}

/-- Every count is the number of links. -/
def Tallied (t : MemoryTracker) : Prop :=
  ∀ memory m, t.objects.find? memory = some m → m.Tallied

/-- Every allocation has few enough links to be counted. -/
def Counted (t : MemoryTracker) : Prop :=
  ∀ memory m, t.objects.find? memory = some m → m.Counted

instance (t : MemoryTracker) : Decidable t.Counted :=
  t.objects.decidableForall fun _ m => m.Counted

/-- A resource is listed as bound to an allocation. -/
def Lists (t : MemoryTracker) (memory resource : Handle) : Prop :=
  ∃ m, t.objects.find? memory = some m ∧ resource ∈ m.bindings

/-- A command buffer is listed as touching an allocation. -/
def ListsUser (t : MemoryTracker) (memory commandBuffer : Handle) : Prop :=
  ∃ m, t.objects.find? memory = some m ∧ commandBuffer ∈ m.commandBuffers

theorem lookup_eq_ok_iff : t.lookup memory = .ok m ↔ t.objects.find? memory = some m :=
  Registry.lookup_eq_ok_iff

/-! ## The records after a change -/

/-- The records with one of them changed. -/
def change (t : MemoryTracker) (memory : Handle) (f : MemoryObject → MemoryObject) :
    MemoryTracker :=
  { t with objects := t.objects.modify memory f }

@[simp] theorem find?_change (f : MemoryObject → MemoryObject) (g : Handle) :
    (t.change memory f).objects.find? g =
      if g = memory then (t.objects.find? g).map f else t.objects.find? g :=
  Registry.find?_modify ..

theorem ext_find? {t u : MemoryTracker} (h : ∀ g, t.objects.find? g = u.objects.find? g) :
    t = u := by
  cases t
  cases u
  exact congrArg mk (Registry.ext h)

/-- A change keeps a part of the records if it keeps it in the record that it changes. -/
theorem part_change {γ : Type} {part : MemoryObject → γ} {f : MemoryObject → MemoryObject}
    (hf : ∀ m, part (f m) = part m) (g : Handle) :
    ((t.change memory f).objects.find? g).map part = (t.objects.find? g).map part := by
  rw [find?_change]
  split
  · cases t.objects.find? g with
    | none => rfl
    | some m => simp [hf]
  · rfl

/-- Only what a change makes of the record it finds matters. -/
theorem change_congr {f g : MemoryObject → MemoryObject}
    (h : t.objects.find? memory = some m) (hfg : f m = g m) :
    t.change memory f = t.change memory g := by
  refine ext_find? fun k => ?_
  rw [find?_change, find?_change]
  split
  next he => rw [he, h, Option.map_some, Option.map_some, hfg]
  next he => rfl

theorem change_change (f g : MemoryObject → MemoryObject) :
    (t.change memory f).change memory g = t.change memory (g ∘ f) := by
  refine ext_find? fun k => ?_
  simp only [find?_change]
  split <;> simp

theorem Tallied.change (h : t.Tallied) (hm : t.objects.find? memory = some m)
    {f : MemoryObject → MemoryObject} (hf : (f m).Tallied) : (t.change memory f).Tallied := by
  intro g m' hg
  rw [find?_change] at hg
  split at hg
  next he =>
    rw [he, hm, Option.map_some, Option.some.injEq] at hg
    exact hg ▸ hf
  next he => exact h g m' hg

theorem lists_change {f : MemoryObject → MemoryObject} {g r : Handle}
    (hm : t.objects.find? memory = some m) :
    (t.change memory f).Lists g r ↔
      if g = memory then r ∈ (f m).bindings else t.Lists g r := by
  unfold Lists
  rw [find?_change]
  split
  next he => simp [he, hm]
  next he => exact Iff.rfl

theorem listsUser_change {f : MemoryObject → MemoryObject} {g c : Handle}
    (hm : t.objects.find? memory = some m) :
    (t.change memory f).ListsUser g c ↔
      if g = memory then c ∈ (f m).commandBuffers else t.ListsUser g c := by
  unfold ListsUser
  rw [find?_change]
  split
  next he => simp [he, hm]
  next he => exact Iff.rfl

theorem lists_attach (hm : t.objects.find? memory = some m) {resource g r : Handle} :
    (t.change memory (·.attach resource)).Lists g r ↔
      (g = memory ∧ r = resource) ∨ t.Lists g r := by
  rw [lists_change hm]
  split
  next he => simp [MemoryObject.attach, Lists, he, hm, eq_comm (a := r)]
  next he => simp [he]

theorem lists_detach (hm : t.objects.find? memory = some m) {resource g r : Handle} :
    (t.change memory (·.detach resource)).Lists g r ↔
      ¬(g = memory ∧ r = resource) ∧ t.Lists g r := by
  rw [lists_change hm]
  split
  next he => simp [MemoryObject.detach, Lists, he, hm, eq_comm (a := r)]
  next he => simp [he]

theorem listsUser_retain (hm : t.objects.find? memory = some m) {commandBuffer g c : Handle} :
    (t.change memory (·.retain commandBuffer)).ListsUser g c ↔
      (g = memory ∧ c = commandBuffer) ∨ t.ListsUser g c := by
  rw [listsUser_change hm]
  split
  next he => simp [MemoryObject.retain, ListsUser, he, hm, eq_comm (a := c)]
  next he => simp [he]

/-- A change that keeps the resources of a record keeps all of them. -/
theorem lists_change_of_eq {f : MemoryObject → MemoryObject} {g r : Handle}
    (hm : t.objects.find? memory = some m) (hf : (f m).bindings = m.bindings) :
    (t.change memory f).Lists g r ↔ t.Lists g r := by
  rw [lists_change hm]
  split
  next he => simp [he, hf, Lists, hm]
  next he => exact Iff.rfl

/-- A change that keeps the command buffers of a record keeps all of them. -/
theorem listsUser_change_of_eq {f : MemoryObject → MemoryObject} {g c : Handle}
    (hm : t.objects.find? memory = some m) (hf : (f m).commandBuffers = m.commandBuffers) :
    (t.change memory f).ListsUser g c ↔ t.ListsUser g c := by
  rw [listsUser_change hm]
  split
  next he => simp [he, hf, ListsUser, hm]
  next he => exact Iff.rfl

/-- The records without links of a command buffer. -/
def forget (t : MemoryTracker) (commandBuffer : Handle) : MemoryTracker :=
  ⟨⟨t.objects.records.map fun _ m => m.without commandBuffer⟩⟩

@[simp] theorem find?_forget (t : MemoryTracker) (commandBuffer g : Handle) :
    (t.forget commandBuffer).objects.find? g =
      (t.objects.find? g).map (·.without commandBuffer) := by
  unfold forget Registry.find?
  split
  · exact Std.ExtTreeMap.getElem?_map
  · rfl

theorem Counted.forget (h : t.Counted) (commandBuffer : Handle) :
    (t.forget commandBuffer).Counted := by
  intro g m hg
  rw [find?_forget, Option.map_eq_some_iff] at hg
  obtain ⟨m, hm, rfl⟩ := hg
  exact (h g m hm).without commandBuffer

theorem Tallied.forget (h : t.Tallied) (commandBuffer : Handle) :
    (t.forget commandBuffer).Tallied := by
  intro g m' hg
  rw [find?_forget, Option.map_eq_some_iff] at hg
  obtain ⟨m, hm, rfl⟩ := hg
  exact (h g m hm).without commandBuffer

theorem lists_forget {commandBuffer g r : Handle} :
    (t.forget commandBuffer).Lists g r ↔ t.Lists g r := by
  unfold Lists
  rw [find?_forget]
  cases t.objects.find? g with
  | none => simp
  | some m => simp

theorem listsUser_forget {commandBuffer g c : Handle} :
    (t.forget commandBuffer).ListsUser g c ↔ c ≠ commandBuffer ∧ t.ListsUser g c := by
  unfold ListsUser
  rw [find?_forget]
  cases t.objects.find? g with
  | none => simp
  | some m => simp [MemoryObject.mem_commandBuffers_without]

/-! ## Entering and striking out -/

section Views

variable {u : MemoryTracker} {device : Handle} {info : AllocationInfo}

theorem Tallied.enter (h : t.Tallied)
    (view : ∀ g, u.objects.find? g =
      if g = memory then some (.fresh device info) else t.objects.find? g) : u.Tallied := by
  intro g m' hg
  rw [view] at hg
  split at hg
  next _ =>
    cases hg
    exact MemoryObject.tallied_fresh device info
  next _ => exact h g m' hg

theorem lists_enter (new : t.objects.find? memory = none)
    (view : ∀ g, u.objects.find? g =
      if g = memory then some (.fresh device info) else t.objects.find? g) {g r : Handle} :
    u.Lists g r ↔ t.Lists g r := by
  unfold Lists
  rw [view]
  split
  next he => simp [he, new, MemoryObject.fresh]
  next _ => exact Iff.rfl

theorem listsUser_enter (new : t.objects.find? memory = none)
    (view : ∀ g, u.objects.find? g =
      if g = memory then some (.fresh device info) else t.objects.find? g) {g c : Handle} :
    u.ListsUser g c ↔ t.ListsUser g c := by
  unfold ListsUser
  rw [view]
  split
  next he => simp [he, new, MemoryObject.fresh]
  next _ => exact Iff.rfl

theorem Tallied.strike (h : t.Tallied)
    (view : ∀ g, u.objects.find? g = if g = memory then none else t.objects.find? g) :
    u.Tallied := by
  intro g m' hg
  rw [view] at hg
  split at hg
  next _ => cases hg
  next _ => exact h g m' hg

theorem lists_strike (old : t.objects.find? memory = some m) (unlinked : m.links = 0)
    (view : ∀ g, u.objects.find? g = if g = memory then none else t.objects.find? g)
    {g r : Handle} : u.Lists g r ↔ t.Lists g r := by
  unfold Lists
  rw [view]
  split
  next he =>
    have none : r ∉ m.bindings := fun hr => by
      have linked := MemoryObject.links_pos_of_bound hr
      omega
    simp [he, old, none]
  next _ => exact Iff.rfl

theorem listsUser_strike (old : t.objects.find? memory = some m) (unlinked : m.links = 0)
    (view : ∀ g, u.objects.find? g = if g = memory then none else t.objects.find? g)
    {g c : Handle} : u.ListsUser g c ↔ t.ListsUser g c := by
  unfold ListsUser
  rw [view]
  split
  next he =>
    have none : c ∉ m.commandBuffers := fun hc => by
      have linked := MemoryObject.links_pos_of_used hc
      omega
    simp [he, old, none]
  next _ => exact Iff.rfl

end Views

/-! ## Allocation and mapping -/

/-- A new allocation is entered without links. -/
theorem allocate_ends (t : MemoryTracker) (memory device : Handle) (info : AllocationInfo) :
    (allocate memory device info).Ends t
      (fun _ u => memory.kind = .deviceMemory ∧ t.objects.find? memory = none ∧
        ∀ g, u.objects.find? g =
          if g = memory then some (.fresh device info) else t.objects.find? g)
      (Track.Refused t) := by
  unfold allocate
  rw [Track.ends_bind, Track.ends_update_bind]
  constructor
  · intro objects hr
    obtain ⟨hk, -, hf, -⟩ := Registry.register_eq_ok_iff.mp hr
    exact ⟨hk, hf, Registry.find?_register hr⟩
  · intro v hv
    exact ⟨Registry.mild_register memory _ v hv, rfl⟩

/-- An allocation with links is not freed; the violation lists what it is linked to. -/
theorem free_linked_ends {memory : Handle} (tallied : t.Tallied)
    (hm : t.objects.find? memory = some m) (linked : 0 < m.links) :
    (free memory).Ends t (fun _ _ => False) fun v u =>
      v = .freedMemRef memory m.bindings.toList m.commandBuffers.toList ∧ u = t := by
  have count : m.refCount = m.links := tallied memory m hm
  have stays : ∀ (hs : List Handle) (line : Handle → String), (hs.forM fun g =>
      (Track.log .warn (line g) : Track MemoryTracker Unit)).Ends t (fun _ u => u = t)
      fun _ _ => False := fun hs line =>
    Track.Ends.forM_keeps (· = t) rfl fun _ _ _ hu => Track.ends_log.mpr hu
  unfold free
  rw [Track.ends_bind, Track.ends_query, lookup_eq_ok_iff.mpr hm, Track.ends_ofExcept_ok,
    Track.ends_bind, MemoryObject.checkRefCount_eq_ok count, Track.ends_ofExcept_ok]
  simp only [if_pos (count ▸ linked)]
  rw [Track.ends_bind]
  refine (stays _ _).mono (fun _ u hu => ?_) fun _ _ hf => hf.elim
  rw [hu, Track.ends_bind]
  refine (stays _ _).mono (fun _ u hu => ?_) fun _ _ hf => hf.elim
  exact ⟨rfl, hu⟩

/-- What is struck out has no links, whatever the counts are, and otherwise nothing changes. -/
theorem free_strikes (t : MemoryTracker) (memory : Handle) :
    (free memory).Ends t
      (fun m u => t.objects.find? memory = some m ∧ m.links = 0 ∧
        ∀ g, u.objects.find? g = if g = memory then none else t.objects.find? g)
      fun v u => u = t ∧ (t.Tallied → v.isFatal = false) := by
  have stays : ∀ (hs : List Handle) (line : Handle → String), (hs.forM fun g =>
      (Track.log .warn (line g) : Track MemoryTracker Unit)).Ends t (fun _ u => u = t)
      fun _ _ => False := fun hs line =>
    Track.Ends.forM_keeps (· = t) rfl fun _ _ _ hu => Track.ends_log.mpr hu
  unfold free
  rw [Track.ends_bind, Track.ends_query, Track.ends_ofExcept]
  refine ⟨fun m hl => ?_, fun v hv => ⟨rfl, fun _ => t.mild_lookup memory v hv⟩⟩
  have hm := lookup_eq_ok_iff.mp hl
  rw [Track.ends_bind, Track.ends_ofExcept]
  refine ⟨fun _ hc => ?_, fun v hv => ⟨rfl, fun tallied => ?_⟩⟩
  · have count := MemoryObject.tallied_of_checkRefCount hc
    by_cases linked : 0 < m.refCount
    · simp only [if_pos linked]
      rw [Track.ends_bind]
      refine (stays _ _).mono (fun _ u hu => ?_) fun _ _ hf => hf.elim
      rw [hu, Track.ends_bind]
      refine (stays _ _).mono (fun _ u hu => ?_) fun _ _ hf => hf.elim
      exact ⟨hu, fun _ => rfl⟩
    · simp only [if_neg linked]
      rw [Track.ends_bind, Track.ends_update_bind]
      constructor
      · intro struck hr
        have unlinked : m.links = 0 := count ▸ Nat.eq_zero_of_not_pos linked
        have gone := Registry.find?_unregister hr
        cases m.mapped with
        | none => exact ⟨hm, unlinked, gone⟩
        | some range => exact ⟨hm, unlinked, gone⟩
      · intro v hv
        exact ⟨rfl, fun _ => Registry.mild_unregister memory v hv⟩
  · rw [MemoryObject.checkRefCount_eq_ok (tallied memory m hm)] at hv
    cases hv

/-- An allocation is struck out if it has no links, and only then. -/
theorem free_ends (tallied : t.Tallied) (memory : Handle) :
    (free memory).Ends t
      (fun m u => t.objects.find? memory = some m ∧ m.links = 0 ∧
        ∀ g, u.objects.find? g = if g = memory then none else t.objects.find? g)
      (Track.Refused t) :=
  (t.free_strikes memory).mono (fun _ _ hu => hu) fun _ _ hv => ⟨hv.2 tallied, hv.1⟩

/-- What is left on a device is struck out and reported, and the allocations of other devices
stay. -/
theorem leaks_strikes (t : MemoryTracker) (device : Handle) :
    (leaks device).Ends t
      (fun vs u => vs = ((t.objects.drain fun m => m.device = device).1.map fun (memory, m) =>
          .memoryLeak memory device m.info.size) ∧
        ∀ g, u.objects.find? g = (t.objects.find? g).filter fun m => m.device ≠ device)
      fun _ _ => False := by
  have stays : ∀ left : List (Handle × MemoryObject), ∀ u : MemoryTracker,
      (left.forM fun (memory, m) => (Track.log .warn
        s!"{memory} ({m.info.size} bytes) leaked by {device}" : Track MemoryTracker Unit)).Ends u
      (fun _ v => v = u) fun _ _ => False := fun left u =>
    Track.Ends.forM_keeps (· = u) rfl fun _ _ _ hv => Track.ends_log.mpr hv
  unfold leaks
  rw [Track.ends_bind, Track.ends_get, Track.ends_bind, Track.ends_set, Track.ends_bind]
  refine (stays _ _).mono (fun _ u hu => ⟨rfl, fun g => ?_⟩) fun _ _ hf => hf
  rw [hu]
  refine (t.objects.find?_drain _ g).trans ?_
  simp

/-- Mapping changes the mapped range only. -/
theorem map_ends (t : MemoryTracker) (memory : Handle) (offset size : UInt64) :
    (map memory offset size).Ends t
      (fun range u => (∃ m, t.objects.find? memory = some m) ∧
        u = t.change memory (·.remap (some range)))
      (Track.Refused t) := by
  unfold map put
  refine Track.Asks.before (Track.asks_query fun t => t.mild_lookup memory) (fun m hm => ?_)
    fun _ hv => ⟨hv, rfl⟩
  rw [Track.on_query] at hm
  have hf := lookup_eq_ok_iff.mp hm
  by_cases visible : (!m.info.properties.contains MemoryProperties.hostVisible) = true
  · simp only [if_pos visible]
    exact ⟨rfl, rfl⟩
  · simp only [if_neg visible]
    cases m.mapped with
    | some current => exact ⟨rfl, rfl⟩
    | none =>
        refine Track.Asks.before (Track.asks_ofExcept (m.mild_rangeAt memory offset size))
          (fun range _ => ?_) fun _ hv => ⟨hv, rfl⟩
        exact ⟨⟨m, hf⟩, change_congr hf rfl⟩

/-- Unmapping changes the mapped range only. -/
theorem unmap_ends (t : MemoryTracker) (memory : Handle) :
    (unmap memory).Ends t
      (fun _ u => (∃ m, t.objects.find? memory = some m) ∧ u = t.change memory (·.remap none))
      (Track.Refused t) := by
  unfold unmap put
  refine Track.Asks.before (Track.asks_query fun t => t.mild_lookup memory) (fun m hm => ?_)
    fun _ hv => ⟨hv, rfl⟩
  rw [Track.on_query] at hm
  have hf := lookup_eq_ok_iff.mp hm
  cases m.mapped with
  | none => exact ⟨rfl, rfl⟩
  | some range => exact ⟨⟨m, hf⟩, change_congr hf rfl⟩

/-- Where every count is right, the books pass their own check. -/
theorem Tallied.verify (h : t.Tallied) : t.verify = .ok () := by
  unfold MemoryTracker.verify
  exact forM_eq_ok_iff.mpr fun e he =>
    MemoryObject.checkRefCount_eq_ok (h e.1 e.2 (Registry.mem_entries.mp he)) e.1

/-! ## Operations on links -/

/-- A link is counted where there is room for it. -/
theorem countUp_room {m' : MemoryObject} {f : MemoryObject → MemoryObject}
    (hm : t.objects.find? memory = some m) (room : m'.refCount < maxRefCount)
    (hf : f m = { m' with refCount := m'.refCount + 1 }) :
    (countUp memory m').Ends t (fun _ u => u = t.change memory f) fun _ _ => False := by
  unfold countUp MemoryObject.increment put
  rw [if_pos room]
  simp only [Track.ends_bind, Track.ends_modify, Track.ends_ofExcept_ok, Track.ends_pure]
  exact (change_change _ _).trans (change_congr hm hf.symm)

/-- Where there is no room, an internal error is left, and the link that is not counted. -/
theorem countUp_full (t : MemoryTracker) {m' : MemoryObject} (full : maxRefCount ≤ m'.refCount) :
    (countUp memory m').Ends t (fun _ _ => False)
      fun v u => v.isFatal = true ∧ u = t.change memory fun _ => m' := by
  unfold countUp MemoryObject.increment put
  rw [if_neg (Nat.not_lt_of_le full)]
  exact ⟨rfl, rfl⟩

/-- Counting up stops only at a record with more links than can be counted, which is an
internal error. -/
theorem countUp_ends {m' : MemoryObject} {f : MemoryObject → MemoryObject}
    (hm : t.objects.find? memory = some m) (hl : m'.links = m'.refCount + 1)
    (hf : f m = { m' with refCount := m'.refCount + 1 }) :
    (countUp memory m').Ends t (fun _ u => u = t.change memory f)
      fun v u => (v.isFatal = true ∧ ¬u.Counted) ∧ maxRefCount ≤ m'.refCount := by
  by_cases room : m'.refCount < maxRefCount
  · exact (countUp_room hm room hf).mono (fun _ _ hu => hu) fun _ _ h => h.elim
  · have full := Nat.le_of_not_lt room
    refine (countUp_full t full).mono (fun _ _ h => h.elim) fun v u hu => ?_
    refine ⟨⟨hu.1, fun counted => ?_⟩, full⟩
    have left : u.objects.find? memory = some m' := by
      rw [hu.2, find?_change, if_pos rfl, hm, Option.map_some]
    have := counted memory m' left
    unfold MemoryObject.Counted at this
    omega

/-- Counting down does not stop where there is a link to count off. -/
theorem countDown_ends {m' : MemoryObject} {f : MemoryObject → MemoryObject}
    (hm : t.objects.find? memory = some m) (pos : 0 < m'.refCount)
    (hf : f m = { m' with refCount := m'.refCount - 1 }) :
    (countDown memory m').Ends t (fun _ u => u = t.change memory f) fun _ _ => False := by
  unfold countDown MemoryObject.decrement put
  rw [if_pos pos]
  simp only [Track.ends_bind, Track.ends_modify, Track.ends_ofExcept_ok, Track.ends_pure]
  exact (change_change _ _).trans (change_congr hm hf.symm)

/-- A resource that is not listed yet is entered and counted. -/
theorem addBinding_ends {resource : Handle} (hm : t.objects.find? memory = some m)
    (tallied : m.Tallied) (new : resource ∉ m.bindings) :
    (addBinding memory resource).Ends t
      (fun _ u => u = t.change memory (·.attach resource))
      fun v u => (v.isFatal = true ∧ ¬u.Counted) ∧ maxRefCount ≤ m.refCount := by
  unfold addBinding
  rw [Track.ends_bind, Track.ends_query, lookup_eq_ok_iff.mpr hm, Track.ends_ofExcept_ok,
    if_neg new]
  have hl : ({ m with bindings := m.bindings.insert resource } : MemoryObject).links
      = m.refCount + 1 := by
    unfold MemoryObject.Tallied at tallied
    rw [tallied]
    simp only [MemoryObject.links, Handle.size_insert new]
    omega
  exact countUp_ends hm hl rfl

/-- Whatever the count says, a resource is entered and counted where there is room. -/
theorem addBinding_room {resource : Handle} (hm : t.objects.find? memory = some m)
    (new : resource ∉ m.bindings) (room : m.refCount < maxRefCount) :
    (addBinding memory resource).Ends t
      (fun _ u => u = t.change memory (·.attach resource)) fun _ _ => False := by
  unfold addBinding
  rw [Track.ends_bind, Track.ends_query, lookup_eq_ok_iff.mpr hm, Track.ends_ofExcept_ok,
    if_neg new]
  exact countUp_room hm room rfl

/-- Where there is no room, the resource is entered and not counted. -/
theorem addBinding_full {resource : Handle} (hm : t.objects.find? memory = some m)
    (new : resource ∉ m.bindings) (full : maxRefCount ≤ m.refCount) :
    (addBinding memory resource).Ends t (fun _ _ => False)
      fun v u => v.isFatal = true ∧ u = t.change memory fun _ =>
        { m with bindings := m.bindings.insert resource } := by
  unfold addBinding
  rw [Track.ends_bind, Track.ends_query, lookup_eq_ok_iff.mpr hm, Track.ends_ofExcept_ok,
    if_neg new]
  exact countUp_full t full

/-- A listed resource is struck out, and counted off where there is a link to count off. -/
theorem removeBinding_listed {resource : Handle} (hm : t.objects.find? memory = some m)
    (old : resource ∈ m.bindings) (pos : 0 < m.refCount) :
    (removeBinding memory resource).Ends t
      (fun _ u => u = t.change memory (·.detach resource)) fun _ _ => False := by
  unfold removeBinding
  rw [Track.ends_bind, Track.ends_query, lookup_eq_ok_iff.mpr hm, Track.ends_ofExcept_ok,
    if_neg (not_not_intro old)]
  exact countDown_ends hm pos rfl

/-- A listed resource is struck out and counted off. -/
theorem removeBinding_ends {resource : Handle} (hm : t.objects.find? memory = some m)
    (tallied : m.Tallied) (old : resource ∈ m.bindings) :
    (removeBinding memory resource).Ends t
      (fun _ u => u = t.change memory (·.detach resource)) fun _ _ => False := by
  refine removeBinding_listed hm old ?_
  have := Handle.size_pos old
  unfold MemoryObject.Tallied MemoryObject.links at tallied
  omega

/-- A command buffer that is not listed yet is entered and counted; one that is listed
stays as it is. -/
theorem addCommandBuffer_ends {commandBuffer : Handle} (hm : t.objects.find? memory = some m)
    (tallied : m.Tallied) :
    (addCommandBuffer memory commandBuffer).Ends t
      (fun _ u => u = if commandBuffer ∈ m.commandBuffers then t
        else t.change memory (·.retain commandBuffer))
      fun v u => (v.isFatal = true ∧ ¬u.Counted) ∧ commandBuffer ∉ m.commandBuffers ∧
        maxRefCount ≤ m.refCount := by
  unfold addCommandBuffer
  rw [Track.ends_bind, Track.ends_query, lookup_eq_ok_iff.mpr hm, Track.ends_ofExcept_ok]
  by_cases old : commandBuffer ∈ m.commandBuffers
  · rw [if_pos old, if_pos old]
    exact rfl
  · rw [if_neg old, if_neg old]
    have hl : ({ m with commandBuffers := m.commandBuffers.insert commandBuffer }
        : MemoryObject).links = m.refCount + 1 := by
      unfold MemoryObject.Tallied at tallied
      rw [tallied]
      simp only [MemoryObject.links, Handle.size_insert old]
      omega
    exact (countUp_ends hm hl rfl).mono (fun _ _ hu => hu) fun _ _ hf => ⟨hf.1, old, hf.2⟩

/-- Where there is no room, the command buffer is entered and not counted. -/
theorem addCommandBuffer_full {commandBuffer : Handle} (hm : t.objects.find? memory = some m)
    (new : commandBuffer ∉ m.commandBuffers) (full : maxRefCount ≤ m.refCount) :
    (addCommandBuffer memory commandBuffer).Ends t (fun _ _ => False)
      fun v u => v.isFatal = true ∧ u = t.change memory fun _ => m.overlist commandBuffer := by
  unfold addCommandBuffer
  rw [Track.ends_bind, Track.ends_query, lookup_eq_ok_iff.mpr hm, Track.ends_ofExcept_ok,
    if_neg new]
  exact countUp_full t full

/-- A command buffer that is listed stays so, and is not counted again. -/
theorem addCommandBuffer_listed {commandBuffer : Handle} (hm : t.objects.find? memory = some m)
    (old : commandBuffer ∈ m.commandBuffers) :
    (addCommandBuffer memory commandBuffer).Ends t (fun _ u => u = t) fun _ _ => False := by
  unfold addCommandBuffer
  rw [Track.ends_bind, Track.ends_query, lookup_eq_ok_iff.mpr hm, Track.ends_ofExcept_ok,
    if_pos old]
  exact rfl

/-- A listed command buffer is struck out and counted off. -/
theorem removeCommandBuffer_ends {commandBuffer : Handle}
    (hm : t.objects.find? memory = some m) (tallied : m.Tallied)
    (old : commandBuffer ∈ m.commandBuffers) :
    (removeCommandBuffer memory commandBuffer).Ends t
      (fun _ u => u = t.change memory (·.release commandBuffer)) fun _ _ => False := by
  unfold removeCommandBuffer
  rw [Track.ends_bind, Track.ends_query, lookup_eq_ok_iff.mpr hm, Track.ends_ofExcept_ok,
    if_neg (not_not_intro old)]
  have pos : 0 < m.refCount := by
    have := Handle.size_pos old
    unfold MemoryObject.Tallied MemoryObject.links at tallied
    omega
  exact countDown_ends hm pos rfl

/-- Where there is no link to count off, no command buffer is struck out without an error. -/
theorem removeCommandBuffer_spent (commandBuffer : Handle)
    (hm : t.objects.find? memory = some m) (spent : m.refCount = 0) :
    (removeCommandBuffer memory commandBuffer).Ends t (fun _ _ => False) fun _ _ => True := by
  unfold removeCommandBuffer
  rw [Track.ends_bind, Track.ends_query, lookup_eq_ok_iff.mpr hm, Track.ends_ofExcept_ok]
  split
  next _ => exact trivial
  next _ =>
    unfold countDown MemoryObject.decrement put
    rw [if_neg (by simp [spent])]
    exact trivial

/-- A command buffer that is struck out is not listed any more, and no other is entered. -/
theorem removeCommandBuffer_frees (t : MemoryTracker) (memory commandBuffer : Handle) :
    (removeCommandBuffer memory commandBuffer).Ends t
      (fun _ u => ∀ g c, u.ListsUser g c →
        t.ListsUser g c ∧ ¬(c = commandBuffer ∧ g = memory)) fun _ _ => True := by
  unfold removeCommandBuffer
  rw [Track.ends_bind, Track.ends_query, Track.ends_ofExcept]
  refine ⟨fun m hl => ?_, fun _ _ => trivial⟩
  have hm := lookup_eq_ok_iff.mp hl
  by_cases old : commandBuffer ∈ m.commandBuffers
  · rw [if_neg (not_not_intro old)]
    by_cases pos : 0 < m.refCount
    · refine Track.Ends.mono (countDown_ends (f := (·.release commandBuffer)) hm pos rfl)
        (fun _ u hu => ?_) fun _ _ _ => trivial
      intro g c listed
      rw [hu, listsUser_change hm] at listed
      split at listed
      next here =>
        obtain ⟨other, still⟩ := Handle.mem_erase.mp listed
        exact ⟨⟨m, here ▸ hm, still⟩, fun both => other both.1⟩
      next elsewhere => exact ⟨listed, fun both => elsewhere both.2⟩
    · unfold countDown MemoryObject.decrement put
      rw [if_neg pos]
      exact trivial
  · rw [if_pos old]
    exact trivial

end MemoryTracker

end GpuAudit
