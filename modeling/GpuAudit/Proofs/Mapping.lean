import GpuAudit.Proofs.Stock

/-!
# Mapping memory

A request to map is granted exactly if the allocation is live and `Mappable`, which is a matter
of exact arithmetic: the end of the range may be larger than a word can say.  What is granted
is what was asked for, with `wholeSize` read as the bytes from the offset to the end (`Covers`).
An allocation may be so large that `wholeSize` is a size like any other; the request covers the
bytes to the end all the same, and there are no more.

Nothing else enters a mapped range, and what it is checked against never changes, so a range
that is mapped lies inside host-visible memory in every state (`Backed`).

The successful requests on one handle fall into lives, one for each allocation that had it.
In a life ranges are mapped and unmapped by turns, and an allocation that is freed or reported
as a leak while it is mapped ends its life so (`Life`).
-/

namespace GpuAudit

/-! ## Ranges -/

namespace MemoryObject

variable {m : MemoryObject} {memory : Handle} {offset size : UInt64} {range : MappedRange}

/-- The allocation can be mapped from an offset on. -/
structure Mappable (m : MemoryObject) (offset size : UInt64) : Prop where
  /-- The host can see it. -/
  visible : m.info.properties.contains MemoryProperties.hostVisible = true
  /-- No range is mapped. -/
  unmapped : m.mapped = none
  /-- The request is for something. -/
  some : 0 < size.toNat
  /-- It starts inside the allocation. -/
  starts : offset.toNat < m.info.size.toNat
  /-- It ends there too, or where the allocation ends. -/
  fits : size = wholeSize ∨ offset.toNat + size.toNat ≤ m.info.size.toNat

/-- The range is what a request asks for. -/
structure Covers (m : MemoryObject) (offset size : UInt64) (range : MappedRange) : Prop where
  /-- It starts at the offset. -/
  starts : range.offset = offset
  /-- It ends where the allocation does, if all is asked for that is left. -/
  whole : size = wholeSize → range.offset.toNat + range.size.toNat = m.info.size.toNat
  /-- Otherwise it has the size that is asked for. -/
  given : size ≠ wholeSize → range.size = size

/-- The range is not empty and lies inside the allocation, which the host can see. -/
structure Backs (m : MemoryObject) (range : MappedRange) : Prop where
  /-- It has bytes. -/
  some : 0 < range.size.toNat
  /-- It lies inside. -/
  inside : range.offset.toNat + range.size.toNat ≤ m.info.size.toNat
  /-- The host can see it. -/
  visible : m.info.properties.contains MemoryProperties.hostVisible = true

/-- The bytes to the end are counted without going below zero. -/
theorem toNat_rest (starts : offset.toNat < m.info.size.toNat) :
    offset.toNat + (m.info.size - offset).toNat = m.info.size.toNat := by
  rw [UInt64.toNat_sub_of_le _ _ (UInt64.le_iff_toNat_le.mpr (Nat.le_of_lt starts))]
  omega

/-- Only one range is what a request asks for. -/
theorem covers_iff (starts : offset.toNat < m.info.size.toNat) : m.Covers offset size range ↔
    range = ⟨offset, if size = wholeSize then m.info.size - offset else size⟩ := by
  constructor
  · rintro ⟨rfl, whole, given⟩
    cases range with
    | mk o s =>
        refine congrArg (MappedRange.mk o) ?_
        split
        next all =>
          have rest := toNat_rest starts
          have ends : o.toNat + s.toNat = m.info.size.toNat := whole all
          rw [← UInt64.toNat_inj]
          exact Nat.add_left_cancel (ends.trans rest.symm)
        next part => exact given part
  · rintro rfl
    refine ⟨rfl, fun all => ?_, fun part => if_neg part⟩
    show offset.toNat + (if size = wholeSize then m.info.size - offset else size).toNat = _
    rw [if_pos all]
    exact toNat_rest starts

/-- A range is granted exactly if it is not empty and fits; it is then what was asked for. -/
theorem rangeAt_eq_ok_iff : m.rangeAt memory offset size = .ok range ↔
    (0 < size.toNat ∧ offset.toNat < m.info.size.toNat ∧
      (size = wholeSize ∨ offset.toNat + size.toNat ≤ m.info.size.toNat)) ∧
    m.Covers offset size range := by
  unfold rangeAt
  by_cases empty : size = 0
  · simp [empty]
  have some : 0 < size.toNat := Nat.pos_of_ne_zero fun zero => empty (UInt64.toNat_inj.mp zero)
  rw [if_neg empty]
  by_cases past : m.info.size ≤ offset
  · have starts : ¬offset.toNat < m.info.size.toNat :=
      Nat.not_lt.mpr (UInt64.le_iff_toNat_le.mp past)
    simp [past, starts]
  have starts : offset.toNat < m.info.size.toNat :=
    Nat.lt_of_not_le fun le => past (UInt64.le_iff_toNat_le.mpr le)
  rw [if_neg past, covers_iff starts]
  simp only [holds_iff]
  by_cases whole : size = wholeSize
  · have some : 0 < wholeSize.toNat := by decide
    -- The bytes to the end fit, however large the allocation is.
    have fits : offset.toNat + (m.info.size - offset).toNat ≤ m.info.size.toNat :=
      Nat.le_of_eq (toNat_rest starts)
    simp [some, starts, whole, fits, eq_comm]
  · by_cases fits : offset.toNat + size.toNat ≤ m.info.size.toNat
    · simp [some, starts, whole, fits, eq_comm]
    · simp [whole, fits]

/-- What is granted is not empty and lies inside the allocation. -/
theorem Mappable.backs (may : m.Mappable offset size) (covers : m.Covers offset size range) :
    m.Backs range := by
  obtain ⟨visible, -, some, starts, fits⟩ := may
  obtain ⟨rfl, whole, given⟩ := covers
  by_cases all : size = wholeSize
  · have ends := whole all
    exact ⟨by omega, by omega, visible⟩
  · have fits := fits.resolve_left all
    rw [← given all] at some fits
    exact ⟨some, fits, visible⟩

/-- The end of a range inside an allocation is counted without overflow. -/
theorem Backs.end_exact (h : m.Backs range) :
    (range.offset + range.size).toNat = range.offset.toNat + range.size.toNat := by
  have inside := h.inside
  have := m.info.size.toNat_lt
  rw [UInt64.toNat_add, Nat.mod_eq_of_lt (by omega)]

end MemoryObject

/-! ## Requests -/

namespace MemoryTracker

open MemoryObject (Mappable Covers)

variable {t u : MemoryTracker} {memory g : Handle} {m : MemoryObject} {offset size : UInt64}
  {range : MappedRange}

/-- A range is mapped, and nothing else changes. -/
structure Maps (t : MemoryTracker) (memory : Handle) (offset size : UInt64) (range : MappedRange)
    (m : MemoryObject) (u : MemoryTracker) : Prop where
  /-- The allocation is live. -/
  live : t.objects.find? memory = some m
  /-- The range is what was asked for. -/
  covers : m.Covers offset size range
  /-- Its end is counted without overflow. -/
  exact : (range.offset + range.size).toNat = range.offset.toNat + range.size.toNat
  /-- It is recorded, and the other records stay. -/
  view : ∀ g, u.objects.find? g =
    if g = memory then some { m with mapped := some range } else t.objects.find? g

/-- A range is unmapped, and nothing else changes. -/
structure Unmaps (t : MemoryTracker) (memory : Handle) (range : MappedRange) (m : MemoryObject)
    (u : MemoryTracker) : Prop where
  /-- The allocation is live. -/
  live : t.objects.find? memory = some m
  /-- The range was mapped. -/
  mapped : m.mapped = some range
  /-- It is mapped no more, and the other records stay. -/
  view : ∀ g, u.objects.find? g =
    if g = memory then some { m with mapped := none } else t.objects.find? g

theorem find?_put (hm : t.objects.find? memory = some m) (m' : MemoryObject) (g : Handle) :
    (t.change memory fun _ => m').objects.find? g =
      if g = memory then some m' else t.objects.find? g := by
  rw [find?_change]
  split
  next here => rw [here, hm, Option.map_some]
  next => rfl

/-- A range is mapped exactly if the allocation is live and can be mapped so. -/
theorem maps_exactly (t : MemoryTracker) (memory : Handle) (offset size : UInt64) :
    (map memory offset size).Exactly t
      (∃ m, t.objects.find? memory = some m ∧ m.Mappable offset size) (·.isFatal = false)
      fun range u => ∃ m, t.Maps memory offset size range m u := by
  unfold Track.Exactly map put
  rw [Track.ends_bind, Track.ends_query, Track.ends_ofExcept]
  refine ⟨fun m hl => ?_, fun v hv => ⟨rfl, fun ⟨m, hm, _⟩ => ?_, t.mild_lookup memory v hv⟩⟩
  · have hm := lookup_eq_ok_iff.mp hl
    have same : ∀ m', t.objects.find? memory = some m' → m' = m := fun m' hm' =>
      Option.some.inj (hm'.symm.trans hm)
    by_cases visible : m.info.properties.contains MemoryProperties.hostVisible = true
    · simp only [visible, Bool.not_true, Bool.false_eq_true, if_false]
      cases free : m.mapped with
      | some current =>
          refine ⟨rfl, fun ⟨m', hm', may⟩ => ?_, rfl⟩
          cases same m' hm'
          cases free.symm.trans may.unmapped
      | none =>
          show (Track.ofExcept (m.rangeAt memory offset size) >>= _).Ends _ _ _
          rw [Track.ends_bind, Track.ends_ofExcept]
          refine ⟨fun range hr => ?_, fun v hv =>
            ⟨rfl, fun ⟨m', hm', may⟩ => ?_, m.mild_rangeAt memory offset size v hv⟩⟩
          · obtain ⟨⟨some, starts, fits⟩, covers⟩ := MemoryObject.rangeAt_eq_ok_iff.mp hr
            have may : m.Mappable offset size := ⟨visible, free, some, starts, fits⟩
            exact ⟨⟨m, hm, may⟩, m, hm, covers, (may.backs covers).end_exact, find?_put hm _⟩
          · cases same m' hm'
            have granted : m.rangeAt memory offset size = .ok
                ⟨offset, if size = wholeSize then m.info.size - offset else size⟩ :=
              MemoryObject.rangeAt_eq_ok_iff.mpr ⟨⟨may.some, may.starts, may.fits⟩,
                (MemoryObject.covers_iff may.starts).mpr rfl⟩
            rw [granted] at hv
            cases hv
    · simp only [visible, Bool.not_false, if_true]
      refine ⟨rfl, fun ⟨m', hm', may⟩ => ?_, rfl⟩
      cases same m' hm'
      exact visible may.visible
  · rw [lookup_eq_ok_iff.mpr hm] at hv
    cases hv

/-- A range is unmapped exactly if the allocation is live and has it mapped. -/
theorem unmaps_exactly (t : MemoryTracker) (memory : Handle) :
    (unmap memory).Exactly t (∃ m range, t.objects.find? memory = some m ∧ m.mapped = some range)
      (·.isFatal = false) fun range u => ∃ m, t.Unmaps memory range m u := by
  unfold Track.Exactly unmap put
  rw [Track.ends_bind, Track.ends_query, Track.ends_ofExcept]
  refine ⟨fun m hl => ?_, fun v hv => ⟨rfl, fun ⟨m, _, hm, _⟩ => ?_, t.mild_lookup memory v hv⟩⟩
  · have hm := lookup_eq_ok_iff.mp hl
    cases mapped : m.mapped with
    | none =>
        refine ⟨rfl, fun ⟨m', range, hm', held⟩ => ?_, rfl⟩
        cases hm.symm.trans hm'
        cases mapped.symm.trans held
    | some range => exact ⟨⟨m, range, hm, mapped⟩, m, hm, mapped, find?_put hm _⟩
  · rw [lookup_eq_ok_iff.mpr hm] at hv
    cases hv

end MemoryTracker

/-! ## Operations -/

/-- The operations on the allocations of a device. -/
inductive MemoryOperation
  | allocate (memory device : Handle) (info : AllocationInfo)
  | free (memory : Handle)
  | leaks (device : Handle)
  | map (memory : Handle) (offset size : UInt64)
  | unmap (memory : Handle)
  | addBinding (memory resource : Handle)
  | removeBinding (memory resource : Handle)
  | addCommandBuffer (memory commandBuffer : Handle)
  | removeCommandBuffer (memory commandBuffer : Handle)

/-- What a successful operation tells of the mapping of an allocation. -/
inductive MapEvent
  /-- A range has been mapped. -/
  | mapped (range : MappedRange)
  /-- A range has been unmapped. -/
  | unmapped (range : MappedRange)
  /-- The allocation is gone. -/
  | ended

namespace MemoryOperation

/-- An operation, without its answer. -/
def run : MemoryOperation → Track MemoryTracker Unit
  | allocate memory device info => MemoryTracker.allocate memory device info
  | free memory => discard (MemoryTracker.free memory)
  | leaks device => discard (MemoryTracker.leaks device)
  | map memory offset size => discard (MemoryTracker.map memory offset size)
  | unmap memory => discard (MemoryTracker.unmap memory)
  | addBinding memory resource => discard (MemoryTracker.addBinding memory resource)
  | removeBinding memory resource => discard (MemoryTracker.removeBinding memory resource)
  | addCommandBuffer memory cb => discard (MemoryTracker.addCommandBuffer memory cb)
  | removeCommandBuffer memory cb => discard (MemoryTracker.removeCommandBuffer memory cb)

/-- The allocations after an operation, whatever its answer. -/
def outcome (op : MemoryOperation) (t : MemoryTracker) : MemoryTracker := (op.run.on t).state

/-- The allocations after operations. -/
def after (t : MemoryTracker) (ops : List MemoryOperation) : MemoryTracker :=
  ops.foldl (fun t op => op.outcome t) t

/-- What an operation tells of the mapping of a handle, by its answer. -/
def tells (op : MemoryOperation) (t : MemoryTracker) (g : Handle) : List MapEvent :=
  match op with
  | map memory offset size =>
      match ((MemoryTracker.map memory offset size).on t).value with
      | .ok range => if g = memory then [.mapped range] else []
      | .error _ => []
  | unmap memory =>
      match ((MemoryTracker.unmap memory).on t).value with
      | .ok range => if g = memory then [.unmapped range] else []
      | .error _ => []
  | free memory =>
      match ((MemoryTracker.free memory).on t).value with
      | .ok _ => if g = memory then [.ended] else []
      | .error _ => []
  | leaks device => if (t.objects.find? g).any (·.device = device) then [.ended] else []
  | _ => []

/-- What operations tell of the mapping of a handle, one after another. -/
def history (g : Handle) : MemoryTracker → List MemoryOperation → List MapEvent
  | _, [] => []
  | t, op :: ops => op.tells t g ++ history g (op.outcome t) ops

end MemoryOperation

namespace MemoryTracker

open MemoryObject (Mappable Covers)

/-- What an operation makes of the record of a handle, with what it tells of the mapping. -/
inductive Turn : List MapEvent → Option MemoryObject → Option MemoryObject → Prop
  /-- The mapping stays. -/
  | rests {x y : Option MemoryObject}
      (same : y.map (fun m => (m.info, m.mapped)) = x.map fun m => (m.info, m.mapped)) :
      Turn [] x y
  /-- The allocation is entered. -/
  | opens (device : Handle) (info : AllocationInfo) : Turn [] none (some (.fresh device info))
  /-- A range is mapped. -/
  | maps {m : MemoryObject} {offset size : UInt64} {range : MappedRange}
      (may : m.Mappable offset size) (covers : m.Covers offset size range) :
      Turn [.mapped range] (some m) (some { m with mapped := some range })
  /-- The mapped range is unmapped. -/
  | unmaps {m : MemoryObject} {range : MappedRange} (held : m.mapped = some range) :
      Turn [.unmapped range] (some m) (some { m with mapped := none })
  /-- The allocation is struck out. -/
  | ends (m : MemoryObject) : Turn [.ended] (some m) none

variable {t u : MemoryTracker} {g : Handle} {op : MemoryOperation}

theorem turn_of_same {x : Track MemoryTracker Nat} (h : op.run = discard x)
    (silent : op.tells t g = [])
    (same : x.Confined (SameIn fun m => (m.info, m.mapped))) :
    Turn (op.tells t g) (t.objects.find? g) ((op.outcome t).objects.find? g) := by
  rw [silent, MemoryOperation.outcome, h, Track.state_discard]
  exact .rests (same.state t g)

/-- An operation that deals with the record of one handle, and tells of it, or is refused. -/
theorem turn_of_answer {α : Type} {x : Track MemoryTracker α} (memory : Handle)
    (event : α → MapEvent) (h : op.run = discard x)
    (told : ∀ a, (x.on t).value = .ok a → op.tells t g = if g = memory then [event a] else [])
    (untold : ∀ v, (x.on t).value = .error v → op.tells t g = [])
    (ends : x.Ends t (fun a u => ∃ y, Turn [event a] (t.objects.find? memory) y ∧
      ∀ g, u.objects.find? g = if g = memory then y else t.objects.find? g) fun _ u => u = t) :
    Turn (op.tells t g) (t.objects.find? g) ((op.outcome t).objects.find? g) := by
  rw [MemoryOperation.outcome, h, Track.state_discard]
  cases hx : (x.on t).value with
  | ok a =>
      obtain ⟨y, turns, view⟩ := ends.good_of_ok hx
      rw [told a hx, view]
      split
      next here => exact here ▸ turns
      next => exact .rests rfl
  | error v =>
      rw [untold v hx, ends.bad_of_error hx]
      exact .rests rfl

theorem turn (op : MemoryOperation) (t : MemoryTracker) (g : Handle) :
    Turn (op.tells t g) (t.objects.find? g) ((op.outcome t).objects.find? g) := by
  have unlinked : Unlinked fun m => (m.info, m.mapped) := fun _ _ _ _ => rfl
  cases op with
  | allocate memory device info =>
      refine ((allocate_ends t memory device info).mono (fun _ u hu => ?_) fun _ u hu => ?_).state
        (P := fun u => Turn [] (t.objects.find? g) (u.objects.find? g))
      · obtain ⟨-, new, view⟩ := hu
        rw [view]
        split
        next here =>
          rw [here, new]
          exact .opens device info
        next => exact .rests rfl
      · rw [hu.2]
        exact .rests rfl
  | free memory =>
      refine turn_of_answer memory (fun _ => .ended) rfl
        (fun _ hx => by simp only [MemoryOperation.tells, hx])
        (fun _ hx => by simp only [MemoryOperation.tells, hx])
        ((t.free_strikes memory).mono (fun m u hu => ?_) fun _ _ hu => hu.1)
      obtain ⟨hm, -, view⟩ := hu
      exact ⟨none, hm ▸ .ends m, view⟩
  | leaks device =>
      rw [MemoryOperation.outcome, MemoryOperation.run, Track.state_discard]
      obtain ⟨vs, -, -, view⟩ := (t.leaks_strikes device).answers
      rw [MemoryOperation.tells, view]
      cases hm : t.objects.find? g with
      | none => exact .rests rfl
      | some m =>
          by_cases own : m.device = device
          · have told : (some m).any (·.device = device) = true := by simp [own]
            have gone : (some m).filter (fun m => m.device ≠ device) = none := by simp [own]
            rw [if_pos told, gone]
            exact .ends m
          · have untold : ¬(some m).any (·.device = device) = true := by simp [own]
            have stays : (some m).filter (fun m => m.device ≠ device) = some m := by simp [own]
            rw [if_neg untold, stays]
            exact .rests rfl
  | map memory offset size =>
      refine turn_of_answer memory .mapped rfl
        (fun _ hx => by simp only [MemoryOperation.tells, hx])
        (fun _ hx => by simp only [MemoryOperation.tells, hx])
        ((t.maps_exactly memory offset size).mono (fun range u hu => ?_) fun _ _ hu => hu.1)
      obtain ⟨⟨m, hm, may⟩, m', maps⟩ := hu
      cases hm.symm.trans maps.live
      exact ⟨_, hm ▸ .maps may maps.covers, maps.view⟩
  | unmap memory =>
      refine turn_of_answer memory .unmapped rfl
        (fun _ hx => by simp only [MemoryOperation.tells, hx])
        (fun _ hx => by simp only [MemoryOperation.tells, hx])
        ((t.unmaps_exactly memory).mono (fun range u hu => ?_) fun _ _ hu => hu.1)
      obtain ⟨-, m, unmaps⟩ := hu
      exact ⟨_, unmaps.live ▸ .unmaps unmaps.mapped, unmaps.view⟩
  | addBinding memory resource =>
      exact turn_of_same rfl rfl (addBinding_same unlinked memory resource)
  | removeBinding memory resource =>
      exact turn_of_same rfl rfl (removeBinding_same unlinked memory resource)
  | addCommandBuffer memory cb =>
      exact turn_of_same rfl rfl (addCommandBuffer_same unlinked memory cb)
  | removeCommandBuffer memory cb =>
      exact turn_of_same rfl rfl (removeCommandBuffer_same unlinked memory cb)

/-! ## Runs -/

/-- Every mapped range lies inside its allocation, which the host can see. -/
def Backed (t : MemoryTracker) : Prop :=
  ∀ g m range, t.objects.find? g = some m → m.mapped = some range → m.Backs range

theorem Turn.backs {es : List MapEvent} {x y : Option MemoryObject} (turn : Turn es x y)
    (h : ∀ m range, x = some m → m.mapped = some range → m.Backs range) :
    ∀ m range, y = some m → m.mapped = some range → m.Backs range := by
  intro m range hy held
  cases turn with
  | rests same =>
      rw [hy, Option.map_some] at same
      obtain ⟨old, hx, parts⟩ := Option.map_eq_some_iff.mp same.symm
      obtain ⟨info, mapped⟩ := Prod.mk.inj parts
      obtain ⟨some, inside, visible⟩ := h old range hx (mapped.trans held)
      exact ⟨some, info ▸ inside, info ▸ visible⟩
  | opens device info =>
      cases hy
      cases held
  | maps may covers =>
      cases hy
      cases held
      obtain ⟨some, inside, visible⟩ := may.backs covers
      exact ⟨some, inside, visible⟩
  | unmaps _ =>
      cases hy
      cases held
  | ends => cases hy

theorem Backed.after (h : t.Backed) (ops : List MemoryOperation) :
    (MemoryOperation.after t ops).Backed := by
  induction ops generalizing t with
  | nil => exact h
  | cons op ops ih => exact ih fun g => (turn op t g).backs (h g)

end MemoryTracker

/-- The mappings of one allocation: ranges mapped and unmapped by turns, and at last perhaps one
that is still mapped. -/
structure Life where
  /-- The ranges that have been unmapped, oldest first. -/
  closed : List MappedRange
  /-- The range that is mapped. -/
  last : Option MappedRange

namespace Life

/-- The requests that make up the mappings. -/
def events (life : Life) : List MapEvent :=
  (life.closed.flatMap fun range => [.mapped range, .unmapped range]) ++
    life.last.toList.map .mapped

/-- The requests on one handle: those on the allocations that are gone, one after another, and
those on the last one. -/
def story (gone : List Life) (current : Life) : List MapEvent :=
  gone.flatMap (fun life => life.events ++ [.ended]) ++ current.events

variable {es : List MapEvent} {x y : Option MemoryObject}

/-- A life goes on, or it is over and the next one begins. -/
theorem goes_on (turn : MemoryTracker.Turn es x y) (life : Life)
    (now : life.last = x.bind (·.mapped)) :
    ∃ gone current, life.events ++ es = story gone current ∧
      current.last = y.bind (·.mapped) := by
  obtain ⟨closed, last⟩ := life
  cases turn with
  | rests same =>
      refine ⟨[], ⟨closed, last⟩, by simp [story], ?_⟩
      rw [now]
      cases x <;> cases y <;> simp_all
  | opens device info =>
      exact ⟨[], ⟨closed, last⟩, by simp [story], now⟩
  | @maps m _ _ range may covers =>
      cases now.trans may.unmapped
      exact ⟨[], ⟨closed, some range⟩, by simp [story, events], rfl⟩
  | @unmaps m range held =>
      cases now.trans held
      exact ⟨[], ⟨closed ++ [range], none⟩, by simp [story, events], rfl⟩
  | ends m => exact ⟨[⟨closed, last⟩], ⟨[], none⟩, by simp [story, events], rfl⟩

theorem story_append (gone later : List Life) (current : Life) :
    gone.flatMap (fun life => life.events ++ [.ended]) ++ story later current =
      story (gone ++ later) current := by
  simp [story]

end Life

namespace MemoryOperation

/-- What has been told of a handle so far is a story, and it goes on. -/
theorem history_story (g : Handle) : ∀ (ops : List MemoryOperation) (t : MemoryTracker)
    (life : Life), life.last = (t.objects.find? g).bind (·.mapped) →
    ∃ gone current, life.events ++ history g t ops = Life.story gone current ∧
      current.last = ((after t ops).objects.find? g).bind (·.mapped)
  | [], t, life, now => ⟨[], life, by simp [history, Life.story], now⟩
  | op :: ops, t, life, now => by
      obtain ⟨gone, next, told, last⟩ := Life.goes_on (MemoryTracker.turn op t g) life now
      obtain ⟨later, current, rest, now'⟩ := history_story g ops (op.outcome t) next last
      refine ⟨gone ++ later, current, ?_, now'⟩
      rw [history, ← List.append_assoc, told, ← Life.story_append, ← rest, Life.story,
        List.append_assoc]

end MemoryOperation

namespace MemoryTracker

/-- After every run of operations on the allocations a request to map is granted exactly if the
allocation is live, the host can see it, no range of it is mapped, and the range is not empty,
starts inside and ends there, in exact arithmetic, or goes to the end of the allocation; the
range is then recorded and answered, and otherwise nothing changes.  Every mapped range lies
inside its allocation.  The allocations that have had a handle have been mapped and unmapped by
turns, each time the range that was mapped last. -/
theorem mapping_exactly (ops : List MemoryOperation) :
    let t := MemoryOperation.after empty ops
    (∀ memory offset size, (map memory offset size).Exactly t
      (∃ m, t.objects.find? memory = some m ∧ m.Mappable offset size) (·.isFatal = false)
      fun range u => ∃ m, t.Maps memory offset size range m u) ∧
    (∀ memory, (unmap memory).Exactly t
      (∃ m range, t.objects.find? memory = some m ∧ m.mapped = some range) (·.isFatal = false)
      fun range u => ∃ m, t.Unmaps memory range m u) ∧
    (∀ g m range, t.objects.find? g = some m → m.mapped = some range → m.Backs range) ∧
    ∀ g, ∃ gone current, MemoryOperation.history g empty ops = Life.story gone current ∧
      current.last = (t.objects.find? g).bind (·.mapped) := by
  have backed : (empty : MemoryTracker).Backed := fun g m range hm => by simp [empty] at hm
  refine ⟨maps_exactly _, unmaps_exactly _, backed.after ops, fun g => ?_⟩
  have told := MemoryOperation.history_story g ops empty ⟨[], none⟩ (by simp [empty])
  simpa [Life.events] using told

/-- The largest allocation has `wholeSize` bytes.  Mapping as many from an offset on is asking for
what is left. -/
example : ((map ⟨2, .deviceMemory⟩ 1 wholeSize).on (MemoryOperation.after empty
    [.allocate ⟨2, .deviceMemory⟩ ⟨1, .device⟩
      { size := wholeSize, properties := .hostVisible }])).value =
    .ok ⟨1, 0xfffffffffffffffe⟩ := by
  decide +kernel

end MemoryTracker

end GpuAudit
