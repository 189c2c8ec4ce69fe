import GpuAudit.Text.Hex

/-!
# Object handles

A client names every object by a *handle*: an opaque 64-bit value together with
the kind of the object.  Two objects of different kinds may share a value, so
identity is the pair.

Handles are ordered by value and then by kind, in the order in which
`ObjectKind` lists them.  The order is lawful, so handles can be keys of sorted
maps and members of sorted sets.
-/

namespace GpuAudit

/-! ## Kinds -/

/-- The kinds of object a client can name. -/
inductive ObjectKind
  | device
  | deviceMemory
  | buffer
  | image
  | commandBuffer
  | commandPool
  | queue
  | fence
  | semaphore
  | swapchain
deriving DecidableEq, Repr, Inhabited

namespace ObjectKind

/-- The word for a kind in messages. -/
def name : ObjectKind → String
  | device => "device"
  | deviceMemory => "memory"
  | buffer => "buffer"
  | image => "image"
  | commandBuffer => "command buffer"
  | commandPool => "command pool"
  | queue => "queue"
  | fence => "fence"
  | semaphore => "semaphore"
  | swapchain => "swapchain"

/-- The place of a kind in the order of kinds. -/
def rank : ObjectKind → Nat
  | device => 0
  | deviceMemory => 1
  | buffer => 2
  | image => 3
  | commandBuffer => 4
  | commandPool => 5
  | queue => 6
  | fence => 7
  | semaphore => 8
  | swapchain => 9

theorem rank_inj {j k : ObjectKind} : j.rank = k.rank ↔ j = k :=
  ⟨fun h => by cases j <;> cases k <;> simp_all [rank], fun h => h ▸ rfl⟩

instance : ToString ObjectKind := ⟨name⟩

end ObjectKind

/-! ## Handles -/

/-- A client-visible object: its value and its kind. -/
structure Handle where
  /-- The opaque value. -/
  raw : UInt64
  /-- The kind of the object. -/
  kind : ObjectKind
deriving DecidableEq, Repr, Inhabited

namespace Handle

/-- The handle of a kind that names no object. -/
def null (kind : ObjectKind) : Handle := ⟨0, kind⟩

/-- Whether a handle names no object. -/
def isNull (h : Handle) : Bool := h.raw == 0

/-- A handle in messages: its kind and its value in hexadecimal. -/
def name (h : Handle) : String := h.kind.name ++ " " ++ Text.hex h.raw.toNat

instance : ToString Handle := ⟨name⟩

/-- Handles separated by commas, as messages list them. -/
def names (hs : List Handle) : String := ", ".intercalate (hs.map name)

/-! ## Order -/

/-- By value, then by kind. -/
instance : Ord Handle :=
  ⟨compareLex (compareOn raw) (compareOn fun h => h.kind.rank)⟩

instance : Std.TransOrd Handle :=
  inferInstanceAs (Std.TransCmp (compareLex (compareOn raw) (compareOn fun h => h.kind.rank)))

instance : Std.LawfulEqOrd Handle where
  eq_of_compare {a b} h := by
    obtain ⟨hr, hk⟩ := Ordering.then_eq_eq.1 h
    have hraw : a.raw = b.raw := Std.LawfulEqOrd.eq_of_compare hr
    have hkind : a.kind = b.kind := ObjectKind.rank_inj.1 (Std.LawfulEqOrd.eq_of_compare hk)
    cases a
    cases b
    simp_all

/-- Handles in ascending order, repeats kept. -/
def sort (hs : List Handle) : List Handle :=
  hs.mergeSort fun a b => (compare a b).isLE

/-! ## Tests -/

example : name ⟨0xab, .commandBuffer⟩ = "command buffer 0xab" := by decide +kernel
example : name (null .deviceMemory) = "memory 0x0" := by decide +kernel
/-- The value counts first, and the kind only between equal values. -/
example : compare (⟨1, .queue⟩ : Handle) ⟨2, .device⟩ = .lt := by decide
example : compare (⟨1, .queue⟩ : Handle) ⟨1, .buffer⟩ = .gt := by decide

end Handle

end GpuAudit
