import Std.Data.ExtTreeMap
import GpuAudit.Violation

/-!
# Registries

A `Registry kind α` is the owning table of all live objects of one kind: it
maps the value of each live handle to the record of the object.  Records refer
to each other by handle only, so exactly one table decides how long a record
lives.  The table is an extensional map, so two registries with the same records
are equal, and listings are in ascending order of value.

`find?` is the view of a registry: the lemmas say what each operation does to it, and
`ext` that it tells registries apart.
-/

namespace GpuAudit

/-- The live objects of one kind and their records. -/
structure Registry (kind : ObjectKind) (α : Type) where
  /-- The record of each live value. -/
  records : Std.ExtTreeMap UInt64 α

namespace Registry

variable {kind : ObjectKind} {α : Type}

/-- No live object. -/
def empty : Registry kind α := ⟨∅⟩

instance : Inhabited (Registry kind α) := ⟨empty⟩

instance [DecidableEq α] : DecidableEq (Registry kind α) := fun r s =>
  decidable_of_iff (r.records = s.records) ⟨fun h => by cases r; cases s; simp_all, fun h => h ▸ rfl⟩

/-- The record of a handle, if it is live and of this kind. -/
def find? (r : Registry kind α) (h : Handle) : Option α :=
  if h.kind = kind then r.records[h.raw]? else none

/-- Whether a handle is live and of this kind. -/
def contains (r : Registry kind α) (h : Handle) : Bool :=
  h.kind == kind && r.records.contains h.raw

/-- Refuses a handle of another kind. -/
def checkKind (kind : ObjectKind) (h : Handle) : Except Violation Unit :=
  if h.kind = kind then .ok () else .error (.wrongKind h kind)

/-- The record of a live handle. -/
def lookup (r : Registry kind α) (h : Handle) : Except Violation α := do
  checkKind kind h
  match r.records[h.raw]? with
  | some record => .ok record
  | none => .error (.notRegistered h)

/-- Enters the record of a new object.  The handle must be of this kind, name
something, and not be live yet. -/
def register (r : Registry kind α) (h : Handle) (record : α) :
    Except Violation (Registry kind α) := do
  checkKind kind h
  if h.isNull then .error (.invalidObject h "null handle cannot be registered")
  else if r.records.contains h.raw then .error (.alreadyRegistered h)
  else .ok ⟨r.records.insert h.raw record⟩

/-- Strikes out a live object. -/
def unregister (r : Registry kind α) (h : Handle) :
    Except Violation (α × Registry kind α) := do
  let record ← r.lookup h
  .ok (record, ⟨r.records.erase h.raw⟩)

/-- Changes the record of a handle, if it is live and of this kind. -/
def modify (r : Registry kind α) (h : Handle) (change : α → α) : Registry kind α :=
  if h.kind = kind then ⟨r.records.modify h.raw change⟩ else r

/-- The live objects with their records, in ascending order. -/
def entries (r : Registry kind α) : List (Handle × α) :=
  r.records.toList.map fun (raw, record) => (⟨raw, kind⟩, record)

/-- The live handles, in ascending order. -/
def handles (r : Registry kind α) : List Handle :=
  r.records.keys.map fun raw => ⟨raw, kind⟩

/-- Strikes out every object whose record satisfies a condition; the answer lists
what was struck out, in ascending order. -/
def drain (r : Registry kind α) (condition : α → Bool) :
    List (Handle × α) × Registry kind α :=
  (r.entries.filter fun (_, record) => condition record,
    ⟨r.records.filter fun _ record => !condition record⟩)

/-- How many objects are live. -/
def size (r : Registry kind α) : Nat := r.records.size

/-- Whether no object is live. -/
def isEmpty (r : Registry kind α) : Bool := r.records.isEmpty

/-! ## What operations do to the view -/

theorem find?_mk (records : Std.ExtTreeMap UInt64 α) (raw : UInt64) :
    (⟨records⟩ : Registry kind α).find? ⟨raw, kind⟩ = records[raw]? := by
  simp [find?]

@[ext] theorem ext {r s : Registry kind α} (h : ∀ g, r.find? g = s.find? g) : r = s := by
  rcases r with ⟨r⟩
  rcases s with ⟨s⟩
  congr 1
  refine Std.ExtTreeMap.ext_getElem? fun {raw} => ?_
  simpa only [find?_mk] using h ⟨raw, kind⟩

@[simp] theorem find?_empty (g : Handle) : (empty : Registry kind α).find? g = none := by
  simp [find?, empty]

theorem find?_eq_none_of_kind {r : Registry kind α} {g : Handle} (h : g.kind ≠ kind) :
    r.find? g = none := by
  simp [find?, h]

theorem contains_eq_isSome (r : Registry kind α) (g : Handle) :
    r.contains g = (r.find? g).isSome := by
  by_cases h : g.kind = kind <;> simp [contains, find?, h]

theorem lookup_eq_ok_iff {r : Registry kind α} {g : Handle} {record : α} :
    r.lookup g = .ok record ↔ r.find? g = some record := by
  by_cases h : g.kind = kind
  · cases hr : r.records[g.raw]? <;>
      simp [lookup, checkKind, find?, h, hr, bind, Except.bind]
  · simp [lookup, checkKind, find?, h, bind, Except.bind]

/-- What is not live is refused alike in every table of one kind. -/
theorem lookup_of_absent {r s : Registry kind α} {g : Handle}
    (hr : r.find? g = none) (hs : s.find? g = none) :
    ∃ v, r.lookup g = .error v ∧ s.lookup g = .error v := by
  by_cases hk : g.kind = kind
  · refine ⟨.notRegistered g, ?_, ?_⟩
    · simp only [find?, if_pos hk] at hr
      simp [lookup, checkKind, hk, hr, bind, Except.bind]
    · simp only [find?, if_pos hk] at hs
      simp [lookup, checkKind, hk, hs, bind, Except.bind]
  · exact ⟨.wrongKind g kind, by simp [lookup, checkKind, hk, bind, Except.bind],
      by simp [lookup, checkKind, hk, bind, Except.bind]⟩

theorem checkKind_eq_ok_iff {h : Handle} {u : Unit} : checkKind kind h = .ok u ↔ h.kind = kind := by
  by_cases hk : h.kind = kind <;> simp [checkKind, hk]

/-- A record is entered exactly if its handle is of this kind, names something and is
not live yet. -/
theorem register_eq_ok_iff {r s : Registry kind α} {h : Handle} {record : α} :
    r.register h record = .ok s ↔
      h.kind = kind ∧ h.isNull = false ∧ r.find? h = none ∧
        s = ⟨r.records.insert h.raw record⟩ := by
  by_cases hk : h.kind = kind
  · by_cases hn : h.isNull = true
    · simp [register, checkKind, hk, hn, bind, Except.bind]
    · by_cases hr : h.raw ∈ r.records
      · simp [register, checkKind, find?, hk, hn, hr, bind, Except.bind]
      · simpa [register, checkKind, find?, hk, hn, hr, bind, Except.bind] using eq_comm
  · simp [register, checkKind, hk, bind, Except.bind]

theorem find?_register {r s : Registry kind α} {h : Handle} {record : α}
    (hs : r.register h record = .ok s) (g : Handle) :
    s.find? g = if g = h then some record else r.find? g := by
  obtain ⟨rfl, -, -, rfl⟩ := register_eq_ok_iff.mp hs
  rcases g with ⟨raw, k⟩
  rcases h with ⟨raw', k'⟩
  by_cases hk : k = k' <;> by_cases hr : raw = raw' <;>
    simp [find?, Std.ExtTreeMap.getElem?_insert, hk, hr, Ne.symm]

theorem unregister_eq_ok_iff {r s : Registry kind α} {h : Handle} {record : α} :
    r.unregister h = .ok (record, s) ↔
      r.find? h = some record ∧ s = ⟨r.records.erase h.raw⟩ := by
  cases hl : r.lookup h with
  | ok a => simp [unregister, hl, lookup_eq_ok_iff.mp hl, bind, Except.bind, eq_comm]
  | error v =>
      have hf : r.find? h = none := Option.eq_none_iff_forall_ne_some.mpr fun a ha => by
        rw [lookup_eq_ok_iff.mpr ha] at hl
        cases hl
      simp [unregister, hl, hf, bind, Except.bind]

theorem find?_unregister {r s : Registry kind α} {h : Handle} {record : α}
    (hs : r.unregister h = .ok (record, s)) (g : Handle) :
    s.find? g = if g = h then none else r.find? g := by
  obtain ⟨hf, rfl⟩ := unregister_eq_ok_iff.mp hs
  rcases g with ⟨raw, k⟩
  rcases h with ⟨raw', k'⟩
  have hk' : k' = kind := Decidable.byContradiction fun hk' => by
    simp [find?, hk'] at hf
  subst hk'
  by_cases hk : k = k' <;> by_cases hr : raw = raw' <;>
    simp [find?, Std.ExtTreeMap.getElem?_erase, hk, hr, Ne.symm]

@[simp] theorem find?_modify (r : Registry kind α) (h : Handle) (change : α → α) (g : Handle) :
    (r.modify h change).find? g = if g = h then (r.find? g).map change else r.find? g := by
  rcases g with ⟨raw, k⟩
  rcases h with ⟨raw', k'⟩
  by_cases hk' : k' = kind
  · subst hk'
    by_cases hk : k = k' <;> by_cases hr : raw = raw' <;>
      simp [Registry.modify, find?, Std.ExtTreeMap.getElem?_modify, hk, hr, Ne.symm]
  · by_cases hk : k = kind
    · subst hk
      simp [Registry.modify, find?, hk', Ne.symm hk']
    · simp [find?, hk]

end Registry

end GpuAudit
