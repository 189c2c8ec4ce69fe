import Std.Data.ExtTreeSet
import GpuAudit.Registry

/-!
# Sets and listings of handles

The order of handles is lawful, so a handle is in a set after an insertion or a
removal exactly as one expects, and the listing of a set names no handle twice.
The listing of a registry has exactly the records of its view.
-/

namespace GpuAudit

namespace Handle

variable {s : Std.ExtTreeSet Handle} {g h : Handle}

theorem mem_insert : g ∈ s.insert h ↔ g = h ∨ g ∈ s := by
  rw [Std.ExtTreeSet.mem_insert, Std.LawfulEqOrd.compare_eq_iff_eq, eq_comm]

theorem mem_erase : g ∈ s.erase h ↔ g ≠ h ∧ g ∈ s := by
  rw [Std.ExtTreeSet.mem_erase, Ne, Std.LawfulEqOrd.compare_eq_iff_eq, eq_comm]

theorem mem_insertMany {hs : List Handle} : g ∈ s.insertMany hs ↔ g ∈ s ∨ g ∈ hs := by
  rw [Std.ExtTreeSet.mem_insertMany_list, List.contains_iff_mem]

theorem mem_eraseAll {hs : List Handle} : g ∈ hs.foldl (·.erase ·) s ↔ g ∈ s ∧ g ∉ hs := by
  induction hs generalizing s with
  | nil => simp
  | cons h hs ih =>
      rw [List.foldl_cons, ih, mem_erase, List.mem_cons, not_or]
      exact ⟨fun ⟨⟨apart, old⟩, other⟩ => ⟨old, apart, other⟩,
        fun ⟨old, apart, other⟩ => ⟨⟨apart, old⟩, other⟩⟩

theorem mem_ofList {hs : List Handle} : g ∈ Std.ExtTreeSet.ofList hs compare ↔ g ∈ hs := by
  rw [Std.ExtTreeSet.mem_ofList, List.contains_iff_mem]

theorem size_insert (new : h ∉ s) : (s.insert h).size = s.size + 1 := by
  rw [Std.ExtTreeSet.size_insert, if_neg (by simpa using new)]

theorem size_erase (old : h ∈ s) : (s.erase h).size = s.size - 1 := by
  rw [Std.ExtTreeSet.size_erase, if_pos (by simpa using old)]

theorem size_pos (old : h ∈ s) : 0 < s.size := by
  refine Nat.pos_of_ne_zero fun hs => ?_
  have he := Std.ExtTreeSet.eq_empty_iff_size_eq_zero.mpr hs
  rw [he] at old
  exact Std.ExtTreeSet.not_mem_empty old

theorem nodup_toList (s : Std.ExtTreeSet Handle) : s.toList.Nodup :=
  s.distinct_toList.imp fun hne he => hne (Std.LawfulEqOrd.compare_eq_iff_eq.mpr he)

/-! ## Maps -/

section Maps

variable {α : Type} (m : Std.ExtTreeMap Handle α) (h g : Handle)

theorem getElem?_insert (x : α) : (m.insert h x)[g]? = if g = h then some x else m[g]? := by
  rw [Std.ExtTreeMap.getElem?_insert]
  by_cases he : g = h
  · simp [he]
  · simp [he, Ne.symm he]

theorem getElem?_erase : (m.erase h)[g]? = if g = h then none else m[g]? := by
  rw [Std.ExtTreeMap.getElem?_erase]
  by_cases he : g = h
  · simp [he]
  · simp [he, Ne.symm he]

theorem getElem?_modify (f : α → α) :
    (m.modify h f)[g]? = if g = h then m[g]?.map f else m[g]? := by
  rw [Std.ExtTreeMap.getElem?_modify]
  by_cases he : g = h
  · simp [he]
  · simp [he, Ne.symm he]

end Maps

theorem getElem?_eraseAll {α : Type} (g : Handle) : ∀ (hs : List Handle)
    (m : Std.ExtTreeMap Handle α), (hs.foldl (·.erase ·) m)[g]? = if g ∈ hs then none else m[g]?
  | [], m => by simp
  | h :: hs, m => by
      rw [List.foldl_cons, getElem?_eraseAll g hs, getElem?_erase]
      by_cases hg : g = h <;> simp [hg]

theorem getElem?_insertAll {α : Type} (g : Handle) (x : α) : ∀ (hs : List Handle)
    (m : Std.ExtTreeMap Handle α),
    (hs.foldl (·.insert · x) m)[g]? = if g ∈ hs then some x else m[g]?
  | [], m => by simp
  | h :: hs, m => by
      rw [List.foldl_cons, getElem?_insertAll g x hs, getElem?_insert]
      by_cases hg : g = h <;> simp [hg]

end Handle

/-- Only handles of its kind are live in a registry. -/
theorem Registry.kind_of_find {kind : ObjectKind} {α : Type} {r : Registry kind α} {h : Handle}
    {record : α} (hf : r.find? h = some record) : h.kind = kind := by
  refine Decidable.byContradiction fun hk => ?_
  rw [find?_eq_none_of_kind hk] at hf
  cases hf

/-- What is live after one record has changed is that record or one of the others. -/
theorem Registry.found_after_modify {kind : ObjectKind} {α : Type} {r : Registry kind α}
    {f : α → α} {g h : Handle} {x y : α} (hx : r.find? h = some x)
    (hy : (r.modify h f).find? g = some y) : g = h ∧ y = f x ∨ g ≠ h ∧ r.find? g = some y := by
  rw [find?_modify] at hy
  split at hy
  next he =>
    rw [he, hx, Option.map_some] at hy
    cases hy
    exact .inl ⟨he, rfl⟩
  next he => exact .inr ⟨he, hy⟩

/-- Of two changes of a record the second one follows the first. -/
theorem Registry.modify_modify {kind : ObjectKind} {α : Type} (r : Registry kind α) (h : Handle)
    (f g : α → α) : (r.modify h f).modify h g = r.modify h (g ∘ f) := by
  refine Registry.ext fun k => ?_
  simp only [find?_modify]
  split
  next => simp
  next => rfl

/-- The listing of a registry names the live objects with their records. -/
theorem Registry.mem_entries {kind : ObjectKind} {α : Type} {r : Registry kind α} {h : Handle}
    {record : α} : (h, record) ∈ r.entries ↔ r.find? h = some record := by
  unfold entries find?
  rw [List.mem_map]
  constructor
  · rintro ⟨⟨raw, x⟩, hx, he⟩
    cases he
    rw [if_pos rfl]
    exact Std.ExtTreeMap.mem_toList_iff_getElem?_eq_some.mp hx
  · intro hf
    split at hf
    next hk =>
      refine ⟨(h.raw, record), Std.ExtTreeMap.mem_toList_iff_getElem?_eq_some.mpr hf, ?_⟩
      cases h
      cases hk
      rfl
    next _ => cases hf

/-- The listing of a registry names no handle twice. -/
theorem Registry.pairwise_entries {kind : ObjectKind} {α : Type} (r : Registry kind α) :
    r.entries.Pairwise (·.1 ≠ ·.1) := by
  unfold entries
  refine List.pairwise_map.mpr (Std.ExtTreeMap.distinct_keys_toList.imp fun apart same => apart ?_)
  rw [(Handle.mk.inj same).1]
  exact Std.ReflCmp.compare_self

/-- The listing of a registry is in ascending order. -/
theorem Registry.ascending_entries {kind : ObjectKind} {α : Type} (r : Registry kind α) :
    r.entries.Pairwise (·.1.raw < ·.1.raw) := by
  unfold entries
  have ordered := Std.ExtTreeMap.ordered_keys_toList (t := r.records)
  exact List.pairwise_map.mpr (ordered.imp fun less => compareOfLessAndEq_eq_lt.mp less)

/-- What is struck out on a condition is what meets it. -/
theorem Registry.mem_drain {kind : ObjectKind} {α : Type} {r : Registry kind α}
    {condition : α → Bool} {h : Handle} {record : α} : (h, record) ∈ (r.drain condition).1 ↔
      r.find? h = some record ∧ condition record = true := by
  unfold drain
  rw [List.mem_filter, mem_entries]

/-- The other objects stay. -/
theorem Registry.find?_drain {kind : ObjectKind} {α : Type} (r : Registry kind α)
    (condition : α → Bool) (g : Handle) :
    (r.drain condition).2.find? g = (r.find? g).filter fun record => !condition record := by
  unfold drain find?
  split
  next => exact Std.ExtTreeMap.getElem?_filter'
  next => rfl

/-- What is decidable of every record is decidable of all live objects. -/
instance Registry.decidableForall {kind : ObjectKind} {α : Type} (r : Registry kind α)
    (p : Handle → α → Prop) [∀ h record, Decidable (p h record)] :
    Decidable (∀ h record, r.find? h = some record → p h record) :=
  decidable_of_iff (∀ entry ∈ r.entries, p entry.1 entry.2)
    ⟨fun all h record hf => all (h, record) (mem_entries.mpr hf),
      fun all _ he => all _ _ (mem_entries.mp he)⟩

end GpuAudit
