import Mathlib.Data.Finmap
import Mathlib.Data.Finset.Sort
import GpuAudit.Proofs.Entering

/-!
# Registries as finite maps

A registry files its records by value alone, and leaves it to each operation to tell kinds and
null handles apart.  Seen from outside it is a finite map whose keys are the handles that can
name an object of its kind (`ObjectMap`): there a handle of another kind, or a null one, is no
key, so it can neither find a record nor change one.

Requests are answered by a registry (`on`) and by a finite map (`onMap`).  The two are `Alike`
whenever the registry `Shows` the records of the map, so every run of requests is answered alike
and the registry shows the map in the end.

A listing is in ascending order whatever order the table is walked in: what is collected on the
way is sorted, and only one list in strictly ascending order has given members
(`eq_of_ascending`).  Likewise the objects that meet a condition may be struck out one after
another as they are come by (`strikeAll`), which is to drain the registry (`drain_walked`).
-/

namespace GpuAudit

variable {kind : ObjectKind} {α : Type}

/-! ## Lists in ascending order -/

section Order

variable {β : Type} {value : β → UInt64} {l s : List β}

/-- Lists in strictly ascending order are told apart by their members. -/
theorem eq_of_ascending (hl : l.Pairwise (value · < value ·)) (hs : s.Pairwise (value · < value ·))
    (same : ∀ b, b ∈ l ↔ b ∈ s) : l = s := by
  have nodup {l : List β} (h : l.Pairwise (value · < value ·)) : l.Nodup :=
    h.imp fun less here => UInt64.ne_of_lt less (congrArg value here)
  exact ((List.perm_ext_iff_of_nodup (nodup hl) (nodup hs)).mpr fun b => same b).eq_of_pairwise
    (fun _ _ _ _ less more => absurd more (UInt64.lt_asymm less)) hl hs

/-- A list whose members have different values is sorted in one way. -/
theorem mergeSort_eq_of_ascending (perm : l.Perm s) (hs : s.Pairwise (value · < value ·)) :
    l.mergeSort (fun a b => value a ≤ value b) = s := by
  have trans : ∀ a b c, decide (value a ≤ value b) = true → decide (value b ≤ value c) = true →
      decide (value a ≤ value c) = true := fun _ _ _ => by simpa using UInt64.le_trans
  have total : ∀ a b, (decide (value a ≤ value b) || decide (value b ≤ value a)) = true :=
    fun a b => by simpa using UInt64.le_total (value a) (value b)
  have sorted : (l.mergeSort fun a b => value a ≤ value b).Pairwise (value · ≤ value ·) := by
    simpa using l.pairwise_mergeSort trans total
  have all := (l.mergeSort_perm fun a b => value a ≤ value b).trans perm
  have distinct : ((l.mergeSort fun a b => value a ≤ value b).map value).Nodup :=
    (all.map value).nodup_iff.mpr (List.pairwise_map.mpr (hs.imp UInt64.ne_of_lt))
  have ascending : (l.mergeSort fun a b => value a ≤ value b).Pairwise (value · < value ·) :=
    sorted.imp₂ (fun _ _ => UInt64.lt_of_le_of_ne)
      (List.pairwise_map.mp (List.nodup_iff_pairwise_ne.mp distinct))
  exact eq_of_ascending ascending hs fun _ => all.mem_iff

end Order

/-! ## Requests -/

/-- What is asked of a registry. -/
inductive RegistryOperation (α : Type)
  | register (h : Handle) (record : α)
  | lookup (h : Handle)
  /-- The record is looked up to be changed. -/
  | change (h : Handle) (f : α → α)
  | unregister (h : Handle)
  | contains (h : Handle)
  | drain (condition : α → Bool)

/-- What a request that is not refused is answered. -/
inductive RegistryAnswer (α : Type)
  | done
  /-- The record that was found, as it was. -/
  | record (record : α)
  | live (live : Bool)
  | struck (struck : List (Handle × α))
deriving DecidableEq

/-! ## Finite maps -/

/-- The handles that can name an object of a kind. -/
abbrev ObjectName (kind : ObjectKind) := { h : Handle // h.Names kind }

/-- The finite maps from such handles to records. -/
abbrev ObjectMap (kind : ObjectKind) (α : Type) := Finmap fun _ : ObjectName kind => α

namespace ObjectName

/-- The order of names is that of their values. -/
def AtMost (a b : ObjectName kind) : Prop := a.1.raw ≤ b.1.raw

theorem eq_of_raw {a b : ObjectName kind} (same : a.1.raw = b.1.raw) : a = b := by
  obtain ⟨⟨raw, k⟩, names⟩ := a
  obtain ⟨⟨raw', k'⟩, names'⟩ := b
  cases names.1
  cases names'.1
  cases same
  rfl

instance : DecidableRel (AtMost : ObjectName kind → ObjectName kind → Prop) :=
  fun a b => inferInstanceAs (Decidable (a.1.raw ≤ b.1.raw))

instance : IsTrans (ObjectName kind) AtMost := ⟨fun _ _ _ => UInt64.le_trans⟩

instance : Std.Antisymm (AtMost : ObjectName kind → ObjectName kind → Prop) :=
  ⟨fun _ _ le ge => eq_of_raw (UInt64.le_antisymm le ge)⟩

instance : Std.Total (AtMost : ObjectName kind → ObjectName kind → Prop) :=
  ⟨fun a b => UInt64.le_total a.1.raw b.1.raw⟩

end ObjectName

namespace ObjectMap

variable {m : ObjectMap kind α} {h : Handle} {record : α}

/-- The record of a handle, if the handle is a key. -/
def find? (m : ObjectMap kind α) (h : Handle) : Option α :=
  if names : h.Names kind then m.lookup ⟨h, names⟩ else none

/-- The keys, in ascending order. -/
def names (m : ObjectMap kind α) : List (ObjectName kind) := m.keys.sort ObjectName.AtMost

/-- The keys with their records, in ascending order. -/
def listing (m : ObjectMap kind α) : List (Handle × α) :=
  m.names.filterMap fun k => (m.lookup k).map (k.1, ·)

/-- The part of a map whose records meet a condition. -/
def part (m : ObjectMap kind α) (condition : α → Bool) : ObjectMap kind α where
  entries := m.entries.filter fun entry => condition entry.2
  nodupKeys := Multiset.nodup_keys.mp <|
    Multiset.nodup_of_le (Multiset.map_le_map (Multiset.filter_le _ _)) m.nodupKeys.nodup_keys

/-- A handle is looked up.  If it is a key, the answer is its record, and the map goes on as it
is told; otherwise the request is refused and the map stays. -/
def visit (m : ObjectMap kind α) (h : Handle) (next : ObjectName kind → α → ObjectMap kind α) :
    Except Violation (RegistryAnswer α) × ObjectMap kind α :=
  if names : h.Names kind then
    match m.lookup ⟨h, names⟩ with
    | some record => (.ok (.record record), next ⟨h, names⟩ record)
    | none => (.error (.notRegistered h), m)
  else (.error (if h.kind = kind then .notRegistered h else .wrongKind h kind), m)

theorem find?_name (m : ObjectMap kind α) (k : ObjectName kind) : m.find? k.1 = m.lookup k :=
  dif_pos k.2

theorem find?_of_not_names (m : ObjectMap kind α) (no : ¬h.Names kind) : m.find? h = none :=
  dif_neg no

/-- The handles with records are keys. -/
theorem find?_eq_some_iff :
    m.find? h = some record ↔ ∃ k : ObjectName kind, m.lookup k = some record ∧ k.1 = h := by
  constructor
  · intro found
    by_cases names : h.Names kind
    · exact ⟨⟨h, names⟩, (m.find?_name ⟨h, names⟩).symm.trans found, rfl⟩
    · rw [m.find?_of_not_names names] at found
      cases found
  · rintro ⟨k, found, rfl⟩
    exact (m.find?_name k).trans found

theorem find?_empty (h : Handle) : (∅ : ObjectMap kind α).find? h = none := by
  unfold find?
  split
  next => exact Finmap.lookup_empty _
  next => rfl

theorem find?_insert (m : ObjectMap kind α) (k : ObjectName kind) (record : α) (g : Handle) :
    ObjectMap.find? (m.insert k record) g = if g = k.1 then some record else m.find? g := by
  unfold find?
  split
  next names =>
    split
    next here =>
      cases here
      exact Finmap.lookup_insert _
    next apart => exact Finmap.lookup_insert_of_ne _ fun here => apart (congrArg Subtype.val here)
  next no => exact (if_neg fun here : g = k.1 => no (here ▸ k.2)).symm

theorem find?_erase (m : ObjectMap kind α) (k : ObjectName kind) (g : Handle) :
    ObjectMap.find? (m.erase k) g = if g = k.1 then none else m.find? g := by
  unfold find?
  split
  next names =>
    split
    next here =>
      cases here
      exact Finmap.lookup_erase _ _
    next apart => exact Finmap.lookup_erase_ne fun here => apart (congrArg Subtype.val here)
  next => exact (ite_self none).symm

theorem find?_part (m : ObjectMap kind α) (condition : α → Bool) (g : Handle) :
    (m.part condition).find? g = (m.find? g).filter condition := by
  unfold find?
  split
  next names =>
    ext x
    simp only [Finmap.lookup_eq_some_iff, part, Option.filter_eq_some_iff, Multiset.mem_filter]
  next => rfl

theorem visit_refused {next : ObjectName kind → α → ObjectMap kind α} {v : Violation}
    (refused : (m.visit h next).1 = .error v) : (m.visit h next).2 = m := by
  unfold visit at refused ⊢
  by_cases names : h.Names kind
  · rw [dif_pos names] at refused ⊢
    cases found : m.lookup ⟨h, names⟩ with
    | some record =>
        rw [found] at refused
        cases refused
    | none => rfl
  · rw [dif_neg names]

theorem ascending_names (m : ObjectMap kind α) : m.names.Pairwise (·.1.raw < ·.1.raw) :=
  (m.keys.pairwise_sort ObjectName.AtMost).imp₂
    (fun _ _ le ne => UInt64.lt_of_le_of_ne le fun same => ne (ObjectName.eq_of_raw same))
    (m.keys.sort_nodup ObjectName.AtMost)

theorem ascending_listing (m : ObjectMap kind α) : m.listing.Pairwise (·.1.raw < ·.1.raw) := by
  refine m.ascending_names.filterMap _ fun a b less e he f hf => ?_
  obtain ⟨x, -, rfl⟩ := Option.map_eq_some_iff.mp he
  obtain ⟨y, -, rfl⟩ := Option.map_eq_some_iff.mp hf
  exact less

theorem mem_listing : (h, record) ∈ m.listing ↔ m.find? h = some record := by
  unfold listing names
  rw [List.mem_filterMap, find?_eq_some_iff]
  constructor
  · rintro ⟨k, -, hk⟩
    obtain ⟨x, found, here⟩ := Option.map_eq_some_iff.mp hk
    cases here
    exact ⟨k, found, rfl⟩
  · rintro ⟨k, found, rfl⟩
    have key : k ∈ m.keys := Finmap.mem_keys.mpr (Finmap.mem_of_lookup_eq_some found)
    exact ⟨k, (Finset.mem_sort _).mpr key, by rw [found]; rfl⟩

/-- A handle is a key exactly if it has a record. -/
theorem isKey_iff : (∃ k ∈ m, k.1 = h) ↔ ∃ record, m.find? h = some record := by
  constructor
  · rintro ⟨k, key, here⟩
    obtain ⟨record, found⟩ := Finmap.mem_iff.mp key
    exact ⟨record, find?_eq_some_iff.mpr ⟨k, found, here⟩⟩
  · rintro ⟨record, found⟩
    obtain ⟨k, found, here⟩ := find?_eq_some_iff.mp found
    exact ⟨k, Finmap.mem_of_lookup_eq_some found, here⟩

end ObjectMap

/-! ## Answers -/

namespace RegistryOperation

/-- The handle that a request names. -/
def handle? : RegistryOperation α → Option Handle
  | register h _ | lookup h | change h _ | unregister h | contains h => some h
  | drain _ => none

/-- The answer of a registry, and what it is then. -/
def on (r : Registry kind α) :
    RegistryOperation α → Except Violation (RegistryAnswer α) × Registry kind α
  | register h record =>
      match r.register h record with
      | .ok s => (.ok .done, s)
      | .error v => (.error v, r)
  | lookup h => ((r.lookup h).map .record, r)
  | change h f => ((r.lookup h).map .record, r.modify h f)
  | unregister h =>
      match r.unregister h with
      | .ok (record, s) => (.ok (.record record), s)
      | .error v => (.error v, r)
  | contains h => (.ok (.live (r.contains h)), r)
  | drain condition =>
      let (struck, s) := r.drain condition
      (.ok (.struck struck), s)

/-- The answer of a finite map, and what it is then. -/
def onMap (m : ObjectMap kind α) :
    RegistryOperation α → Except Violation (RegistryAnswer α) × ObjectMap kind α
  | register h record =>
      if names : h.Names kind then
        if ⟨h, names⟩ ∈ m then (.error (.alreadyRegistered h), m)
        else (.ok .done, m.insert ⟨h, names⟩ record)
      else
        (.error (if h.kind = kind then .invalidObject h "null handle cannot be registered"
          else .wrongKind h kind), m)
  | lookup h => m.visit h fun _ _ => m
  | change h f => m.visit h fun k record => m.insert k (f record)
  | unregister h => m.visit h fun k _ => m.erase k
  | contains h => (.ok (.live (m.find? h).isSome), m)
  | drain condition =>
      (.ok (.struck (m.listing.filter fun (_, record) => condition record)),
        m.part fun record => !condition record)

/-- The answers to requests made one after another, and what they lead to. -/
def run {σ β : Type} (answer : σ → RegistryOperation α → β × σ) :
    σ → List (RegistryOperation α) → List β × σ
  | s, [] => ([], s)
  | s, op :: ops =>
      let (b, t) := answer s op
      let (bs, u) := run answer t ops
      (b :: bs, u)

end RegistryOperation

/-! ## What a registry shows -/

namespace Registry

variable {r : Registry kind α} {m : ObjectMap kind α}

/-- A registry has the records of a finite map. -/
def Shows (r : Registry kind α) (m : ObjectMap kind α) : Prop := ∀ h, r.find? h = m.find? h

theorem Shows.entries (shows : r.Shows m) : r.entries = m.listing :=
  eq_of_ascending r.ascending_entries m.ascending_listing fun (h, record) => by
    rw [mem_entries, ObjectMap.mem_listing, shows h]

/-- A map is shown by one registry. -/
theorem Shows.unique {s : Registry kind α} (hr : r.Shows m) (hs : s.Shows m) : r = s :=
  Registry.ext fun g => (hr g).trans (hs g).symm

/-- What is looked up is the record that shows, and the refusal says why there is none. -/
theorem lookup_eq (r : Registry kind α) (h : Handle) : r.lookup h = match r.find? h with
    | some record => .ok record
    | none => .error (if h.kind = kind then .notRegistered h else .wrongKind h kind) := by
  by_cases hk : h.kind = kind
  · cases hr : r.records[h.raw]? <;>
      simp [lookup, checkKind, find?, hk, hr, bind, Except.bind]
  · simp [lookup, checkKind, find?, hk, bind, Except.bind]

/-- A handle that can name no object of the kind is not entered. -/
theorem register_of_not_names (r : Registry kind α) {h : Handle} (record : α)
    (no : ¬h.Names kind) : r.register h record =
      .error (if h.kind = kind then .invalidObject h "null handle cannot be registered"
        else .wrongKind h kind) := by
  by_cases hk : h.kind = kind
  · have hn : h.isNull = true := by
      rw [← Bool.not_eq_false]
      exact fun named => no ⟨hk, named⟩
    simp [register, checkKind, hk, hn, bind, Except.bind]
  · simp [register, checkKind, hk, bind, Except.bind]

/-- A handle that is live already is not entered again. -/
theorem register_of_live {h : Handle} (record : α) (names : h.Names kind)
    (live : r.find? h ≠ none) : r.register h record = .error (.alreadyRegistered h) := by
  have here : h.raw ∈ r.records := by
    rw [find?, if_pos names.1] at live
    exact Std.ExtTreeMap.isSome_getElem?_iff_mem.mp (Option.isSome_iff_ne_none.mpr live)
  simp [register, checkKind, names.1, names.2, here, bind, Except.bind]

/-- An object is looked up to be struck out. -/
theorem on_unregister (r : Registry kind α) (h : Handle) :
    ∃ s, (RegistryOperation.unregister h).on r = ((r.lookup h).map .record, s) ∧
      ∀ g, s.find? g = if g = h then none else r.find? g := by
  simp only [RegistryOperation.on]
  cases found : r.find? h with
  | none =>
      obtain ⟨v, refused, -⟩ := lookup_of_absent found found
      have stays : r.unregister h = .error v := by
        simp [unregister, refused, bind, Except.bind]
      refine ⟨r, by rw [stays, refused]; rfl, fun g => ?_⟩
      split
      next here => rw [here, found]
      next => rfl
  | some record =>
      have struck := unregister_eq_ok_iff.mpr ⟨found, rfl⟩
      rw [struck, lookup_eq_ok_iff.mpr found]
      exact ⟨_, rfl, find?_unregister struck⟩

end Registry

/-! ## Requests are answered alike -/

namespace RegistryOperation

open Registry (Shows)

variable {r : Registry kind α} {m : ObjectMap kind α}

/-- The same answer is given, and what was shown before is shown again. -/
def Alike (a : Except Violation (RegistryAnswer α) × Registry kind α)
    (b : Except Violation (RegistryAnswer α) × ObjectMap kind α) : Prop :=
  a.1 = b.1 ∧ a.2.Shows b.2

/-- A request that looks a handle up is answered alike if both sides do the same with the record
that is found. -/
theorem visit_alike {s : Registry kind α} {h : Handle} {f : α → Option α}
    {next : ObjectName kind → α → ObjectMap kind α} (shows : r.Shows m)
    (view : ∀ g, s.find? g = if g = h then (r.find? g).bind f else r.find? g)
    (goes : ∀ k record g, m.lookup k = some record →
      (next k record).find? g = if g = k.1 then f record else m.find? g) :
    Alike ((r.lookup h).map .record, s) (m.visit h next) := by
  -- Where nothing is found, nothing can change.
  have stays (dead : r.find? h = none) : s.Shows m := by
    intro g
    rw [view, ← shows g]
    split
    next here => rw [here, dead, Option.bind_none]
    next => rfl
  have same := shows h
  rw [Registry.lookup_eq]
  unfold ObjectMap.visit
  by_cases names : h.Names kind
  · rw [m.find?_name ⟨h, names⟩] at same
    rw [dif_pos names]
    cases found : m.lookup ⟨h, names⟩ with
    | some record =>
        rw [same, found]
        refine ⟨rfl, fun g => ?_⟩
        rw [view, goes ⟨h, names⟩ record g found, ← shows g]
        split
        next here => rw [here, same, found, Option.bind_some]
        next => rfl
    | none =>
        rw [same, found, if_pos names.1]
        exact ⟨rfl, stays (same.trans found)⟩
  · rw [m.find?_of_not_names names] at same
    rw [dif_neg names, same]
    exact ⟨rfl, stays same⟩

theorem register_alike (shows : r.Shows m) (h : Handle) (record : α) :
    Alike ((register h record).on r) ((register h record).onMap m) := by
  simp only [Alike, on, onMap]
  by_cases names : h.Names kind
  · have same : r.find? h = m.lookup ⟨h, names⟩ := (shows h).trans (m.find?_name ⟨h, names⟩)
    rw [dif_pos names]
    by_cases key : ⟨h, names⟩ ∈ m
    · have live : r.find? h ≠ none := fun dead =>
        Finmap.lookup_eq_none.mp (same.symm.trans dead) key
      rw [Registry.register_of_live record names live, if_pos key]
      exact ⟨rfl, shows⟩
    · have admits : r.Admits h := ⟨names, same.trans (Finmap.lookup_eq_none.mpr key)⟩
      obtain ⟨s, entered, view⟩ := admits.registers record
      rw [entered, if_neg key]
      refine ⟨rfl, fun g => ?_⟩
      rw [view, ObjectMap.find?_insert, shows g]
  · rw [r.register_of_not_names record names, dif_neg names]
    exact ⟨rfl, shows⟩

/-- A registry that shows a finite map answers as the map does, and shows it then. -/
theorem alike (shows : r.Shows m) : ∀ op : RegistryOperation α, Alike (op.on r) (op.onMap m)
  | register h record => register_alike shows h record
  | lookup h => by
      refine visit_alike (f := some) shows (fun g => ?_) fun k record g found => ?_
      · rw [Option.bind_fun_some, ite_self]
      · split
        next here => rw [here, m.find?_name, found]
        next => rfl
  | change h f => by
      refine visit_alike (f := some ∘ f) shows (fun g => ?_) fun k record g _ => ?_
      · rw [Registry.find?_modify, Option.map_eq_bind]
      · exact m.find?_insert k (f record) g
  | unregister h => by
      obtain ⟨s, answer, view⟩ := r.on_unregister h
      rw [answer]
      refine visit_alike (f := fun _ => none) shows (fun g => ?_) fun k record g _ => ?_
      · rw [view, Option.bind_fun_none]
      · exact m.find?_erase k g
  | contains h => by
      refine ⟨?_, shows⟩
      show Except.ok (RegistryAnswer.live (r.contains h)) = .ok (.live (m.find? h).isSome)
      rw [Registry.contains_eq_isSome, shows h]
  | drain condition => by
      refine ⟨?_, fun g => ?_⟩
      · show Except.ok (RegistryAnswer.struck (r.entries.filter _)) = _
        rw [shows.entries]
        rfl
      · show (r.drain condition).2.find? g = _
        rw [Registry.find?_drain, shows g]
        exact (m.find?_part _ g).symm

/-- So is a whole run of requests. -/
theorem run_alike (ops : List (RegistryOperation α)) (shows : r.Shows m) :
    (run on r ops).1 = (run onMap m ops).1 ∧ (run on r ops).2.Shows (run onMap m ops).2 := by
  induction ops generalizing r m with
  | nil => exact ⟨rfl, shows⟩
  | cons op ops ih =>
      obtain ⟨answer, next⟩ := alike shows op
      obtain ⟨answers, last⟩ := ih next
      exact ⟨congrArg₂ List.cons answer answers, last⟩

/-- A finite map stays as it is when it refuses a request. -/
theorem onMap_refused {op : RegistryOperation α} {v : Violation}
    (refused : (op.onMap m).1 = .error v) : (op.onMap m).2 = m := by
  cases op with
  | register h record =>
      simp only [onMap] at refused ⊢
      by_cases names : h.Names kind
      · rw [dif_pos names] at refused ⊢
        by_cases key : ⟨h, names⟩ ∈ m
        · rw [if_pos key]
        · rw [if_neg key] at refused
          cases refused
      · rw [dif_neg names]
  | lookup h | change h f | unregister h => exact ObjectMap.visit_refused refused
  | contains h => cases refused
  | drain condition => cases refused

/-- A handle that is no key of a finite map is not found, and leaves the map as it is. -/
theorem onMap_foreign {op : RegistryOperation α} {h : Handle} (about : op.handle? = some h)
    (no : ¬h.Names kind) :
    (op.onMap m).2 = m ∧ ((op.onMap m).1 = .ok (.live false) ∨ ∃ v, (op.onMap m).1 = .error v) := by
  cases op with
  | drain condition => cases about
  | contains h =>
      cases about
      refine ⟨rfl, .inl ?_⟩
      show Except.ok (RegistryAnswer.live (m.find? h).isSome) = _
      rw [m.find?_of_not_names no]
      rfl
  | register h record | lookup h | change h f | unregister h =>
      cases about
      simp only [onMap, ObjectMap.visit, dif_neg no, true_and]
      exact .inr ⟨_, rfl⟩

end RegistryOperation

/-! ## Walks -/

namespace Registry

variable {r : Registry kind α} {m : ObjectMap kind α} {walk : List (Handle × α)}

/-- Strikes out objects one after another, and lists those that were live. -/
def strikeAll (r : Registry kind α) : List Handle → List (Handle × α) × Registry kind α
  | [] => ([], r)
  | h :: hs =>
      match r.unregister h with
      | .ok (record, rest) =>
          let (struck, rest) := rest.strikeAll hs
          ((h, record) :: struck, rest)
      | .error _ => r.strikeAll hs

/-- Different live objects are all struck out, and nothing else is. -/
theorem strikeAll_live {es : List (Handle × α)} (distinct : (es.map (·.1)).Nodup)
    (live : ∀ h record, (h, record) ∈ es → r.find? h = some record) :
    (r.strikeAll (es.map (·.1))).1 = es ∧ ∀ g, (r.strikeAll (es.map (·.1))).2.find? g =
      if g ∈ es.map (·.1) then none else r.find? g := by
  induction es generalizing r with
  | nil => simp [strikeAll]
  | cons e es ih =>
      obtain ⟨h, record⟩ := e
      obtain ⟨new, distinct⟩ := List.nodup_cons.mp distinct
      have found := live h record List.mem_cons_self
      obtain ⟨s, struck⟩ : ∃ s, r.unregister h = .ok (record, s) :=
        ⟨_, unregister_eq_ok_iff.mpr ⟨found, rfl⟩⟩
      have others := find?_unregister struck
      have later : ∀ g x, (g, x) ∈ es → s.find? g = some x := by
        intro g x hx
        rw [others, if_neg, live g x (List.mem_cons_of_mem _ hx)]
        rintro rfl
        exact new (List.mem_map_of_mem (f := (·.1)) hx)
      obtain ⟨listed, rest⟩ := ih distinct later
      simp only [List.map_cons, strikeAll, struck, listed, rest, others, true_and, List.mem_cons]
      intro g
      by_cases here : g = h
      · simp [here]
      · rw [if_neg here]
        exact if_congr (or_iff_right here).symm rfl rfl

/-- To drain a registry is to walk it in any order, to strike out what meets the condition, and
to sort what was struck out. -/
theorem drain_walked (all : walk.Perm r.entries) (condition : α → Bool) :
    let struck := r.strikeAll ((walk.filter fun e => condition e.2).map (·.1))
    (struck.1.mergeSort fun e f => e.1.raw ≤ f.1.raw, struck.2) = r.drain condition := by
  have met := all.filter fun e => condition e.2
  have found : ∀ h record, (h, record) ∈ walk.filter (fun e => condition e.2) ↔
      r.find? h = some record ∧ condition record = true := fun h record =>
    met.mem_iff.trans mem_drain
  have goes : ∀ g, g ∈ (walk.filter fun e => condition e.2).map (·.1) ↔
      ∃ record, r.find? g = some record ∧ condition record = true := by
    intro g
    rw [List.mem_map]
    constructor
    · rintro ⟨⟨h, record⟩, he, rfl⟩
      exact ⟨record, (found h record).mp he⟩
    · rintro ⟨record, meets⟩
      exact ⟨(g, record), (found g record).mpr meets, rfl⟩
  have distinct : ((walk.filter fun e => condition e.2).map (·.1)).Nodup :=
    (met.map _).nodup_iff.mpr (List.pairwise_map.mpr (r.pairwise_entries.filter _))
  obtain ⟨listed, rest⟩ := strikeAll_live distinct fun h record he => ((found h record).mp he).1
  refine Prod.ext ?_ (Registry.ext fun g => ?_)
  · show List.mergeSort _ _ = _
    rw [listed]
    exact mergeSort_eq_of_ascending met (r.ascending_entries.filter _)
  · show find? _ g = _
    rw [rest, find?_drain]
    cases hf : r.find? g with
    | none => rw [ite_self, Option.filter_none]
    | some x =>
        rw [Option.filter_some]
        by_cases meets : condition x = true <;> simp [goes, hf, meets]

theorem handles_eq (r : Registry kind α) : r.handles = r.entries.map (·.1) := by
  unfold handles entries
  rw [← Std.ExtTreeMap.map_fst_toList_eq_keys, List.map_map, List.map_map]
  rfl

/-- The handles are a listing of the keys, counted and in ascending order. -/
structure ListsKeys (r : Registry kind α) (m : ObjectMap kind α) : Prop where
  /-- It has exactly the keys. -/
  keys : ∀ h, h ∈ r.handles ↔ ∃ k ∈ m, k.1 = h
  /-- Each value is larger than those before. -/
  ascending : r.handles.Pairwise (·.raw < ·.raw)
  /-- There are as many as live objects. -/
  counted : r.size = r.handles.length
  /-- It is what a walk in any order finds, sorted. -/
  walked : ∀ walk : List (Handle × α), walk.Perm r.entries →
    (walk.map (·.1)).mergeSort (fun g h => g.raw ≤ h.raw) = r.handles

theorem Shows.listsKeys (shows : r.Shows m) : r.ListsKeys m := by
  have ascending : r.handles.Pairwise (·.raw < ·.raw) := by
    rw [handles_eq]
    exact List.pairwise_map.mpr r.ascending_entries
  refine ⟨fun h => ?_, ascending, ?_, fun walk all => ?_⟩
  · rw [ObjectMap.isKey_iff, ← shows h, handles_eq, List.mem_map]
    exact ⟨fun ⟨(_, record), he, here⟩ => ⟨record, here ▸ mem_entries.mp he⟩,
      fun ⟨record, found⟩ => ⟨(h, record), mem_entries.mpr found, rfl⟩⟩
  · rw [handles, List.length_map, Std.ExtTreeMap.length_keys]
    rfl
  · exact mergeSort_eq_of_ascending (by rw [handles_eq]; exact all.map _) ascending

/-- What is drained is what meets the condition. -/
structure Drains (r : Registry kind α) (m : ObjectMap kind α) (condition : α → Bool) : Prop where
  /-- Exactly the objects whose records meet it are struck out. -/
  struck : ∀ h record, (h, record) ∈ (r.drain condition).1 ↔
    m.find? h = some record ∧ condition record = true
  /-- They are listed by value, each larger than those before. -/
  ascending : (r.drain condition).1.Pairwise (·.1.raw < ·.1.raw)
  /-- Exactly the others stay. -/
  others : ∀ h, (r.drain condition).2.find? h = (m.find? h).filter fun record => !condition record
  /-- So it is if a walk in any order strikes them out one after another. -/
  walked : ∀ walk : List (Handle × α), walk.Perm r.entries →
    let struck := r.strikeAll ((walk.filter fun e => condition e.2).map (·.1))
    (struck.1.mergeSort fun e f => e.1.raw ≤ f.1.raw, struck.2) = r.drain condition

theorem Shows.drains (shows : r.Shows m) (condition : α → Bool) : r.Drains m condition where
  struck h record := by rw [mem_drain, shows h]
  ascending := r.ascending_entries.filter _
  others h := by rw [find?_drain, shows h]
  walked _ all := drain_walked all condition

/-- A request has no effect where it has no success. -/
structure Withstands (r : Registry kind α) (op : RegistryOperation α) : Prop where
  /-- What is refused changes nothing. -/
  refused : ∀ v, (op.on r).1 = .error v → (op.on r).2 = r
  /-- What is about a null handle, or one of another kind, finds nothing and changes nothing. -/
  foreign : ∀ h, op.handle? = some h → ¬h.Names kind → (op.on r).2 = r ∧
    ((op.on r).1 = .ok (.live false) ∨ ∃ v, (op.on r).1 = .error v)

theorem Shows.withstands (shows : r.Shows m) (op : RegistryOperation α) : r.Withstands op := by
  obtain ⟨answer, next⟩ := RegistryOperation.alike shows op
  refine ⟨fun v refused => ?_, fun h about no => ?_⟩
  · rw [RegistryOperation.onMap_refused (answer.symm.trans refused)] at next
    exact next.unique shows
  · obtain ⟨stays, fails⟩ := RegistryOperation.onMap_foreign (m := m) about no
    rw [stays] at next
    exact ⟨next.unique shows, answer ▸ fails⟩

open RegistryOperation (run on onMap)

/-- Requests made to a new registry are answered as a finite map answers them that has for keys
the handles that can name an object of the kind.  Whatever was asked, the registry then has the
records of the map and lists its keys.  What is refused, or is about a handle that is no key,
changes nothing, and on a condition exactly the objects that meet it are struck out, listed in
ascending order, whatever the order in which the table is walked. -/
theorem refines_finiteMap (kind : ObjectKind) (ops : List (RegistryOperation α)) :
    let real := run on (empty : Registry kind α) ops
    let ideal := run onMap (∅ : ObjectMap kind α) ops
    real.1 = ideal.1 ∧ real.2.Shows ideal.2 ∧ real.2.ListsKeys ideal.2 ∧
      (∀ op, real.2.Withstands op) ∧ ∀ condition, real.2.Drains ideal.2 condition := by
  have start : (empty : Registry kind α).Shows ∅ := fun h => by
    rw [find?_empty, ObjectMap.find?_empty]
  obtain ⟨answers, shows⟩ := RegistryOperation.run_alike ops start
  exact ⟨answers, shows, shows.listsKeys, shows.withstands, shows.drains⟩

/-- An image may have the value of a buffer, and is still no buffer. -/
example : (run on (empty : Registry .buffer Nat)
    [.register ⟨5, .buffer⟩ 50, .change ⟨5, .image⟩ (· + 1), .register ⟨2, .buffer⟩ 20,
      .unregister ⟨5, .image⟩, .drain (0 < ·)]).1 =
    [.ok .done, .error (.wrongKind ⟨5, .image⟩ .buffer), .ok .done,
      .error (.wrongKind ⟨5, .image⟩ .buffer),
      .ok (.struck [(⟨2, .buffer⟩, 20), (⟨5, .buffer⟩, 50)])] := by
  decide +kernel

end Registry

end GpuAudit
