import Mathlib.Data.List.Nodup
import GpuAudit.Proofs.Listings
import GpuAudit.Proofs.Refusals

/-!
# Entering records

A record is entered under a handle that is of its kind, names something and is not live
(`Admits`).  A list of records is entered one after another, so the entry of a list may
have `Stopped`: what is listed before the first handle that cannot be entered is live
then.  Such an entry has changed nothing exactly if that handle is the first of all.
-/

namespace GpuAudit

/-- A handle can name an object of a kind. -/
def Handle.Names (h : Handle) (kind : ObjectKind) : Prop := h.kind = kind ∧ h.isNull = false

instance (h : Handle) (kind : ObjectKind) : Decidable (h.Names kind) :=
  inferInstanceAs (Decidable (_ ∧ _))

namespace Registry

variable {kind : ObjectKind} {α σ : Type} {view : σ → Registry kind α}
  {put : σ → Registry kind α → σ} {record : α} {h : Handle} {s : σ}

/-- A handle can be entered: it can name an object of this kind, and is not live. -/
def Admits (r : Registry kind α) (h : Handle) : Prop := h.Names kind ∧ r.find? h = none

/-- A list of handles can be entered one after another. -/
def AdmitsAll (r : Registry kind α) (hs : List Handle) : Prop :=
  hs.Nodup ∧ ∀ h ∈ hs, r.Admits h

/-- A handle that can be entered is registered. -/
theorem Admits.registers {r : Registry kind α} (admits : r.Admits h) (record : α) :
    ∃ r', r.register h record = .ok r' ∧
      ∀ g, r'.find? g = if g = h then some record else r.find? g := by
  obtain ⟨⟨kind, named⟩, new⟩ := admits
  have registered : r.register h record = .ok ⟨r.records.insert h.raw record⟩ :=
    register_eq_ok_iff.mpr ⟨kind, named, new, rfl⟩
  exact ⟨_, registered, find?_register registered⟩

/-- A record is entered, or its handle cannot be. -/
theorem enter_ends :
    (Track.update fun s => (view s).register h record >>= fun r => pure (put s r)).Ends s
      (fun _ u => (view s).Admits h ∧ ∃ r, u = put s r ∧
        ∀ g, r.find? g = if g = h then some record else (view s).find? g)
      fun v u => v.toDiagnostic.severity = .error ∧ ¬(view s).Admits h ∧ u = s := by
  rw [Track.ends_update_bind]
  constructor
  · intro r hr
    obtain ⟨kind, named, new, -⟩ := register_eq_ok_iff.mp hr
    exact ⟨⟨⟨kind, named⟩, new⟩, r, rfl, find?_register hr⟩
  · intro v hv
    refine ⟨strict_register h record v hv, fun admits => ?_, rfl⟩
    obtain ⟨r, hr, -⟩ := admits.registers record
    rw [hr] at hv
    cases hv

/-- The records of a list have been entered. -/
def Entered (r : Registry kind α) (record : α) (hs : List Handle) (r' : Registry kind α) : Prop :=
  ∀ g, r'.find? g = if g ∈ hs then some record else r.find? g

/-- The entry of a list has stopped: what is listed before a handle that cannot be entered
has been entered, and nothing else. -/
def Stopped (r : Registry kind α) (record : α) (hs : List Handle) (r' : Registry kind α) : Prop :=
  ∃ front h back, hs = front ++ h :: back ∧ r.AdmitsAll front ∧ ¬r.AdmitsAll (front ++ [h]) ∧
    r.Entered record front r'

theorem AdmitsAll.front {r : Registry kind α} {front back : List Handle}
    (all : r.AdmitsAll (front ++ back)) : r.AdmitsAll front :=
  ⟨(List.nodup_append.mp all.1).1, fun h hh => all.2 h (List.mem_append_left _ hh)⟩

theorem Stopped.not_admitsAll {r r' : Registry kind α} {hs : List Handle}
    (stopped : r.Stopped record hs r') : ¬r.AdmitsAll hs := by
  obtain ⟨front, h, back, rfl, -, fails, -⟩ := stopped
  intro all
  rw [List.append_cons] at all
  exact fails all.front

/-- A stopped entry has changed nothing exactly if already the first handle cannot be
entered. -/
theorem Stopped.eq_iff {r r' : Registry kind α} {hs : List Handle}
    (stopped : r.Stopped record hs r') : r' = r ↔ ∀ h, hs.head? = some h → ¬r.Admits h := by
  obtain ⟨front, h, back, rfl, admitted, fails, entered⟩ := stopped
  cases front with
  | nil =>
      refine iff_of_true (Registry.ext fun g => by simpa using entered g) fun k hk admits => ?_
      cases hk
      exact fails ⟨List.nodup_singleton h, List.forall_mem_singleton.mpr admits⟩
  | cons k front =>
      have admits : r.Admits k := admitted.2 k List.mem_cons_self
      refine iff_of_false (fun same => ?_) fun first => first k rfl admits
      have live := entered k
      rw [if_pos List.mem_cons_self, same, admits.2] at live
      cases live

/-- A list of records is entered one after another, up to the first that cannot be. -/
theorem enterAll_ends (view : σ → Registry kind α) (put : σ → Registry kind α → σ)
    (same : put s (view s) = s) (get : ∀ s r, view (put s r) = r)
    (again : ∀ s r r', put (put s r) r' = put s r') (hs : List Handle) :
    (hs.forM fun h => Track.update fun s =>
        (view s).register h record >>= fun r => pure (put s r)).Ends s
      (fun _ u => (view s).AdmitsAll hs ∧ ∃ r, u = put s r ∧ (view s).Entered record hs r)
      fun v u => v.toDiagnostic.severity = .error ∧
        ∃ r, u = put s r ∧ (view s).Stopped record hs r := by
  refine Track.Ends.forM (fun front u => (view s).AdmitsAll front ∧ ∃ r, u = put s r ∧
      (view s).Entered record front r)
    ⟨⟨List.nodup_nil, by simp⟩, view s, same.symm, fun g => by simp⟩ fun front h back u parts hu => ?_
  obtain ⟨⟨distinct, admitted⟩, r, rfl, entered⟩ := hu
  refine enter_ends.mono (fun _ u hu => ?_) fun v u hv => ?_
  · obtain ⟨⟨names, new⟩, r', rfl, view'⟩ := hu
    rw [get, entered] at new
    have later : h ∉ front := fun here => by
      rw [if_pos here] at new
      cases new
    rw [if_neg later] at new
    refine ⟨⟨?_, fun k hk => ?_⟩, r', again s r r', fun g => ?_⟩
    · exact List.nodup_append.mpr ⟨distinct, List.nodup_singleton h, fun k hk j hj => by
        rintro rfl
        exact later (List.mem_singleton.mp hj ▸ hk)⟩
    · rcases List.mem_append.mp hk with hk | hk
      · exact admitted k hk
      · exact List.mem_singleton.mp hk ▸ ⟨names, new⟩
    · rw [view', get, entered]
      by_cases here : g = h
      · simp [here]
      · simp [here]
  · obtain ⟨error, fails, rfl⟩ := hv
    refine ⟨error, r, rfl, front, h, back, parts, ⟨distinct, admitted⟩, fun all => fails ?_,
      entered⟩
    -- By its turn a handle is not live, since none is listed twice.
    obtain ⟨names, new⟩ := all.2 h (by simp)
    exact ⟨names, by rw [get, entered, if_neg (Track.not_mem_front all.1), new]⟩

end Registry

end GpuAudit
