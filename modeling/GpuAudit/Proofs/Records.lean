import Mathlib.Data.List.Forall2
import GpuAudit.Json.Decode
import GpuAudit.Proofs.Parsing

/-!
# Structures from their members

A structure is written as an object, and a member whose value is the reader's default may
be left out.  A `Field` says what its member is called, how its value may be written and
when it may be left out; `Field.Written fs ms` says that the members `ms` write the
fields `fs` in order.

`Record.Reads r fs a` says that a reader of fields makes `a` of every object that writes
`fs`.  There is one rule for each way to ask for a field (`reads_required`,
`reads_withDefault`, `reads_optional`) and one for each way to go on (`Reads.pure`,
`Reads.bind`, and `Reads.one` to `Reads.four` for what is made of so many things).  A reader
asks by name, so the rules for fields need the names to be different: then a field that is
given is found once, whatever else is left out (`Field.Written.filter_name`).
-/

namespace GpuAudit.Json

open Value (Fits)

variable {α β : Type}

/-! ## Simple data -/

@[simp] theorem word64_nat (n : UInt64) : word64 (.nat n.toNat) = some n := by
  simp [word64, natBelow, n.toNat_lt_size]

@[simp] theorem word32_nat (n : UInt32) : word32 (.nat n.toNat) = some n := by
  simp [word32, natBelow, n.toNat_lt_size]

theorem toNat64_lt (n : UInt64) : n.toNat < UInt64.size := n.toNat_lt_size

theorem toNat32_lt (n : UInt32) : n.toNat < UInt64.size :=
  Nat.lt_trans n.toNat_lt_size (by decide)

@[simp] theorem bool_bool (b : Bool) : bool (.bool b) = some b := rfl

@[simp] theorem string_string (s : String) : string (.string s) = some s := rfl

/-! ## Lists -/

section Lists

variable {as : List α} {vs : List Value} {d : Decoder α} {writes : α → Value → Prop}

/-- Elements that are each read are read as a list. -/
theorem listOf_of_forall₂ (h : List.Forall₂ writes as vs) (hd : ∀ a v, writes a v → d v = some a) :
    listOf d (.array vs) = some as := by
  induction h with
  | nil => rfl
  | cons hv _ ih =>
      rw [listOf] at ih ⊢
      simp [List.mapM_cons, hd _ _ hv, ih]

/-- Elements that each fit make an array one level deeper. -/
theorem fits_of_forall₂ {n : Nat} (h : List.Forall₂ writes as vs)
    (hfits : ∀ a v, writes a v → Fits n v) : Fits (n + 1) (.array vs) := by
  refine .array ?_
  induction h with
  | nil => simp
  | cons hv _ ih => exact List.forall_mem_cons.2 ⟨hfits _ _ hv, ih⟩

/-- Elements that are each written in one of their forms. -/
theorem forall₂_map {write : α → Value} (h : ∀ a, writes a (write a)) (as : List α) :
    List.Forall₂ writes as (as.map write) :=
  List.forall₂_map_right_iff.2 (List.forall₂_same.2 fun a _ => h a)

end Lists

/-! ## Fields -/

/-- How a field is written as a member of an object. -/
structure Field where
  /-- What the member is called. -/
  name : String
  /-- The values that write the field. -/
  shows : Value → Prop
  /-- When the member may be left out. -/
  mayLack : Prop

namespace Field

/-- A field with one written form, which is always there. -/
def fixed (name : String) (v : Value) : Field := ⟨name, (· = v), False⟩

/-- A field with one written form, left out under a condition. -/
def defaulted (name : String) (v : Value) (mayLack : Prop) : Field := ⟨name, (· = v), mayLack⟩

/-- Members that write fields in order. -/
inductive Written : List Field → List (String × Value) → Prop
  | nil : Written [] []
  | given {f : Field} {fs : List Field} {v : Value} {ms : List (String × Value)} (hv : f.shows v)
      (rest : Written fs ms) : Written (f :: fs) ((f.name, v) :: ms)
  | left {f : Field} {fs : List Field} {ms : List (String × Value)} (h : f.mayLack)
      (rest : Written fs ms) : Written (f :: fs) ms

/-- The objects that write fields. -/
def Object (fs : List Field) (v : Value) : Prop := ∃ ms, Written fs ms ∧ v = .object ms

variable {f : Field} {fs : List Field} {ms : List (String × Value)}

/-- Every member writes a field. -/
theorem Written.exists_field (h : Written fs ms) {m : String × Value} (hm : m ∈ ms) :
    ∃ f ∈ fs, f.name = m.1 ∧ f.shows m.2 := by
  induction h with
  | nil => cases hm
  | given hv _ ih =>
      rcases List.mem_cons.1 hm with rfl | hm
      · exact ⟨_, List.mem_cons_self, rfl, hv⟩
      · obtain ⟨f, hf, h⟩ := ih hm
        exact ⟨f, List.mem_cons_of_mem _ hf, h⟩
  | left _ _ ih =>
      obtain ⟨f, hf, h⟩ := ih hm
      exact ⟨f, List.mem_cons_of_mem _ hf, h⟩

/-- No member is called like a field that is not among the fields written. -/
theorem Written.filter_eq_nil (h : Written fs ms) {name : String} (hname : name ∉ fs.map (·.name)) :
    ms.filter (fun m => m.1 = name) = [] := by
  refine List.filter_eq_nil_iff.2 fun m hm heq => hname ?_
  obtain ⟨f, hf, hfm, -⟩ := h.exists_field hm
  rw [← of_decide_eq_true heq, ← hfm]
  exact List.mem_map_of_mem hf

/-- A field is found once under its name, or left out. -/
theorem Written.filter_name (h : Written fs ms) (hnames : (fs.map (·.name)).Nodup) (hf : f ∈ fs) :
    (∃ v, f.shows v ∧ ms.filter (fun m => m.1 = f.name) = [(f.name, v)]) ∨
      (f.mayLack ∧ ms.filter (fun m => m.1 = f.name) = []) := by
  induction h with
  | nil => cases hf
  | @given g fs v ms hv rest ih =>
      obtain ⟨hg, hnames⟩ := List.nodup_cons.1 hnames
      rcases List.mem_cons.1 hf with rfl | hf
      · -- the members after it write fields of other names
        exact .inl ⟨v, hv, by simp [rest.filter_eq_nil hg]⟩
      · have hne : g.name ≠ f.name := fun h => hg (List.mem_map.2 ⟨f, hf, h.symm⟩)
        simpa [hne] using ih hnames hf
  | @left g fs ms hlack rest ih =>
      obtain ⟨hg, hnames⟩ := List.nodup_cons.1 hnames
      rcases List.mem_cons.1 hf with rfl | hf
      · exact .inr ⟨hlack, rest.filter_eq_nil hg⟩
      · exact ih hnames hf

/-- An object fits one level deeper than the written forms of its fields. -/
theorem Object.fits {n : Nat} {v : Value} (h : Object fs v)
    (hfs : ∀ f ∈ fs, ∀ w, f.shows w → Fits n w) : Fits (n + 1) v := by
  obtain ⟨ms, h, rfl⟩ := h
  refine .object fun m hm => ?_
  obtain ⟨f, hf, -, hv⟩ := h.exists_field hm
  exact hfs f hf m.2 hv

end Field

/-! ## Reading fields -/

namespace Record

variable {fs : List Field} {ms : List (String × Value)}

/-- A reader makes one thing of every object that writes the fields. -/
def Reads (r : Record α) (fs : List Field) (a : α) : Prop :=
  ∀ ms, Field.Written fs ms → r.run (.members ms) = some (a, .members ms)

theorem Reads.pure (a : α) : Reads (Pure.pure a) fs a := fun _ _ => rfl

theorem Reads.bind {r : Record α} {k : α → Record β} {a : α} {b : β} (hr : Reads r fs a)
    (hk : Reads (k a) fs b) : Reads (r >>= k) fs b := by
  intro ms hms
  simp [hr ms hms, hk ms hms]

section Makes

variable {β₁ β₂ β₃ β₄ : Type} {r₁ : Record β₁} {r₂ : Record β₂} {r₃ : Record β₃} {r₄ : Record β₄}
  {b₁ : β₁} {b₂ : β₂} {b₃ : β₃} {b₄ : β₄}

theorem Reads.map (f : β₁ → α) (h : Reads r₁ fs b₁) : Reads (f <$> r₁) fs (f b₁) := by
  intro ms hms
  simp [h ms hms]

/-- One thing is made of what is read. -/
theorem Reads.one (f : β₁ → α) (h : Reads r₁ fs b₁) : Reads (do return f (← r₁)) fs (f b₁) :=
  h.bind (.pure _)

theorem Reads.two (f : β₁ → β₂ → α) (h₁ : Reads r₁ fs b₁) (h₂ : Reads r₂ fs b₂) :
    Reads (do return f (← r₁) (← r₂)) fs (f b₁ b₂) :=
  h₁.bind (h₂.one (f b₁))

theorem Reads.three (f : β₁ → β₂ → β₃ → α) (h₁ : Reads r₁ fs b₁) (h₂ : Reads r₂ fs b₂)
    (h₃ : Reads r₃ fs b₃) : Reads (do return f (← r₁) (← r₂) (← r₃)) fs (f b₁ b₂ b₃) :=
  h₁.bind (h₂.two (f b₁) h₃)

theorem Reads.four (f : β₁ → β₂ → β₃ → β₄ → α) (h₁ : Reads r₁ fs b₁) (h₂ : Reads r₂ fs b₂)
    (h₃ : Reads r₃ fs b₃) (h₄ : Reads r₄ fs b₄) :
    Reads (do return f (← r₁) (← r₂) (← r₃) (← r₄)) fs (f b₁ b₂ b₃ b₄) :=
  h₁.bind (h₂.three (f b₁) h₃ h₄)

end Makes

/-- What an object gives for a name. -/
theorem run_next_members (name : String) (ms : List (String × Value)) :
    (next name).run (.members ms) =
      match ms.filter fun m => m.1 = name with
      | [] => some (none, .members ms)
      | [(_, v)] => some (some v, .members ms)
      | _ => none := by
  simp only [next, StateT.run_bind, StateT.run_get, Option.bind_eq_bind, Option.pure_def,
    Option.bind_some]
  generalize ms.filter _ = found
  rcases found with _ | ⟨⟨_, v⟩, _ | ⟨m, rest⟩⟩ <;> rfl

@[simp] theorem run_required (name : String) (d : Decoder α) (ms : List (String × Value)) :
    (required name d).run (.members ms) =
      match ms.filter fun m => m.1 = name with
      | [(_, v)] => (d v).map (·, .members ms)
      | _ => none := by
  rw [required, StateT.run_bind, run_next_members]
  generalize ms.filter _ = found
  rcases found with _ | ⟨⟨_, v⟩, _ | ⟨m, rest⟩⟩
  · rfl
  · simp only [Option.bind_eq_bind, Option.bind_some]
    cases d v <;> rfl
  · rfl

theorem run_withDefault (name : String) (default : α) (d : Decoder α)
    (ms : List (String × Value)) :
    (withDefault name default d).run (.members ms) =
      match ms.filter fun m => m.1 = name with
      | [] => some (default, .members ms)
      | [(_, v)] => (d v).map (·, .members ms)
      | _ => none := by
  rw [withDefault, StateT.run_bind, run_next_members]
  generalize ms.filter _ = found
  rcases found with _ | ⟨⟨_, v⟩, _ | ⟨m, rest⟩⟩
  · rfl
  · simp only [Option.bind_eq_bind, Option.bind_some]
    cases d v <;> rfl
  · rfl

theorem run_optional (name : String) (d : Decoder α) (ms : List (String × Value)) :
    (optional name d).run (.members ms) =
      match ms.filter fun m => m.1 = name with
      | [] => some (none, .members ms)
      | [(_, v)] => (nullable d v).map (·, .members ms)
      | _ => none := by
  rw [optional, StateT.run_bind, run_next_members]
  generalize ms.filter _ = found
  rcases found with _ | ⟨⟨_, v⟩, _ | ⟨m, rest⟩⟩
  · rfl
  · simp only [Option.bind_eq_bind, Option.bind_some]
    cases nullable d v <;> rfl
  · rfl

variable {f : Field} {d : Decoder α} {a : α} {name : String} {v : Value} {p : Prop}

/-- A field that is always there is read from any of its written forms. -/
theorem reads_required (hnames : (fs.map (·.name)).Nodup) (hf : f ∈ fs) (hlack : ¬ f.mayLack)
    (hd : ∀ v, f.shows v → d v = some a) : Reads (required f.name d) fs a := by
  intro ms hms
  rcases hms.filter_name hnames hf with ⟨v, hv, h⟩ | ⟨h, -⟩
  · simp [h, hd v hv]
  · exact absurd h hlack

theorem reads_fixed (hnames : (fs.map (·.name)).Nodup) (hf : .fixed name v ∈ fs)
    (hd : d v = some a) : Reads (required name d) fs a :=
  reads_required (f := .fixed name v) hnames hf id fun _ hv => hv ▸ hd

/-- A field may be left out where it is the default. -/
theorem reads_withDefault {default : α} (hnames : (fs.map (·.name)).Nodup) (hf : f ∈ fs)
    (hlack : f.mayLack → a = default) (hd : ∀ v, f.shows v → d v = some a) :
    Reads (withDefault f.name default d) fs a := by
  intro ms hms
  rcases hms.filter_name hnames hf with ⟨v, hv, h⟩ | ⟨hl, h⟩
  · simp [run_withDefault, h, hd v hv]
  · simp [run_withDefault, h, hlack hl]

theorem reads_defaulted {default : α} (hnames : (fs.map (·.name)).Nodup)
    (hf : .defaulted name v p ∈ fs) (hp : p → a = default) (hd : d v = some a) :
    Reads (withDefault name default d) fs a :=
  reads_withDefault (f := .defaulted name v p) hnames hf hp fun _ hv => hv ▸ hd

/-- A field may be left out where there is nothing. -/
theorem reads_optional {o : Option α} (hnames : (fs.map (·.name)).Nodup) (hf : f ∈ fs)
    (hlack : f.mayLack → o = none) (hd : ∀ v, f.shows v → nullable d v = some o) :
    Reads (optional f.name d) fs o := by
  intro ms hms
  rcases hms.filter_name hnames hf with ⟨v, hv, h⟩ | ⟨hl, h⟩
  · simp [run_optional, h, hd v hv]
  · simp [run_optional, h, hlack hl]

/-- A structure is read from any object that writes its fields. -/
theorem Reads.decode {r : Record α} (hr : Reads r fs a) {v : Value} (hv : Field.Object fs v) :
    r.decode v = some a := by
  obtain ⟨ms, hms, rfl⟩ := hv
  simp [Record.decode, hr ms hms]

end Record

end GpuAudit.Json
