import GpuAudit.Violation

/-!
# Operations that leave notes

An operation reads and changes a state, and leaves *notes* as it goes.  A note
is a line for the log, a warning about a call that may still go on, or a
diagnostic that is delivered.  `Logged σ α` is such an operation with an answer
in `α`.  It always answers; `GpuAudit.Track` has operations that may stop.

`Logged σ` is a lawful monad, so a chain of operations may be regrouped.
-/

namespace GpuAudit

/-! ## Notes -/

/-- How important a line of the log is, most important first. -/
inductive LogLevel
  | error
  | warn
  | info
  | debug
deriving DecidableEq, Repr, Inhabited

/-- Something an operation leaves besides its answer and its state. -/
inductive Note
  /-- A line for the log. -/
  | log (level : LogLevel) (message : String)
  /-- A warning that belongs to the verdict on the call. -/
  | warning (diagnostic : Diagnostic)
  /-- A diagnostic that is delivered to the listener. -/
  | delivery (diagnostic : Diagnostic)
deriving DecidableEq, Repr

/-- The diagnostic of a warning. -/
def Note.warning? : Note → Option Diagnostic
  | .warning d => some d
  | _ => none

/-- The diagnostic of a delivery. -/
def Note.delivery? : Note → Option Diagnostic
  | .delivery d => some d
  | _ => none

/-! ## Operations -/

/-- What an operation leaves. -/
structure Outcome (σ α : Type) where
  /-- Its answer. -/
  value : α
  /-- The state after it. -/
  state : σ
  /-- Its notes, oldest first. -/
  notes : List Note

/-- An operation on a state that leaves notes. -/
def Logged (σ α : Type) : Type := σ → Outcome σ α

namespace Logged

variable {σ τ α β : Type}

/-- Runs an operation on a state. -/
def run (x : Logged σ α) (s : σ) : Outcome σ α := x s

instance : Monad (Logged σ) where
  pure a := fun s => ⟨a, s, []⟩
  bind x f := fun s =>
    let first := x s
    let second := f first.value first.state
    ⟨second.value, second.state, first.notes ++ second.notes⟩

instance : MonadStateOf σ (Logged σ) where
  get := fun s => ⟨s, s, []⟩
  set s := fun _ => ⟨(), s, []⟩
  modifyGet f := fun s => ⟨(f s).1, (f s).2, []⟩

/-- Leaves notes. -/
def leave (notes : List Note) : Logged σ Unit := fun s => ⟨(), s, notes⟩

/-- Runs an operation on a part of a state. -/
def within (get : σ → τ) (set : τ → σ → σ) (x : Logged τ α) : Logged σ α := fun s =>
  let inner := x (get s)
  ⟨inner.value, set inner.state s, inner.notes⟩

@[ext] theorem ext {x y : Logged σ α} (h : ∀ s, x.run s = y.run s) : x = y := funext h

@[simp] theorem run_pure (a : α) (s : σ) : (pure a : Logged σ α).run s = ⟨a, s, []⟩ := rfl

@[simp] theorem run_bind (x : Logged σ α) (f : α → Logged σ β) (s : σ) :
    (x >>= f).run s =
      let first := x.run s
      let second := (f first.value).run first.state
      ⟨second.value, second.state, first.notes ++ second.notes⟩ := rfl

@[simp] theorem run_map (f : α → β) (x : Logged σ α) (s : σ) :
    (f <$> x).run s = ⟨f (x.run s).value, (x.run s).state, (x.run s).notes⟩ := by
  show Outcome.mk (f (x s).value) (x s).state ((x s).notes ++ []) = _
  rw [List.append_nil]
  rfl

theorem bind_assoc' {γ : Type} (x : Logged σ α) (f : α → Logged σ β) (g : β → Logged σ γ) :
    x >>= f >>= g = x >>= fun a => f a >>= g := by
  ext s
  simp [List.append_assoc]

instance : LawfulMonad (Logged σ) :=
  LawfulMonad.mk' _ (fun x => by ext s; simp) (fun a f => by ext s; simp) bind_assoc'

end Logged

end GpuAudit
