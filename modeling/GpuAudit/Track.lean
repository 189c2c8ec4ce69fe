import GpuAudit.Logged

/-!
# Operations that may stop

`Track σ α` is an operation on a state that leaves notes and may stop with a
violation.  What it had changed and noted before it stopped stays: no change is
taken back, so where a rejected call must leave nothing behind, its checks come
first.

Operations on a part of a state run on the whole by `within`.  Each way to make
an operation has a lemma that says what it leaves.
-/

namespace GpuAudit

/-- An operation on a state that leaves notes and may stop with a violation. -/
abbrev Track (σ : Type) := ExceptT Violation (Logged σ)

namespace Track

variable {σ τ α β : Type}

/-- Runs an operation on a state. -/
def on (x : Track σ α) (s : σ) : Outcome σ (Except Violation α) := Logged.run (ExceptT.run x) s

/-- The answer of a rule that changes nothing. -/
def ofExcept (answer : Except Violation α) : Track σ α := ExceptT.mk (pure answer)

/-- Asks the state. -/
def query (question : σ → Except Violation α) : Track σ α := do
  ofExcept (question (← get))

/-- Changes the state, unless the rule for the change refuses. -/
def update (change : σ → Except Violation σ) : Track σ Unit := do
  set (← query change)

/-- Leaves a line in the log. -/
def log (level : LogLevel) (message : String) : Track σ Unit :=
  liftM (Logged.leave [.log level message] : Logged σ Unit)

/-- Leaves a debugging line in the log. -/
def debug (message : String) : Track σ Unit := log .debug message

/-- Leaves a warning about a call that may still go on. -/
def warn (v : Violation) : Track σ Unit :=
  liftM (Logged.leave [.warning v.toWarning] : Logged σ Unit)

/-- Runs an operation on a part of a state. -/
def within (get : σ → τ) (set : τ → σ → σ) (x : Track τ α) : Track σ α :=
  ExceptT.mk (Logged.within get set (ExceptT.run x))

/-- Runs an operation; what stops it is reported as another violation. -/
def restate (x : Track σ α) (f : Violation → Violation) : Track σ α := ExceptT.adapt f x

/-! ## What operations leave -/

@[simp] theorem on_pure (a : α) (s : σ) : (pure a : Track σ α).on s = ⟨.ok a, s, []⟩ := rfl

@[simp] theorem on_throw (v : Violation) (s : σ) :
    (throw v : Track σ α).on s = ⟨.error v, s, []⟩ := rfl

/-- The second operation runs where the first has answered, and its notes follow. -/
theorem on_bind_of_ok {x : Track σ α} {s t : σ} {a : α} {notes : List Note}
    (h : x.on s = ⟨.ok a, t, notes⟩) (f : α → Track σ β) :
    (x >>= f).on s =
      ⟨((f a).on t).value, ((f a).on t).state, notes ++ ((f a).on t).notes⟩ := by
  unfold on at h ⊢
  simp [ExceptT.run_bind, h]

/-- What stops the first operation stops both. -/
theorem on_bind_of_error {x : Track σ α} {s t : σ} {v : Violation} {notes : List Note}
    (h : x.on s = ⟨.error v, t, notes⟩) (f : α → Track σ β) :
    (x >>= f).on s = ⟨.error v, t, notes⟩ := by
  unfold on at h ⊢
  simp [ExceptT.run_bind, h]

@[simp] theorem on_get (s : σ) : (get : Track σ σ).on s = ⟨.ok s, s, []⟩ := rfl

@[simp] theorem on_set (s t : σ) : (set t : Track σ PUnit).on s = ⟨.ok ⟨⟩, t, []⟩ := rfl

@[simp] theorem on_modify (f : σ → σ) (s : σ) :
    (modify f : Track σ PUnit).on s = ⟨.ok ⟨⟩, f s, []⟩ := rfl

@[simp] theorem on_ofExcept (answer : Except Violation α) (s : σ) :
    (ofExcept answer).on s = ⟨answer, s, []⟩ := rfl

@[simp] theorem on_query (question : σ → Except Violation α) (s : σ) :
    (query question).on s = ⟨question s, s, []⟩ := rfl

theorem on_update_of_ok {change : σ → Except Violation σ} {s t : σ} (h : change s = .ok t) :
    (update change).on s = ⟨.ok (), t, []⟩ := by
  rw [update, on_bind_of_ok (by rw [on_query, h])]
  simp

@[simp] theorem on_log (level : LogLevel) (message : String) (s : σ) :
    (log level message).on s = ⟨.ok (), s, [.log level message]⟩ := rfl

@[simp] theorem on_warn (v : Violation) (s : σ) :
    (warn v).on s = ⟨.ok (), s, [.warning v.toWarning]⟩ := rfl

@[simp] theorem on_within (get : σ → τ) (set : τ → σ → σ) (x : Track τ α) (s : σ) :
    (within get set x).on s =
      ⟨(x.on (get s)).value, set (x.on (get s)).state s, (x.on (get s)).notes⟩ := rfl

/-- Only what stops an operation is restated. -/
@[simp] theorem on_restate (x : Track σ α) (f : Violation → Violation) (s : σ) :
    (x.restate f).on s = ⟨(x.on s).value.mapError f, (x.on s).state, (x.on s).notes⟩ :=
  Logged.run_map (Except.mapError f) (ExceptT.run x) s

end Track

end GpuAudit
