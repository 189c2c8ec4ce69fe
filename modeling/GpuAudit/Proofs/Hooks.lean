import GpuAudit.Layer
import GpuAudit.Proofs.Validation

/-!
# What the hooks leave

Each hook runs operations on the books of a session and ends with a conclusion,
which changes no books: it may only halt the session.  The equations say what state
each step of a hook leaves.
-/

namespace GpuAudit

@[simp] theorem Logged.run_get {σ : Type} (s : σ) :
    (get : Logged σ σ).run s = ⟨s, s, []⟩ := rfl

theorem Logged.run_modify {σ : Type} (f : σ → σ) (s : σ) :
    (modify f : Logged σ PUnit).run s = ⟨⟨⟩, f s, []⟩ := rfl

theorem Logged.run_leave {σ : Type} (notes : List Note) (s : σ) :
    (leave notes : Logged σ Unit).run s = ⟨(), s, notes⟩ := rfl

theorem Logged.run_discard {σ α : Type} (x : Logged σ α) (s : σ) :
    Logged.run (discard x) s = ⟨⟨⟩, (x.run s).state, (x.run s).notes⟩ :=
  Logged.run_map (fun _ => PUnit.unit) x s

namespace Layer

variable {l : Layer} {device : Handle} {session : Session}

/-- The layer with other books in a session. -/
def put (l : Layer) (device : Handle) (session : Session) (t : Trackers) : Layer :=
  { l with sessions := l.sessions.insert device { session with trackers := t } }

/-- The layer with a session halted. -/
def stopped (l : Layer) (device : Handle) : Layer :=
  { l with sessions := l.sessions.modify device fun session => { session with halted := true } }

section RunOn

variable {α : Type} (x : Track Trackers α) (l : Layer)

@[simp] theorem runOn_value : ((runOn device session x).run l).value =
    ((x.on session.trackers).value,
      (x.on session.trackers).notes.filterMap (·.warning?)) := rfl

@[simp] theorem runOn_state : ((runOn device session x).run l).state =
    l.put device session (x.on session.trackers).state := rfl

end RunOn

/-! ## Conclusions -/

/-- The layer after a conclusion: a session is halted after an internal error, if that
is chosen. -/
def concluded (l : Layer) (device : Handle) (outcome : Except Violation Unit) : Layer :=
  match outcome with
  | .ok () => l
  | .error v =>
      if v.isFatal && l.config.validation.haltOnInternalError then l.stopped device else l

theorem conclude_state (device : Handle) (outcome : Except Violation Unit)
    (warnings : List Diagnostic) :
    ((conclude (some device) outcome warnings).run l).state = l.concluded device outcome := by
  cases outcome with
  | ok u => exact rfl
  | error v =>
      unfold conclude concluded
      simp only [Logged.run_bind, Logged.run_get]
      by_cases stops : (v.isFatal && l.config.validation.haltOnInternalError) = true
      · simp only [stops, if_true]
        rfl
      · simp only [stops]
        rfl

theorem conclude_none_state (outcome : Except Violation Unit) (warnings : List Diagnostic) :
    ((conclude none outcome warnings).run l).state = l := by
  cases outcome with
  | ok u => exact rfl
  | error v =>
      unfold conclude
      simp only [Logged.run_bind, Logged.run_get]
      by_cases stops : (v.isFatal && l.config.validation.haltOnInternalError) = true
      · simp only [stops, if_true]
        rfl
      · simp only [stops]
        rfl

/-- Only an internal error halts a session. -/
theorem concluded_eq {outcome : Except Violation Unit}
    (h : ∀ v, outcome = .error v → v.isFatal = false) : l.concluded device outcome = l := by
  cases outcome with
  | ok u => rfl
  | error v =>
      have stays : ¬(v.isFatal && l.config.validation.haltOnInternalError) = true := by
        rw [h v rfl]
        exact Bool.false_ne_true
      exact if_neg stays

/-! ## Retirements -/

/-- The layer after one retirement. -/
def afterRetirement (l : Layer) (r : Retirement) : Layer :=
  match l.owningSession r.queue with
  | .error _ => l
  | .ok (device, session) =>
      if session.halted then l
      else
        let o := (Trackers.retireUpTo r).on session.trackers
        (l.put device session o.state).concluded device (o.value.map fun _ => ())

theorem applyRetirement_state (l : Layer) (r : Retirement) :
    ((applyRetirement r).run l).state = l.afterRetirement r := by
  unfold afterRetirement applyRetirement
  simp only [Logged.run_bind, Logged.run_get]
  cases l.owningSession r.queue with
  | error v => exact conclude_none_state _ _
  | ok found =>
      obtain ⟨device, session⟩ := found
      by_cases halted : session.halted = true
      · simp only [if_pos halted]
        rfl
      · simp only [if_neg halted]
        exact conclude_state device _ _

theorem retireUpTo_state (l : Layer) (r : Retirement) :
    ((retireUpTo r).run l).state = l.afterRetirement r := by
  unfold afterRetirement retireUpTo
  simp only [Logged.run_bind, Logged.run_get]
  cases l.owningSession r.queue with
  | error v => rfl
  | ok found =>
      obtain ⟨device, session⟩ := found
      by_cases halted : session.halted = true
      · simp only [if_pos halted]
        rfl
      · simp only [if_neg halted, Logged.run_bind, runOn_value, runOn_state]
        cases ((Trackers.retireUpTo r).on session.trackers).value with
        | ok batches => rfl
        | error v => exact Eq.trans rfl (conclude_state device (.error v) [])

/-- The layer after every reported retirement. -/
def drained (l : Layer) : Layer := l.pending.foldl afterRetirement { l with pending := [] }

theorem foldRetirements_state : ∀ (rs : List Retirement) (v : Verdict) (l : Layer),
    ((rs.foldlM (fun v r => return v.merge (← applyRetirement r)) v : Logged Layer Verdict).run
      l).state = rs.foldl afterRetirement l
  | [], _, _ => rfl
  | r :: rs, v, l => by
      rw [List.foldlM_cons, List.foldl_cons, Logged.run_bind]
      show Outcome.state (Logged.run (rs.foldlM _ _) ((applyRetirement r).run l).state) = _
      rw [foldRetirements_state rs, applyRetirement_state]

theorem processCompletions_state (l : Layer) : (processCompletions.run l).state = l.drained :=
  foldRetirements_state l.pending Verdict.pass _

/-! ## Calls -/

/-- The owners after a call that gives up handles, if it was accepted. -/
def givenUp (owners : Owners) (released : Except Violation (List Handle)) : Owners :=
  match released with
  | .ok released => released.foldl (·.erase ·) owners
  | .error _ => owners

/-- The owners after a device has gained handles by a call, if it was entered. -/
def gainedBy (owners : Owners) (device : Handle) (gained : Except Violation (List Handle)) :
    Owners :=
  match gained with
  | .ok gained => gained.foldl (·.insert · device) owners
  | .error _ => owners

theorem getElem?_givenUp {owners : Owners} {released : Except Violation (List Handle)}
    {g d : Handle} : (givenUp owners released)[g]? = some d ↔
      owners[g]? = some d ∧ ∀ gone, released = .ok gone → g ∉ gone := by
  cases released with
  | error v => exact ⟨fun h => ⟨h, fun _ he => nomatch he⟩, And.left⟩
  | ok gone =>
      show (gone.foldl (·.erase ·) owners)[g]? = some d ↔ _
      rw [Handle.getElem?_eraseAll]
      split
      next given => exact ⟨fun h => (nomatch h), fun h => absurd given (h.2 gone rfl)⟩
      next kept => exact ⟨fun h => ⟨h, fun _ he => Except.ok.inj he ▸ kept⟩, And.left⟩

theorem getElem?_gainedBy_iff {owners : Owners} {gained : Except Violation (List Handle)}
    {g d : Handle} : (gainedBy owners device gained)[g]? = some d ↔
      (d = device ∧ ∃ new, gained = .ok new ∧ g ∈ new) ∨
        owners[g]? = some d ∧ ∀ new, gained = .ok new → g ∉ new := by
  cases gained with
  | error v =>
      refine ⟨fun h => .inr ⟨h, fun _ he => nomatch he⟩, fun h => ?_⟩
      exact h.elim (fun made => nomatch made.2.choose_spec.1) And.left
  | ok new =>
      show (new.foldl (·.insert · device) owners)[g]? = some d ↔ _
      rw [Handle.getElem?_insertAll]
      split
      next found =>
        refine ⟨fun h => .inl ⟨(Option.some.inj h).symm, new, rfl, found⟩, fun h => ?_⟩
        exact h.elim (fun made => made.1 ▸ rfl) fun old => absurd found (old.2 new rfl)
      next missing =>
        refine ⟨fun h => .inr ⟨h, fun _ he => Except.ok.inj he ▸ missing⟩, fun h => ?_⟩
        rcases h with ⟨-, _, he, hg⟩ | ⟨h, -⟩
        · cases he
          exact absurd hg missing
        · exact h

theorem getElem?_gainedBy {owners : Owners} {gained : Except Violation (List Handle)}
    {g d : Handle} (h : (gainedBy owners device gained)[g]? = some d) :
    owners[g]? = some d ∨ d = device ∧ ∃ new, gained = .ok new ∧ g ∈ new :=
  (getElem?_gainedBy_iff.mp h).elim .inr fun old => .inl old.1

/-- The layer after a call has been validated. -/
def afterValidation (l : Layer) (call : Call) : Layer :=
  match l.sessionFor call with
  | .error _ => l
  | .ok (device, session) =>
      if session.halted then l
      else
        let o := (Trackers.validate l.owners device call).on session.trackers
        concluded { l.put device session o.state with owners := givenUp l.owners o.value } device
          (o.value.map fun _ => ())

theorem validateCall_state (l : Layer) (call : Call) :
    ((validateCall call).run l).state = l.afterValidation call := by
  unfold afterValidation validateCall
  simp only [Logged.run_bind, Logged.run_get]
  cases l.sessionFor call with
  | error v => exact conclude_none_state _ _
  | ok found =>
      obtain ⟨device, session⟩ := found
      by_cases halted : session.halted = true
      · simp only [if_pos halted]
        rfl
      · simp only [if_neg halted]
        cases ho : ((Trackers.validate l.owners device call).on session.trackers).value with
        | ok released =>
            simp only [Logged.run_bind, runOn_value, ho]
            exact Eq.trans rfl (conclude_state device (.ok ()) _)
        | error v =>
            simp only [Logged.run_bind, runOn_value, ho]
            exact Eq.trans rfl (conclude_state device (.error v) _)

theorem afterValidation_error {call : Call} {v : Violation} (h : l.sessionFor call = .error v) :
    l.afterValidation call = l := by
  unfold afterValidation
  rw [h]

theorem afterValidation_halted {call : Call} (h : l.sessionFor call = .ok (device, session))
    (halted : session.halted = true) : l.afterValidation call = l := by
  unfold afterValidation
  rw [h]
  exact if_pos halted

theorem afterValidation_running {call : Call} (h : l.sessionFor call = .ok (device, session))
    (running : ¬session.halted = true) :
    l.afterValidation call =
      let o := (Trackers.validate l.owners device call).on session.trackers
      concluded { l.put device session o.state with owners := givenUp l.owners o.value } device
        (o.value.map fun _ => ()) := by
  unfold afterValidation
  rw [h]
  exact if_neg running

/-- The layer after the end of a device. -/
def afterDestroy (l : Layer) (device : Handle) : Layer :=
  match l.sessions[device]? with
  | none => l
  | some _ => { l with
      sessions := l.sessions.erase device
      owners := l.owners.filter fun _ owner => owner ≠ device }

theorem destroyDevice_state (l : Layer) (device : Handle) :
    ((destroyDevice device).run l).state = l.afterDestroy device := by
  unfold afterDestroy destroyDevice deviceSession
  simp only [Logged.run_bind, Logged.run_get]
  cases l.sessions[device]? with
  | none => exact conclude_none_state _ _
  | some session =>
      by_cases halted : session.halted = true
      · simp only [if_pos halted]
        rfl
      · simp only [if_neg halted]
        rfl

/-- What the hook before a call does about the call itself. -/
def own (call : Call) : Logged Layer Verdict :=
  match call with
  | .createDevice device => do conclude none ((← get).checkNewDevice device) []
  | .destroyDevice device => destroyDevice device
  | _ => validateCall call

/-- The layer after what the hook before a call does about the call itself. -/
def afterOwn (l : Layer) (call : Call) : Layer :=
  match call with
  | .createDevice _ => l
  | .destroyDevice device => l.afterDestroy device
  | _ => l.afterValidation call

theorem own_state (l : Layer) (call : Call) : ((own call).run l).state = l.afterOwn call := by
  cases call with
  | createDevice device => exact Eq.trans rfl (conclude_none_state (l.checkNewDevice device) [])
  | destroyDevice device => exact destroyDevice_state l device
  | _ => exact validateCall_state l _

theorem preCall_eq (call : Call) : preCall call = do
    let earlier ← processCompletions
    let own ← own call
    return earlier.merge own := by
  cases call <;> rfl

theorem preCall_state (l : Layer) (call : Call) :
    ((preCall call).run l).state = l.drained.afterOwn call := by
  rw [preCall_eq]
  show ((own call).run (processCompletions.run l).state).state = _
  rw [processCompletions_state, own_state]

/-- The layer after the records of a successful call have been entered. -/
def afterRecord (l : Layer) (call : Call) : Layer :=
  match l.sessionFor call with
  | .error _ => l
  | .ok (device, session) =>
      if session.halted then l
      else
        let o := (Trackers.recordCreation device call).on session.trackers
        let entered := concluded
          { l.put device session o.state with owners := gainedBy l.owners device o.value } device
          (o.value.map fun _ => ())
        drained { entered with
          pending := entered.pending ++ session.trackers.impliedRetirements call }

theorem afterRecord_error {call : Call} {v : Violation} (h : l.sessionFor call = .error v) :
    l.afterRecord call = l := by
  unfold afterRecord
  rw [h]

theorem afterRecord_halted {call : Call} (h : l.sessionFor call = .ok (device, session))
    (halted : session.halted = true) : l.afterRecord call = l := by
  unfold afterRecord
  rw [h]
  exact if_pos halted

theorem afterRecord_running {call : Call} (h : l.sessionFor call = .ok (device, session))
    (running : ¬session.halted = true) :
    l.afterRecord call =
      let o := (Trackers.recordCreation device call).on session.trackers
      let entered := concluded
        { l.put device session o.state with owners := gainedBy l.owners device o.value } device
        (o.value.map fun _ => ())
      drained { entered with
        pending := entered.pending ++ session.trackers.impliedRetirements call } := by
  unfold afterRecord
  rw [h]
  exact if_neg running

theorem recordCall_state (l : Layer) (call : Call) :
    ((recordCall call).run l).state = l.afterRecord call := by
  unfold afterRecord recordCall
  simp only [Logged.run_bind, Logged.run_get]
  cases l.sessionFor call with
  | error v => exact conclude_none_state _ _
  | ok found =>
      obtain ⟨device, session⟩ := found
      by_cases halted : session.halted = true
      · simp only [if_pos halted]
        rfl
      · simp only [if_neg halted, Logged.run_bind, runOn_value, runOn_state]
        cases ((Trackers.recordCreation device call).on session.trackers).value with
        | ok gained =>
            rw [← processCompletions_state]
            rfl
        | error v =>
            have stops : ∀ k : Layer, k.concluded device (Except.map (fun _ => ()) (.error v :
                Except Violation (List Handle))) =
                ((conclude (some device) (.error v) []).run k).state := fun k =>
              (conclude_state device (.error v) []).symm
            rw [stops, ← processCompletions_state]
            rfl

/-- The layer after a device has been created. -/
def afterCreate (l : Layer) (device : Handle) : Layer :=
  if (l.checkNewDevice device).isOk then l.put device ⟨.empty, false⟩ .empty else l

theorem createDevice_state (l : Layer) (device : Handle) :
    ((createDevice device).run l).state = l.afterCreate device := by
  unfold afterCreate createDevice
  simp only [Logged.run_bind, Logged.run_get]
  by_cases new : (l.checkNewDevice device).isOk = true
  · simp only [new, if_true]
    rfl
  · simp only [new]
    rfl

/-- The layer after the driver has answered. -/
def afterAnswer (l : Layer) (call : Call) (result : CallResult) : Layer :=
  match result, call with
  | .success, .createDevice device => l.afterCreate device
  | .success, .destroyDevice _ => l
  | .success, _ => l.afterRecord call
  | _, _ => l

theorem postCall_state (l : Layer) (call : Call) (result : CallResult) :
    ((postCall call result).run l).state = l.afterAnswer call result := by
  cases result with
  | success =>
      cases call with
      | createDevice device => exact createDevice_state l device
      | destroyDevice device => rfl
      | _ => exact recordCall_state l _
  | notReady => rfl
  | failure => rfl

theorem fenceStatus_state (l : Layer) (device fence : Handle) :
    ((fenceStatus device fence).run l).state = l.drained := by
  unfold fenceStatus
  simp only [Logged.run_bind]
  rw [← processCompletions_state]
  split
  · rfl
  · rfl

end Layer

end GpuAudit
