import GpuAudit.Proofs.Queries
import GpuAudit.Proofs.Suppression

/-!
# Halted sessions

A session that is halted is `Frozen`: as long as its device is not destroyed no hook
changes it, what is reported for its queues is dropped, and its calls find nothing.

Sessions are halted by internal errors and by nothing else.  `raised` lists what the
operations that a hook runs on sessions raise, each with the device of its session: the
retirements that were reported, what the call is about, and the retirements that it
implies.  The internal errors among these are those that the answer of the hook reports,
and the sessions on which they were raised are halted, if that is chosen.
-/

namespace GpuAudit

namespace Layer

variable {l k : Layer} {device : Handle} {session : Session} {call : Call} {r : Retirement}

/-! ## Nothing changes a halted session -/

section Halted

variable {d : Handle} {s : Session}

/-- An operation on a session that goes on leaves the halted ones. -/
theorem keeps_ran {α : Type} {owners : Owners} {o : Outcome Trackers (Except Violation α)}
    (hs : l.sessions[d]? = some s) (halted : s.halted = true)
    (found : l.sessions[device]? = some session) (running : ¬session.halted = true) :
    (l.ran owners device session o).sessions[d]? = some s := by
  rw [getElem?_ran, if_neg fun here => ?_, hs]
  rw [← here, hs] at found
  cases found
  exact running halted

theorem keeps_afterRetirement (hs : l.sessions[d]? = some s) (halted : s.halted = true)
    (r : Retirement) : (l.afterRetirement r).sessions[d]? = some s := by
  rcases l.afterRetirement_cases r with same | ⟨device, session, found, running, ran⟩
  · rw [same, hs]
  · rw [ran]
    exact keeps_ran hs halted (owningSession_eq_ok_iff.mp found).2 running

theorem keeps_afterRetirements (hs : l.sessions[d]? = some s) (halted : s.halted = true)
    (rs : List Retirement) : (rs.foldl afterRetirement l).sessions[d]? = some s := by
  induction rs generalizing l with
  | nil => exact hs
  | cons r rs ih => exact ih (keeps_afterRetirement hs halted r)

theorem keeps_drained (hs : l.sessions[d]? = some s) (halted : s.halted = true) :
    l.drained.sessions[d]? = some s :=
  keeps_afterRetirements (l := { l with pending := [] }) hs halted l.pending

theorem keeps_afterValidation (hs : l.sessions[d]? = some s) (halted : s.halted = true)
    (call : Call) : (l.afterValidation call).sessions[d]? = some s := by
  rcases l.afterValidation_cases call with same | ⟨device, session, found, running, ran⟩
  · rw [same, hs]
  · rw [ran]
    exact keeps_ran hs halted (session_of_call found).1 running

theorem keeps_afterRecord (hs : l.sessions[d]? = some s) (halted : s.halted = true)
    (call : Call) : (l.afterRecord call).sessions[d]? = some s := by
  rcases l.afterRecord_cases call with same | ⟨device, session, found, running, ran⟩
  · rw [same, hs]
  · rw [ran]
    refine keeps_drained ?_ halted
    exact keeps_ran hs halted (session_of_call found).1 running

/-- One hook leaves a halted session, unless it destroys its device. -/
theorem keeps_step (hs : l.sessions[d]? = some s) (halted : s.halted = true) {hook : Hook}
    (stays : hook ≠ .pre (.destroyDevice d)) : (l.step hook).sessions[d]? = some s := by
  rw [step_eq]
  cases hook with
  | pre call =>
      have drained := keeps_drained hs halted
      cases call with
      | createDevice => exact drained
      | destroyDevice g =>
          have other : d ≠ g := fun here => stays (here ▸ rfl)
          exact (getElem?_afterDestroy ..).trans ((if_neg other).trans drained)
      | _ => exact keeps_afterValidation drained halted _
  | post call result =>
      show (l.afterAnswer call result).sessions[d]? = some s
      unfold afterAnswer
      split
      · exact getElem?_afterCreate hs
      · exact hs
      · exact keeps_afterRecord hs halted call
      · exact hs
  | report completion => exact hs
  | process => exact keeps_drained hs halted
  | retire r => exact keeps_afterRetirement hs halted r
  | fenceStatus => exact keeps_drained hs halted

theorem keeps_run (hs : l.sessions[d]? = some s) (halted : s.halted = true) {hooks : List Hook}
    (stays : ∀ hook ∈ hooks, hook ≠ .pre (.destroyDevice d)) :
    (l.run hooks).sessions[d]? = some s := by
  induction hooks generalizing l with
  | nil => exact hs
  | cons hook hooks ih =>
      obtain ⟨first, rest⟩ := List.forall_mem_cons.mp stays
      exact ih (keeps_step hs halted first) rest

/-- The calls of a halted session stay its calls while retirements are applied. -/
theorem sessionFor_drained (halted : s.halted = true) (h : l.sessionFor call = .ok (d, s)) :
    l.drained.sessionFor call = .ok (d, s) := by
  have drained := keeps_drained (session_of_call h).1 halted
  unfold sessionFor at h ⊢
  cases hc : call.scope with
  | device g =>
      rw [hc] at h
      exact deviceSession_eq_ok_iff.mpr ⟨(deviceSession_eq_ok_iff.mp h).1, drained⟩
  | owner object =>
      rw [hc] at h
      refine owningSession_eq_ok_iff.mpr ⟨?_, drained⟩
      rw [owners_drained]
      exact (owningSession_eq_ok_iff.mp h).1

end Halted

/-! ## Nothing is found on a halted session -/

theorem applyRetirement_halted (found : l.owningSession r.queue = .ok (device, session))
    (halted : session.halted = true) : (applyRetirement r).run l = ⟨.pass, l, []⟩ := by
  unfold applyRetirement
  simp only [Logged.run_bind, Logged.run_get, found, if_pos halted]
  rfl

theorem retireUpTo_halted (found : l.owningSession r.queue = .ok (device, session))
    (halted : session.halted = true) : (retireUpTo r).run l = ⟨.ok [], l, []⟩ := by
  unfold retireUpTo
  simp only [Logged.run_bind, Logged.run_get, found, if_pos halted]
  rfl

theorem recordCall_halted (found : l.sessionFor call = .ok (device, session))
    (halted : session.halted = true) : (recordCall call).run l = ⟨.pass, l, []⟩ := by
  unfold recordCall
  simp only [Logged.run_bind, Logged.run_get, found, if_pos halted]
  rfl

theorem run_retireAll_cons (r : Retirement) (rs : List Retirement) (v : Verdict) (l : Layer) :
    (retireAll (r :: rs) v).run l =
      let first := (applyRetirement r).run l
      let rest := (retireAll rs (v.merge first.value)).run first.state
      ⟨rest.value, rest.state, first.notes ++ rest.notes⟩ := by
  unfold retireAll
  rw [List.foldlM_cons]
  simp

/-- What is reported for the queues of a halted session is dropped. -/
theorem retireAll_halted (halted : session.halted = true) (rs : List Retirement) (v : Verdict)
    (hs : l.sessions[device]? = some session) :
    (retireAll rs v).run l =
      (retireAll (rs.filter fun r => l.owners[r.queue]? ≠ some device) v).run l := by
  induction rs generalizing v l with
  | nil => rfl
  | cons r rs ih =>
      rw [run_retireAll_cons]
      by_cases here : l.owners[r.queue]? = some device
      · have found := owningSession_eq_ok_iff.mpr ⟨here, hs⟩
        rw [applyRetirement_halted found halted, List.filter_cons_of_neg (by simpa using here)]
        simp only [Verdict.merge_pass, List.nil_append]
        exact ih v hs
      · have kept := keeps_afterRetirement hs halted r
        have owners := l.owners_afterRetirement r
        rw [← applyRetirement_state] at kept owners
        rw [List.filter_cons_of_pos (by simpa using here), run_retireAll_cons]
        simp only [ih _ kept, owners]

/-- A device that is tracked is not created again. -/
theorem postCall_create_known (hs : l.sessions[device]? = some session) :
    (postCall (.createDevice device) .success).run l = ⟨.pass, l, []⟩ := by
  have known : ¬(l.checkNewDevice device).isOk = true := fun new => by
    rw [new_of_checkNewDevice new] at hs
    cases hs
  have nothing : (createDevice device).run l = ⟨(), l, []⟩ := by
    unfold createDevice
    simp only [Logged.run_bind, Logged.run_get, known]
    rfl
  show Logged.run (createDevice device >>= fun _ => pure Verdict.pass) l = _
  rw [Logged.run_bind, nothing]
  rfl

/-- A session on which no hook has any effect. -/
structure Frozen (l : Layer) (device : Handle) (session : Session) : Prop where
  /-- The session, its books and its halt stay as they were. -/
  stays : l.sessions[device]? = some session
  /-- A completion for one of its queues finds nothing and changes nothing. -/
  completion : ∀ r, l.owners[r.queue]? = some device → (applyRetirement r).run l = ⟨.pass, l, []⟩
  /-- So the reported completions come to those for the queues of other devices. -/
  processing : processCompletions.run l = processCompletions.run { l with
    pending := l.pending.filter fun r => l.owners[r.queue]? ≠ some device }
  /-- A queue that is retired at once returns nothing. -/
  retirement : ∀ r, l.owners[r.queue]? = some device → (retireUpTo r).run l = ⟨.ok [], l, []⟩
  /-- Before one of its calls only the reported completions are applied. -/
  before : ∀ call, l.sessionFor call = .ok (device, session) →
    (∀ g, call ≠ .createDevice g) → (∀ g, call ≠ .destroyDevice g) →
    (preCall call).run l = processCompletions.run l
  /-- After one of its calls nothing is done. -/
  after : ∀ call result, l.sessionFor call = .ok (device, session) →
    (postCall call result).run l = ⟨.pass, l, []⟩

theorem frozen_of_halted (hs : l.sessions[device]? = some session)
    (halted : session.halted = true) : l.Frozen device session where
  stays := hs
  completion r owned := applyRetirement_halted (owningSession_eq_ok_iff.mpr ⟨owned, hs⟩) halted
  processing := retireAll_halted (l := { l with pending := [] }) halted l.pending .pass hs
  retirement r owned := retireUpTo_halted (owningSession_eq_ok_iff.mpr ⟨owned, hs⟩) halted
  before call found create destroy := by
    have own : own call = validateCall call := by
      cases call with
      | createDevice g => exact absurd rfl (create g)
      | destroyDevice g => exact absurd rfl (destroy g)
      | _ => rfl
    have nothing := validateCall_halted (sessionFor_drained halted found) halted
    rw [← processCompletions_state] at nothing
    rw [preCall_eq, own]
    simp only [Logged.run_bind, nothing]
    simp
  after call result found := by
    cases result with
    | success =>
        cases call with
        | createDevice g =>
            obtain ⟨rfl, hs⟩ := deviceSession_eq_ok_iff.mp found
            exact postCall_create_known hs
        | destroyDevice g => rfl
        | _ => exact recordCall_halted found halted
    | notReady => rfl
    | failure => rfl

/-! ## What is raised on sessions -/

section Raised

variable {α : Type}

/-- What an operation on the session of a device raises. -/
def raisedBy (device : Handle) : Except Violation α → List (Handle × Violation)
  | .ok _ => []
  | .error v => [(device, v)]

/-- What one retirement raises. -/
def raisedByRetirement (l : Layer) (r : Retirement) : List (Handle × Violation) :=
  match l.owningSession r.queue with
  | .error _ => []
  | .ok (device, session) =>
      if session.halted then []
      else raisedBy device ((Trackers.retireUpTo r).on session.trackers).value

/-- What retirements raise, one after another. -/
def raisedByRetirements : Layer → List Retirement → List (Handle × Violation)
  | _, [] => []
  | l, r :: rs => raisedByRetirement l r ++ raisedByRetirements (l.afterRetirement r) rs

/-- What the reported retirements raise. -/
def raisedByDraining (l : Layer) : List (Handle × Violation) :=
  raisedByRetirements { l with pending := [] } l.pending

/-- What the validation of a call raises. -/
def raisedByValidation (l : Layer) (call : Call) : List (Handle × Violation) :=
  match l.sessionFor call with
  | .error _ => []
  | .ok (device, session) =>
      if session.halted then []
      else raisedBy device ((Trackers.validate l.owners device call).on session.trackers).value

/-- What is raised when the records of a successful call are entered, and by the
retirements that it implies. -/
def raisedByRecording (l : Layer) (call : Call) : List (Handle × Violation) :=
  match l.sessionFor call with
  | .error _ => []
  | .ok (device, session) =>
      if session.halted then []
      else
        let o := (Trackers.recordCreation device call).on session.trackers
        let entered := { l.ran (gainedBy l.owners device o.value) device session o with
          pending := l.pending ++ session.trackers.impliedRetirements call }
        raisedBy device o.value ++ entered.raisedByDraining

/-- What the operations that a hook runs on sessions raise, in order. -/
def raised (l : Layer) : Hook → List (Handle × Violation)
  | .pre call =>
      l.raisedByDraining ++
        match call with
        | .createDevice _ | .destroyDevice _ => []
        | _ => l.drained.raisedByValidation call
  | .post call result =>
      match result, call with
      | .success, .createDevice _ | .success, .destroyDevice _ => []
      | .success, _ => l.raisedByRecording call
      | _, _ => []
  | .report _ => []
  | .process | .fenceStatus .. => l.raisedByDraining
  | .retire r => l.raisedByRetirement r

/-! ## What halts a session -/

/-- The sessions after what has been raised: those are halted that were, and those on
which an internal error was raised, if that is chosen. -/
structure Halts (l : Layer) (raised : List (Handle × Violation)) (k : Layer) : Prop where
  /-- What the user has chosen. -/
  chosen : k.config = l.config
  /-- The sessions stay, but for their books and their halts. -/
  halted : ∀ d : Handle, (k.sessions[d]?).map (·.halted) = (l.sessions[d]?).map fun session =>
    session.halted || l.config.validation.haltOnInternalError &&
      raised.any fun entry => entry.1 = d && entry.2.isFatal

theorem Halts.same (same : k.sessions = l.sessions) (chosen : k.config = l.config) :
    l.Halts [] k := by
  refine ⟨chosen, fun d => ?_⟩
  simp [same]

/-- What is reported and not applied does not matter. -/
theorem Halts.pending {pending : List Retirement} {raised : List (Handle × Violation)}
    (h : ({ l with pending } : Layer).Halts raised k) : l.Halts raised k := ⟨h.chosen, h.halted⟩

theorem Halts.trans {m : Layer} {raised more : List (Handle × Violation)} (h : l.Halts raised k)
    (h' : k.Halts more m) : l.Halts (raised ++ more) m := by
  refine ⟨h'.chosen.trans h.chosen, fun d => ?_⟩
  have first := h.halted d
  rw [h'.halted d, h.chosen]
  cases hl : l.sessions[d]? with
  | none =>
      rw [hl] at first
      rw [Option.map_eq_none_iff.mp first]
      rfl
  | some session =>
      rw [hl] at first
      obtain ⟨after, ha, halted⟩ := Option.map_eq_some_iff.mp first
      rw [ha, Option.map_some, Option.map_some, halted, List.any_append, Bool.and_or_distrib_left,
        Bool.or_assoc]

theorem Halts.ran {owners : Owners} {o : Outcome Trackers (Except Violation α)}
    (hs : l.sessions[device]? = some session) :
    l.Halts (raisedBy device o.value) (l.ran owners device session o) := by
  refine ⟨l.config_ran .., fun d => ?_⟩
  rw [getElem?_ran]
  by_cases here : d = device
  · subst here
    rw [if_pos rfl, hs]
    cases ho : o.value with
    | ok a => simp [raisedBy, Session.ran, ValidationConfig.halts, ho]
    | error v => simp [raisedBy, Session.ran, ValidationConfig.halts, ho, Bool.and_comm]
  · rw [if_neg here]
    cases o.value with
    | ok a => simp [raisedBy]
    | error v => simp [raisedBy, Ne.symm here]

end Raised

theorem halts_retirement (l : Layer) (r : Retirement) :
    l.Halts (l.raisedByRetirement r) (l.afterRetirement r) := by
  unfold raisedByRetirement
  cases found : l.owningSession r.queue with
  | error v =>
      rw [afterRetirement_error found]
      exact .same rfl rfl
  | ok entry =>
      obtain ⟨device, session⟩ := entry
      dsimp only
      split
      next halted =>
        rw [afterRetirement_halted found halted]
        exact .same rfl rfl
      next running =>
        rw [afterRetirement_running found running]
        exact .ran (owningSession_eq_ok_iff.mp found).2

theorem halts_retirements (rs : List Retirement) (l : Layer) :
    l.Halts (l.raisedByRetirements rs) (rs.foldl afterRetirement l) := by
  induction rs generalizing l with
  | nil => exact .same rfl rfl
  | cons r rs ih => exact (l.halts_retirement r).trans (ih (l.afterRetirement r))

theorem halts_draining (l : Layer) : l.Halts l.raisedByDraining l.drained :=
  .pending (halts_retirements l.pending _)

theorem halts_validation (l : Layer) (call : Call) :
    l.Halts (l.raisedByValidation call) (l.afterValidation call) := by
  unfold raisedByValidation
  cases found : l.sessionFor call with
  | error v =>
      rw [afterValidation_error found]
      exact .same rfl rfl
  | ok entry =>
      obtain ⟨device, session⟩ := entry
      dsimp only
      split
      next halted =>
        rw [afterValidation_halted found halted]
        exact .same rfl rfl
      next running =>
        rw [afterValidation_running found running]
        exact .ran (session_of_call found).1

theorem halts_recording (l : Layer) (call : Call) :
    l.Halts (l.raisedByRecording call) (l.afterRecord call) := by
  unfold raisedByRecording
  cases found : l.sessionFor call with
  | error v =>
      rw [afterRecord_error found]
      exact .same rfl rfl
  | ok entry =>
      obtain ⟨device, session⟩ := entry
      dsimp only
      split
      next halted =>
        rw [afterRecord_halted found halted]
        exact .same rfl rfl
      next running =>
        rw [afterRecord_entered found running]
        exact (Halts.ran (session_of_call found).1).trans (.pending (halts_draining _))

theorem Halts.halted_iff {raised : List (Handle × Violation)} (h : l.Halts raised k)
    (hs : k.sessions[device]? = some session) :
    session.halted = true ↔ (∃ before, l.sessions[device]? = some before ∧ before.halted = true) ∨
      l.config.validation.haltOnInternalError = true ∧
        ∃ v, (device, v) ∈ raised ∧ v.isFatal = true := by
  have halted := h.halted device
  rw [hs, Option.map_some] at halted
  obtain ⟨before, hb, same⟩ := Option.map_eq_some_iff.mp halted.symm
  rw [hb, ← same]
  simp

/-- A device that a call has created has a session that goes on. -/
theorem halted_afterCreate_iff {d : Handle}
    (hs : (l.afterCreate d).sessions[device]? = some session) :
    session.halted = true ↔ ∃ before, l.sessions[device]? = some before ∧
      before.halted = true := by
  unfold afterCreate at hs
  split at hs
  next new =>
    rw [getElem?_put] at hs
    split at hs
    next here =>
      cases hs
      simp [here, new_of_checkNewDevice new]
    next => simp [hs]
  next => simp [hs]

/-- The sessions that a hook leaves are halted if they were, or an internal error was raised
on them and that is chosen; and for no other reason. -/
theorem halted_step_iff {hook : Hook} (hs : (l.step hook).sessions[device]? = some session) :
    session.halted = true ↔ (∃ before, l.sessions[device]? = some before ∧ before.halted = true) ∨
      l.config.validation.haltOnInternalError = true ∧
        ∃ v, (device, v) ∈ l.raised hook ∧ v.isFatal = true := by
  rw [step_eq] at hs
  cases hook with
  | pre call =>
      cases call with
      | createDevice d => exact (l.halts_draining.trans (.same rfl rfl)).halted_iff hs
      | destroyDevice d =>
          have left : (l.drained.afterDestroy d).sessions[device]? = some session := hs
          rw [getElem?_afterDestroy] at left
          split at left
          · cases left
          · exact (l.halts_draining.trans (.same rfl rfl)).halted_iff left
      | _ => exact (l.halts_draining.trans (halts_validation _ _)).halted_iff hs
  | post call result =>
      cases result with
      | success =>
          cases call with
          | createDevice d =>
              refine (halted_afterCreate_iff hs).trans ?_
              simp [raised]
          | destroyDevice d => exact (Halts.same rfl rfl).halted_iff hs
          | _ => exact (halts_recording l _).halted_iff hs
      | notReady => exact (Halts.same rfl rfl).halted_iff hs
      | failure => exact (Halts.same rfl rfl).halted_iff hs
  | report completion => exact (Halts.same (l := l) rfl rfl).halted_iff hs
  | process => exact l.halts_draining.halted_iff hs
  | retire r => exact (l.halts_retirement r).halted_iff hs
  | fenceStatus d fence => exact l.halts_draining.halted_iff hs

/-! ## What is reported of it -/

/-- The internal errors that were raised are those that are reported, in order. -/
def Reports (ds : List Diagnostic) (raised : List (Handle × Violation)) : Prop :=
  ds.filter (·.severity = .fatal) = (raised.filter (·.2.isFatal)).map (·.2.toDiagnostic)

theorem Reports.append {ds ds' : List Diagnostic} {raised raised' : List (Handle × Violation)}
    (h : Reports ds raised) (h' : Reports ds' raised') :
    Reports (ds ++ ds') (raised ++ raised') := by
  unfold Reports at h h' ⊢
  rw [List.filter_append, List.filter_append, List.map_append, h, h']

theorem reports_of_mild {ds : List Diagnostic} (mild : ∀ d ∈ ds, d.isError = false) :
    Reports ds [] := by
  refine List.filter_eq_nil_iff.mpr fun d hd fatal => ?_
  have none := mild d hd
  unfold Diagnostic.isError at none
  rw [of_decide_eq_true fatal] at none
  cases none

theorem severity_eq_fatal_iff (v : Violation) :
    v.toDiagnostic.severity = .fatal ↔ v.isFatal = true := by
  cases v with
  | internal => exact ⟨fun _ => rfl, fun _ => rfl⟩
  | _ => exact ⟨fun h => (nomatch h), fun h => (nomatch h)⟩

theorem reports_error (device : Handle) (v : Violation) :
    Reports [v.toDiagnostic] [(device, v)] := by
  unfold Reports
  by_cases fatal : v.isFatal = true
  · simp [severity_eq_fatal_iff, fatal]
  · simp [severity_eq_fatal_iff, fatal]

theorem reports_refusal {v : Violation} (mild : v.isFatal = false) :
    Reports [v.toDiagnostic] [] := by
  simp [Reports, severity_eq_fatal_iff, mild]

/-- The end of an operation on a session reports what the operation raised. -/
theorem reports_conclude {α : Type} {warnings : List Diagnostic}
    (mild : ∀ d ∈ warnings, d.isError = false) (outcome : Except Violation α) :
    Reports ((conclude (some device) (outcome.map fun _ => ()) warnings).run l).value.diagnostics
      (raisedBy device outcome) := by
  cases outcome with
  | ok a => exact reports_of_mild mild
  | error v =>
      show Reports ((conclude (some device) (.error v) warnings).run l).value.diagnostics _
      rw [conclude_error_value]
      exact (reports_of_mild mild).append (reports_error device v)

/-- The end of a hook that has found no session reports no internal error. -/
theorem reports_conclude_none {v : Violation} (mild : v.isFatal = false) :
    Reports ((conclude none (.error v) []).run l).value.diagnostics [] := by
  rw [conclude_error_value]
  exact reports_refusal mild

theorem reports_applyRetirement (l : Layer) (r : Retirement) :
    Reports ((applyRetirement r).run l).value.diagnostics (l.raisedByRetirement r) := by
  unfold applyRetirement raisedByRetirement
  simp only [Logged.run_bind, Logged.run_get]
  cases found : l.owningSession r.queue with
  | error v => exact reports_conclude_none (mild_owningSession r.queue v found)
  | ok entry =>
      obtain ⟨device, session⟩ := entry
      dsimp only
      split
      · exact rfl
      · exact reports_conclude (fun _ hd => absurd hd List.not_mem_nil) _

theorem reports_retireAll (rs : List Retirement) {v : Verdict} {l : Layer}
    {before : List (Handle × Violation)} (h : Reports v.diagnostics before) :
    Reports ((retireAll rs v).run l).value.diagnostics (before ++ l.raisedByRetirements rs) := by
  induction rs generalizing v l before with
  | nil =>
      rw [raisedByRetirements, List.append_nil]
      exact h
  | cons r rs ih =>
      rw [retireAll_cons_value, raisedByRetirements, ← List.append_assoc]
      exact ih (h.append (l.reports_applyRetirement r))

theorem reports_processCompletions (l : Layer) :
    Reports (processCompletions.run l).value.diagnostics l.raisedByDraining :=
  reports_retireAll l.pending (show Reports Verdict.pass.diagnostics [] from rfl)

theorem mild_sessionFor (l : Layer) (call : Call) : Track.Mild (l.sessionFor call) := by
  unfold sessionFor
  split
  · unfold deviceSession
    split
    · exact Track.raises_ok _
    · exact Track.mild_error rfl
  · exact mild_owningSession _

theorem reports_validateCall (l : Layer) (call : Call) :
    Reports ((validateCall call).run l).value.diagnostics (l.raisedByValidation call) := by
  unfold validateCall raisedByValidation
  simp only [Logged.run_bind, Logged.run_get]
  cases found : l.sessionFor call with
  | error v => exact reports_conclude_none (mild_sessionFor l call v found)
  | ok entry =>
      obtain ⟨device, session⟩ := entry
      dsimp only
      split
      · exact rfl
      · have mild : ∀ d ∈ ((Trackers.validate l.owners device call).on
            session.trackers).notes.filterMap (·.warning?), d.isError = false := fun d hd => by
          obtain ⟨n, hn, he⟩ := List.mem_filterMap.mp hd
          exact (Trackers.gentle_validate l.owners device call session.trackers n hn).2 d he
        cases ho : ((Trackers.validate l.owners device call).on session.trackers).value with
        | ok released =>
            simp only [Logged.run_bind, runOn_value, ho]
            exact reports_of_mild mild
        | error v =>
            simp only [Logged.run_bind, runOn_value, runOn_state, ho]
            exact reports_conclude mild (.error v : Except Violation Unit)

/-- What is reported when records have been entered: what that raised, and then what the
retirements raised that follow. -/
theorem reports_entered {α : Type} (l : Layer) (outcome : Except Violation α)
    (implied : List Retirement) :
    let own := (conclude (some device) (outcome.map fun _ => ()) []).run l
    let after := processCompletions.run
      { own.state with pending := own.state.pending ++ implied }
    Reports (own.value.merge after.value).diagnostics (raisedBy device outcome ++ raisedByDraining
      { l.concluded device (outcome.map fun _ => ()) with pending := l.pending ++ implied }) := by
  intro own after
  have left : own.state = l.concluded device (outcome.map fun _ => ()) := conclude_state ..
  have later := reports_processCompletions
    { own.state with pending := own.state.pending ++ implied }
  have kept : own.state.pending = l.pending := by rw [left, pending_concluded]
  rw [← left, ← kept]
  exact (reports_conclude (fun _ hd => absurd hd List.not_mem_nil) outcome).append later

theorem reports_recordCall (l : Layer) (call : Call) :
    Reports ((recordCall call).run l).value.diagnostics (l.raisedByRecording call) := by
  unfold recordCall raisedByRecording
  simp only [Logged.run_bind, Logged.run_get]
  cases found : l.sessionFor call with
  | error v => exact reports_conclude_none (mild_sessionFor l call v found)
  | ok entry =>
      obtain ⟨device, session⟩ := entry
      dsimp only
      split
      · exact rfl
      · simp only [Logged.run_bind, runOn_value, runOn_state, ran]
        cases ho : ((Trackers.recordCreation device call).on session.trackers).value with
        | ok gained =>
            simp only [Logged.run_bind, Logged.run_pure, Logged.run_modify]
            exact reports_entered _ (.ok gained) _
        | error v =>
            simp only [Logged.run_bind, Logged.run_pure, Logged.run_modify]
            exact reports_entered _ (.error v : Except Violation (List Handle)) _

/-- The end of a device reports what is left on it, which is no error. -/
theorem reports_destroyDevice (l : Layer) (d : Handle) :
    Reports ((destroyDevice d).run l).value.diagnostics [] := by
  unfold destroyDevice
  simp only [Logged.run_bind, Logged.run_get]
  cases found : l.deviceSession d with
  | error v => exact reports_conclude_none (mild_sessionFor l (.deviceWaitIdle d) v found)
  | ok entry =>
      obtain ⟨device, session⟩ := entry
      obtain ⟨vs, hvs, mild⟩ := (leaks_mild session.trackers.memory d).answers
      by_cases halted : session.halted = true
      · simp only [if_pos halted]
        exact rfl
      · simp only [if_neg halted, Logged.run_bind, Logged.run_pure, hvs]
        refine reports_of_mild fun x hx => ?_
        obtain ⟨v, hv, rfl⟩ := List.mem_map.mp hx
        exact mild v hv

theorem reports_create (l : Layer) (d : Handle) :
    Reports ((own (.createDevice d)).run l).value.diagnostics [] := by
  have mild : Track.Mild (l.checkNewDevice d) := by
    unfold checkNewDevice
    exact (Registry.mild_checkKind _ d).bind fun _ =>
      (Track.mild_error rfl).ite (Track.raises_ok _)
  show Reports ((conclude none (l.checkNewDevice d) []).run l).value.diagnostics []
  cases found : l.checkNewDevice d with
  | ok u => exact rfl
  | error v => exact reports_conclude_none (mild v found)

/-- What the answer of a hook reports.  A status only says whether a fence is signaled, and
the driver gets no answer to its report. -/
def answered (l : Layer) : Hook → Option (List Diagnostic)
  | .pre call => some ((preCall call).run l).value.diagnostics
  | .post call result => some ((postCall call result).run l).value.diagnostics
  | .process => some (processCompletions.run l).value.diagnostics
  | .retire r =>
      match ((retireUpTo r).run l).value with
      | .ok _ => some []
      | .error v => some [v.toDiagnostic]
  | .report _ | .fenceStatus .. => none

theorem reports_retire {ds : List Diagnostic} (h : l.answered (.retire r) = some ds) :
    Reports ds (l.raisedByRetirement r) := by
  unfold answered retireUpTo at h
  unfold raisedByRetirement
  simp only [Logged.run_bind, Logged.run_get] at h
  cases found : l.owningSession r.queue with
  | error v =>
      rw [found] at h
      cases h
      exact reports_refusal (mild_owningSession r.queue v found)
  | ok entry =>
      obtain ⟨device, session⟩ := entry
      rw [found] at h
      dsimp only at h ⊢
      by_cases halted : session.halted = true
      · simp only [if_pos halted] at h ⊢
        cases h
        exact rfl
      · simp only [if_neg halted, Logged.run_bind, runOn_value] at h ⊢
        cases ho : ((Trackers.retireUpTo r).on session.trackers).value with
        | ok bs =>
            rw [ho] at h
            cases h
            exact rfl
        | error v =>
            rw [ho] at h
            cases h
            exact reports_error device v

/-- The internal errors in the answer of a hook are those that were raised on sessions. -/
theorem reports_answered {hook : Hook} {ds : List Diagnostic} (h : l.answered hook = some ds) :
    Reports ds (l.raised hook) := by
  cases hook with
  | pre call =>
      cases h
      rw [preCall_eq]
      simp only [Logged.run_bind, processCompletions_state]
      refine l.reports_processCompletions.append ?_
      cases call with
      | createDevice d => exact reports_create _ d
      | destroyDevice d => exact reports_destroyDevice _ d
      | _ => exact reports_validateCall _ _
  | post call result =>
      cases h
      cases result with
      | success =>
          cases call with
          | createDevice d => exact rfl
          | destroyDevice d => exact rfl
          | _ => exact reports_recordCall l _
      | notReady => exact rfl
      | failure => exact rfl
  | report completion => cases h
  | process =>
      cases h
      exact l.reports_processCompletions
  | retire r => exact reports_retire h
  | fenceStatus d fence => cases h

/-! ## The life of a halt -/

/-- A session that is halted stays as it is after any hooks that do not destroy its device,
and no hook has an effect on it.  Sessions are halted by the internal errors that are raised
on them, if that is chosen, and by nothing else; and these errors are those that the answers
of hooks report. -/
theorem halting (l : Layer) (device : Handle) :
    (∀ session hooks, l.sessions[device]? = some session → session.halted = true →
      (∀ hook ∈ hooks, hook ≠ .pre (.destroyDevice device)) →
      (l.run hooks).Frozen device session) ∧
    ∀ hook,
      (∀ after, (l.step hook).sessions[device]? = some after → (after.halted = true ↔
        (∃ before, l.sessions[device]? = some before ∧ before.halted = true) ∨
          l.config.validation.haltOnInternalError = true ∧
            ∃ v, (device, v) ∈ l.raised hook ∧ v.isFatal = true)) ∧
      ∀ ds, l.answered hook = some ds → Reports ds (l.raised hook) :=
  ⟨fun _ _ hs halted stays => frozen_of_halted (keeps_run hs halted stays) halted,
    fun _ => ⟨fun _ => halted_step_iff, fun _ => reports_answered⟩⟩

/-- A device with a queue that nothing was submitted to. -/
def opened : Layer := (start {}).run
  [.post (.createDevice ⟨1, .device⟩) .success,
   .post (.getDeviceQueue ⟨1, .device⟩ ⟨2, .queue⟩) .success]

/-- Hooks on the device after it has been halted. -/
def persisting : List Hook :=
  [.report ⟨⟨2, .queue⟩, 1⟩,
   .pre (.queueSubmit ⟨2, .queue⟩ [] none),
   .post (.allocateMemory ⟨1, .device⟩ ⟨3, .deviceMemory⟩ { size := 4096 }) .success,
   .post (.destroyDevice ⟨1, .device⟩) .success,
   .retire ⟨⟨2, .queue⟩, 1⟩,
   .process]

/-- A retirement of what was never submitted halts the session of the queue, and then
nothing has an effect on it. -/
theorem halting_of_opened :
    ∃ session v, (⟨1, .device⟩, v) ∈ opened.raised (.retire ⟨⟨2, .queue⟩, 5⟩) ∧
      v.isFatal = true ∧ session.halted = true ∧
      ((opened.step (.retire ⟨⟨2, .queue⟩, 5⟩)).run persisting).Frozen ⟨1, .device⟩ session := by
  have found : ∃ session ∈ (opened.step (.retire ⟨⟨2, .queue⟩, 5⟩)).sessions[
        (⟨1, .device⟩ : Handle)]?,
      ∃ entry ∈ opened.raised (.retire ⟨⟨2, .queue⟩, 5⟩),
        entry.1 = ⟨1, .device⟩ ∧ entry.2.isFatal = true := by decide +kernel
  obtain ⟨session, hs, ⟨d, v⟩, raised, rfl, fatal⟩ := found
  have halted : session.halted = true :=
    (((halting opened ⟨1, .device⟩).2 _).1 session hs).mpr
      (.inr ⟨by decide +kernel, v, raised, fatal⟩)
  exact ⟨session, v, raised, fatal, halted,
    (halting _ ⟨1, .device⟩).1 session persisting hs halted (by simp [persisting])⟩

end Layer

end GpuAudit
