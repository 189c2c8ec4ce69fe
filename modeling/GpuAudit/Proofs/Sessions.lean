import GpuAudit.Proofs.Hooks

/-!
# What hooks do to sessions

Each step of a hook runs at most one operation on the books of one session, and an
internal error of the operation halts the session, if that is chosen.  So a session stays
as it is or goes on as it has `ran`.

A `SessionLaw` is a property of sessions, with the owners of handles, that all these
operations keep, and a layer `Obeys` it if it holds of every session.  The owners are part
of the property, since they decide which session a call is about, and a law may ask less
of halted sessions.
-/

namespace GpuAudit

/-- Whether what an operation ends with halts its session. -/
def ValidationConfig.halts {α : Type} (choices : ValidationConfig) : Except Violation α → Bool
  | .ok _ => false
  | .error v => v.isFatal && choices.haltOnInternalError

/-- A session after an operation on its books. -/
def Session.ran {α : Type} (session : Session) (choices : ValidationConfig)
    (o : Outcome Trackers (Except Violation α)) : Session :=
  ⟨o.state, session.halted || choices.halts o.value⟩

namespace Layer

variable {l : Layer} {device : Handle} {session : Session} {call : Call} {owners : Owners}

/-! ## Sessions of a call -/

theorem deviceSession_eq_ok_iff {d : Handle} :
    l.deviceSession d = .ok (device, session) ↔
      d = device ∧ l.sessions[device]? = some session := by
  unfold deviceSession
  cases hs : l.sessions[d]? with
  | none =>
      simp only [reduceCtorEq, false_iff]
      rintro ⟨rfl, h⟩
      rw [hs] at h
      cases h
  | some found =>
      simp only [Except.ok.injEq, Prod.mk.injEq]
      constructor
      · rintro ⟨rfl, rfl⟩
        exact ⟨rfl, hs⟩
      · rintro ⟨rfl, h⟩
        rw [hs] at h
        cases h
        exact ⟨rfl, rfl⟩

theorem owningSession_eq_ok_iff {object : Handle} :
    l.owningSession object = .ok (device, session) ↔
      l.owners[object]? = some device ∧ l.sessions[device]? = some session := by
  unfold owningSession
  cases ho : l.owners[object]? with
  | none => simp
  | some d =>
      simp only [deviceSession_eq_ok_iff, Option.some.injEq]

/-- A call is about a session of the layer, and about the owner of the object that
names it. -/
theorem session_of_call (h : l.sessionFor call = .ok (device, session)) :
    l.sessions[device]? = some session ∧
      ∀ object, call.scope = .owner object → l.owners[object]? = some device := by
  unfold sessionFor at h
  cases hs : call.scope with
  | device d =>
      rw [hs] at h
      exact ⟨(deviceSession_eq_ok_iff.mp h).2, fun _ he => nomatch he⟩
  | owner object =>
      rw [hs] at h
      obtain ⟨ho, hf⟩ := owningSession_eq_ok_iff.mp h
      refine ⟨hf, fun _ he => ?_⟩
      cases he
      exact ho

/-! ## Books in their place -/

theorem getElem?_put (t : Trackers) (g : Handle) :
    (l.put device session t).sessions[g]? =
      if g = device then some { session with trackers := t } else l.sessions[g]? :=
  Handle.getElem?_insert ..

/-- Books put in their own place change nothing. -/
theorem put_same (hs : l.sessions[device]? = some session) :
    l.put device session session.trackers = l := by
  have same : l.sessions.insert device { session with trackers := session.trackers } =
      l.sessions := Std.ExtTreeMap.ext_getElem? fun {g} => by
    rw [Handle.getElem?_insert]
    split
    next he => rw [he, hs]
    next _ => rfl
  unfold put
  rw [same]

/-- Of books put in a place twice, the later stay. -/
theorem put_put (t u : Trackers) :
    (l.put device session t).put device { session with trackers := t } u = l.put device session u := by
  have same : (l.sessions.insert device { session with trackers := t }).insert device
      { session with trackers := u } = l.sessions.insert device { session with trackers := u } :=
    Std.ExtTreeMap.ext_getElem? fun {g} => by
      simp only [Handle.getElem?_insert]
      split
      · rfl
      · rfl
  exact congrArg (fun sessions => ({ l with sessions } : Layer)) same

/-- A device can be created only where there is no session. -/
theorem new_of_checkNewDevice (h : (l.checkNewDevice device).isOk = true) :
    l.sessions[device]? = none := by
  cases hs : l.sessions[device]? with
  | none => rfl
  | some session =>
      unfold checkNewDevice at h
      have found : l.sessions.contains device = true := by
        rw [Std.ExtTreeMap.contains_eq_isSome_getElem?, hs]
        rfl
      rw [if_pos found] at h
      cases hk : Registry.checkKind .device device <;> rw [hk] at h <;> cases h

/-! ## Operations on sessions -/

@[simp] theorem config_concluded (outcome : Except Violation Unit) :
    (l.concluded device outcome).config = l.config := by
  unfold concluded
  split
  · rfl
  · split <;> rfl

@[simp] theorem owners_concluded (outcome : Except Violation Unit) :
    (l.concluded device outcome).owners = l.owners := by
  unfold concluded
  split
  · rfl
  · split <;> rfl

@[simp] theorem pending_concluded (outcome : Except Violation Unit) :
    (l.concluded device outcome).pending = l.pending := by
  unfold concluded
  split
  · rfl
  · split <;> rfl

theorem getElem?_concluded (outcome : Except Violation Unit) (g : Handle) :
    (l.concluded device outcome).sessions[g]? =
      if g = device then (l.sessions[g]?).map fun session =>
        { session with halted := session.halted || l.config.validation.halts outcome }
      else l.sessions[g]? := by
  have goes : (fun session : Session => { session with halted := session.halted || false }) =
      id := by
    funext session
    simp
  unfold concluded
  cases outcome with
  | ok u => simp only [ValidationConfig.halts, goes, Option.map_id, id, ite_self]
  | error v =>
      simp only [ValidationConfig.halts]
      by_cases stops : (v.isFatal && l.config.validation.haltOnInternalError) = true
      · simp only [stops, if_true, Bool.or_true]
        exact Handle.getElem?_modify ..
      · simp only [eq_false_of_ne_true stops, Bool.false_eq_true, if_false, goes,
          Option.map_id, id, ite_self]

section Ran

variable {α : Type}

/-- The layer after an operation on the books of a session has changed the owners too. -/
def ran (l : Layer) (owners : Owners) (device : Handle) (session : Session)
    (o : Outcome Trackers (Except Violation α)) : Layer :=
  concluded { l.put device session o.state with owners } device (o.value.map fun _ => ())

variable (l : Layer) (owners : Owners) (device : Handle) (session : Session)
  (o : Outcome Trackers (Except Violation α))

@[simp] theorem config_ran : (l.ran owners device session o).config = l.config :=
  config_concluded _

@[simp] theorem owners_ran : (l.ran owners device session o).owners = owners :=
  owners_concluded _

@[simp] theorem pending_ran : (l.ran owners device session o).pending = l.pending :=
  pending_concluded _

theorem getElem?_ran (g : Handle) : (l.ran owners device session o).sessions[g]? =
    if g = device then some (session.ran l.config.validation o) else l.sessions[g]? := by
  have halts : l.config.validation.halts (o.value.map fun _ => ()) =
      l.config.validation.halts o.value := by
    cases o.value with
    | ok _ => rfl
    | error _ => rfl
  unfold ran
  rw [getElem?_concluded]
  show (if g = device then ((l.put device session o.state).sessions[g]?).map _ else
    (l.put device session o.state).sessions[g]?) = _
  rw [getElem?_put]
  split
  · simp only [Option.map_some, Session.ran]
    exact congrArg (fun b => some (⟨o.state, session.halted || b⟩ : Session)) halts
  · rfl

end Ran

theorem afterRetirement_error {r : Retirement} {v : Violation}
    (h : l.owningSession r.queue = .error v) : l.afterRetirement r = l := by
  unfold afterRetirement
  rw [h]

theorem afterRetirement_halted {r : Retirement}
    (h : l.owningSession r.queue = .ok (device, session)) (halted : session.halted = true) :
    l.afterRetirement r = l := by
  unfold afterRetirement
  rw [h]
  exact if_pos halted

theorem afterRetirement_running {r : Retirement}
    (h : l.owningSession r.queue = .ok (device, session)) (running : ¬session.halted = true) :
    l.afterRetirement r =
      l.ran l.owners device session ((Trackers.retireUpTo r).on session.trackers) := by
  unfold afterRetirement
  rw [h]
  exact if_neg running

/-- A retirement runs on the session of the owner of its queue, if that is not halted. -/
theorem afterRetirement_cases (l : Layer) (r : Retirement) :
    l.afterRetirement r = l ∨ ∃ device session, l.owningSession r.queue = .ok (device, session) ∧
      ¬session.halted = true ∧ l.afterRetirement r =
        l.ran l.owners device session ((Trackers.retireUpTo r).on session.trackers) := by
  cases found : l.owningSession r.queue with
  | error v => exact .inl (afterRetirement_error found)
  | ok entry =>
      obtain ⟨device, session⟩ := entry
      by_cases halted : session.halted = true
      · exact .inl (afterRetirement_halted found halted)
      · exact .inr ⟨device, session, rfl, halted, afterRetirement_running found halted⟩

/-- A call is validated on the session it is about, if that is not halted. -/
theorem afterValidation_cases (l : Layer) (call : Call) :
    l.afterValidation call = l ∨ ∃ device session, l.sessionFor call = .ok (device, session) ∧
      ¬session.halted = true ∧
      let o := (Trackers.validate l.owners device call).on session.trackers
      l.afterValidation call = l.ran (givenUp l.owners o.value) device session o := by
  cases found : l.sessionFor call with
  | error v => exact .inl (afterValidation_error found)
  | ok entry =>
      obtain ⟨device, session⟩ := entry
      by_cases halted : session.halted = true
      · exact .inl (afterValidation_halted found halted)
      · exact .inr ⟨device, session, rfl, halted, afterValidation_running found halted⟩

/-- What a call has created is entered on its session, and the reported retirements follow. -/
theorem afterRecord_entered (found : l.sessionFor call = .ok (device, session))
    (running : ¬session.halted = true) :
    let o := (Trackers.recordCreation device call).on session.trackers
    l.afterRecord call = drained { l.ran (gainedBy l.owners device o.value) device session o with
      pending := l.pending ++ session.trackers.impliedRetirements call } := by
  rw [afterRecord_running found running]
  show drained { concluded _ device _ with pending := (concluded _ device _).pending ++ _ } = _
  rw [pending_concluded]
  rfl

/-- What a call has created is entered on the session it is about, if that is not halted,
and the reported retirements follow. -/
theorem afterRecord_cases (l : Layer) (call : Call) :
    l.afterRecord call = l ∨ ∃ device session, l.sessionFor call = .ok (device, session) ∧
      ¬session.halted = true ∧
      let o := (Trackers.recordCreation device call).on session.trackers
      l.afterRecord call = drained { l.ran (gainedBy l.owners device o.value) device session o with
        pending := l.pending ++ session.trackers.impliedRetirements call } := by
  cases found : l.sessionFor call with
  | error v => exact .inl (afterRecord_error found)
  | ok entry =>
      obtain ⟨device, session⟩ := entry
      by_cases halted : session.halted = true
      · exact .inl (afterRecord_halted found halted)
      · exact .inr ⟨device, session, rfl, halted, afterRecord_entered found halted⟩

theorem config_afterRetirement (l : Layer) (r : Retirement) :
    (l.afterRetirement r).config = l.config := by
  rcases l.afterRetirement_cases r with same | ⟨_, _, -, -, ran⟩
  · rw [same]
  · rw [ran, config_ran]

theorem config_afterRetirements (rs : List Retirement) (l : Layer) :
    (rs.foldl afterRetirement l).config = l.config := by
  induction rs generalizing l with
  | nil => rfl
  | cons r rs ih => rw [List.foldl_cons, ih, config_afterRetirement]

@[simp] theorem config_drained (l : Layer) : l.drained.config = l.config :=
  config_afterRetirements l.pending _

theorem owners_afterRetirement (l : Layer) (r : Retirement) :
    (l.afterRetirement r).owners = l.owners := by
  rcases l.afterRetirement_cases r with same | ⟨_, _, -, -, ran⟩
  · rw [same]
  · rw [ran, owners_ran]

theorem owners_afterRetirements (rs : List Retirement) (l : Layer) :
    (rs.foldl afterRetirement l).owners = l.owners := by
  induction rs generalizing l with
  | nil => rfl
  | cons r rs ih => rw [List.foldl_cons, ih, owners_afterRetirement]

@[simp] theorem owners_drained (l : Layer) : l.drained.owners = l.owners :=
  owners_afterRetirements l.pending _

theorem pending_afterRetirement (l : Layer) (r : Retirement) :
    (l.afterRetirement r).pending = l.pending := by
  rcases l.afterRetirement_cases r with same | ⟨_, _, -, -, ran⟩
  · rw [same]
  · rw [ran, pending_ran]

theorem pending_afterRetirements (rs : List Retirement) (l : Layer) :
    (rs.foldl afterRetirement l).pending = l.pending := by
  induction rs generalizing l with
  | nil => rfl
  | cons r rs ih => rw [List.foldl_cons, ih, pending_afterRetirement]

@[simp] theorem pending_drained (l : Layer) : l.drained.pending = [] :=
  pending_afterRetirements l.pending _

theorem drained_idle (idle : l.pending = []) : l.drained = l := by
  obtain ⟨config, sessions, owners, pending⟩ := l
  cases idle
  rfl

theorem getElem?_afterDestroy (l : Layer) (device g : Handle) :
    (l.afterDestroy device).sessions[g]? = if g = device then none else l.sessions[g]? := by
  unfold afterDestroy
  split
  next none =>
    split
    next here => rw [here, none]
    next => rfl
  next => exact Handle.getElem?_erase ..

/-- The end of a device gives no handle an owner. -/
theorem owner_of_afterDestroy {g d : Handle} (h : (l.afterDestroy device).owners[g]? = some d) :
    l.owners[g]? = some d := by
  unfold afterDestroy at h
  split at h
  · exact h
  · have hg : (l.owners.filter fun _ owner => owner ≠ device)[g]? = some d := h
    rw [Std.ExtTreeMap.getElem?_filter', Option.filter_eq_some_iff] at hg
    exact hg.1

/-- A device that has a session is not created again. -/
theorem getElem?_afterCreate {d : Handle} (hs : l.sessions[device]? = some session) :
    (l.afterCreate d).sessions[device]? = some session := by
  unfold afterCreate
  split
  next new =>
    rw [getElem?_put, if_neg fun here => ?_, hs]
    rw [here, new_of_checkNewDevice new] at hs
    cases hs
  next => exact hs

/-! ## Laws -/

/-- A property of sessions, with the owners of handles, that the loss of handles and the
retirement of work keep. -/
structure RetirementLaw (choices : ValidationConfig) (P : Owners → Handle → Session → Prop) :
    Prop where
  /-- A device may lose handles. -/
  lose : ∀ (owners owners' : Owners) device session,
    (∀ h : Handle, owners'[h]? = some device → owners[h]? = some device) →
    P owners device session → P owners' device session
  /-- Retirement keeps it. -/
  retire : ∀ owners device session r, ¬session.halted = true → P owners device session →
    P owners device (session.ran choices ((Trackers.retireUpTo r).on session.trackers))

/-- A property of sessions, with the owners of handles, that every operation keeps.
Validation keeps it for the calls that `may` admits. -/
structure SessionLaw (choices : ValidationConfig) (P : Owners → Handle → Session → Prop)
    (may : Owners → Handle → Trackers → Call → Prop) : Prop extends RetirementLaw choices P where
  /-- It holds of a new session. -/
  empty : ∀ owners device, (∀ h : Handle, owners[h]? ≠ some device) →
    P owners device ⟨.empty, false⟩
  /-- An admitted call keeps it. -/
  validate : ∀ (owners : Owners) device session call, ¬session.halted = true →
    P owners device session → may owners device session.trackers call →
    (∀ h, call.scope = .owner h → owners[h]? = some device) →
    let o := (Trackers.validate owners device call).on session.trackers
    P (givenUp owners o.value) device (session.ran choices o)
  /-- What a successful call enters keeps it. -/
  record : ∀ (owners : Owners) device session call, ¬session.halted = true →
    P owners device session →
    let o := (Trackers.recordCreation device call).on session.trackers
    P (gainedBy owners device o.value) device (session.ran choices o)

/-- A law holds of every session, and only devices with a session own anything. -/
structure Obeys (choices : ValidationConfig) (P : Owners → Handle → Session → Prop) (l : Layer) :
    Prop where
  /-- What the user has chosen. -/
  chosen : l.config.validation = choices
  /-- The law holds. -/
  law : ∀ (device : Handle) (session : Session), l.sessions[device]? = some session →
    P l.owners device session
  /-- Owners have a session. -/
  live : ∀ h device : Handle, l.owners[h]? = some device →
    ∃ session, l.sessions[device]? = some session

section Laws

variable {choices : ValidationConfig} {P : Owners → Handle → Session → Prop}
  {may : Owners → Handle → Trackers → Call → Prop}

theorem obeys_start (config : Config) : (start config).Obeys config.validation P :=
  ⟨rfl, fun device session h => (nomatch (show (none : Option Session) = some session from
    (Std.ExtTreeMap.getElem?_empty (a := device)).symm.trans h)),
   fun h device hd => (nomatch (show (none : Option Handle) = some device from
    (Std.ExtTreeMap.getElem?_empty (a := h)).symm.trans hd))⟩

/-- A session is put in its place, with owners by which no other device gains a handle. -/
theorem Obeys.put (law : RetirementLaw choices P) (h : l.Obeys choices P) {k : Layer}
    {after : Session} (config : k.config = l.config)
    (view : ∀ g : Handle, k.sessions[g]? = if g = device then some after else l.sessions[g]?)
    (other : ∀ g d : Handle, d ≠ device → k.owners[g]? = some d → l.owners[g]? = some d)
    (own : P k.owners device after) : k.Obeys choices P := by
  refine ⟨config ▸ h.chosen, fun d s hd => ?_, fun g d hg => ?_⟩
  · rw [view] at hd
    split at hd
    next here =>
      cases hd
      exact here ▸ own
    next away => exact law.lose l.owners k.owners d s (fun g => other g d away) (h.law d s hd)
  · rw [view]
    split
    · exact ⟨_, rfl⟩
    next away => exact h.live g d (other g d away hg)

theorem Obeys.ran {α : Type} (law : RetirementLaw choices P) (h : l.Obeys choices P)
    {o : Outcome Trackers (Except Violation α)}
    (other : ∀ g d : Handle, d ≠ device → owners[g]? = some d → l.owners[g]? = some d)
    (own : P owners device (session.ran choices o)) :
    (l.ran owners device session o).Obeys choices P := by
  have owned := l.owners_ran owners device session o
  refine h.put law (l.config_ran owners device session o) (l.getElem?_ran owners device session o)
    (fun g d away hg => other g d away (owned ▸ hg)) ?_
  rw [owned, h.chosen]
  exact own

theorem Obeys.pending (h : l.Obeys choices P) (pending : List Retirement) :
    ({ l with pending } : Layer).Obeys choices P := ⟨h.chosen, h.law, h.live⟩

theorem Obeys.afterRetirement (law : RetirementLaw choices P) (h : l.Obeys choices P)
    (r : Retirement) : (l.afterRetirement r).Obeys choices P := by
  rcases l.afterRetirement_cases r with same | ⟨device, session, found, running, ran⟩
  · rw [same]
    exact h
  · rw [ran]
    exact h.ran law (fun _ _ _ hg => hg) (law.retire _ device session r running
      (h.law device session (owningSession_eq_ok_iff.mp found).2))

theorem Obeys.afterRetirements (law : RetirementLaw choices P) (h : l.Obeys choices P)
    (rs : List Retirement) : (rs.foldl Layer.afterRetirement l).Obeys choices P := by
  induction rs generalizing l with
  | nil => exact h
  | cons r rs ih => exact ih (h.afterRetirement law r)

theorem Obeys.drained (law : RetirementLaw choices P) (h : l.Obeys choices P) :
    l.drained.Obeys choices P :=
  (h.pending []).afterRetirements law l.pending

theorem Obeys.afterDestroy (law : RetirementLaw choices P) (h : l.Obeys choices P)
    (device : Handle) : (l.afterDestroy device).Obeys choices P := by
  unfold Layer.afterDestroy
  split
  · exact h
  · have owned : ∀ g d : Handle, (l.owners.filter fun _ owner => owner ≠ device)[g]? = some d →
        l.owners[g]? = some d ∧ d ≠ device := fun g d hg => by
      rw [Std.ExtTreeMap.getElem?_filter', Option.filter_eq_some_iff] at hg
      exact ⟨hg.1, by simpa using hg.2⟩
    refine ⟨h.chosen, fun d s hd => ?_, fun g d hg => ?_⟩
    · rw [Handle.getElem?_erase] at hd
      split at hd
      · cases hd
      · exact law.lose _ _ d s (fun g hg => (owned g d hg).1) (h.law d s hd)
    · obtain ⟨hg, away⟩ := owned g d hg
      show ∃ s, (l.sessions.erase device)[d]? = some s
      rw [Handle.getElem?_erase, if_neg away]
      exact h.live g d hg

/-- Validation keeps a law if it does so on the session that the call is about. -/
theorem Obeys.validated (law : RetirementLaw choices P) (h : l.Obeys choices P) (call : Call)
    (keeps : ∀ device session, l.sessionFor call = .ok (device, session) →
      ¬session.halted = true → P l.owners device session →
      (∀ h, call.scope = .owner h → l.owners[h]? = some device) →
      let o := (Trackers.validate l.owners device call).on session.trackers
      P (givenUp l.owners o.value) device (session.ran choices o)) :
    (l.afterValidation call).Obeys choices P := by
  rcases l.afterValidation_cases call with same | ⟨device, session, found, running, ran⟩
  · rw [same]
    exact h
  · obtain ⟨hs, owner⟩ := session_of_call found
    rw [ran]
    exact h.ran law (fun _ _ _ hg => (getElem?_givenUp.mp hg).1)
      (keeps device session found running (h.law device session hs) owner)

/-- What a successful call enters keeps a law if it does so on the session that the call
is about. -/
theorem Obeys.recorded (law : RetirementLaw choices P) (h : l.Obeys choices P) (call : Call)
    (keeps : ∀ device session, ¬session.halted = true → P l.owners device session →
      let o := (Trackers.recordCreation device call).on session.trackers
      P (gainedBy l.owners device o.value) device (session.ran choices o)) :
    (l.afterRecord call).Obeys choices P := by
  rcases l.afterRecord_cases call with same | ⟨device, session, found, running, ran⟩
  · rw [same]
    exact h
  · rw [ran]
    refine Obeys.drained law (Obeys.pending (h.ran law (fun g d away hg => ?_)
      (keeps device session running (h.law device session (session_of_call found).1))) _)
    rcases getElem?_gainedBy hg with old | ⟨here, -⟩
    · exact old
    · exact absurd here away

/-- A new session keeps a law that holds of it. -/
theorem Obeys.created (law : RetirementLaw choices P) (h : l.Obeys choices P) (device : Handle)
    (empty : (∀ h : Handle, l.owners[h]? ≠ some device) →
      P l.owners device ⟨.empty, false⟩) : (l.afterCreate device).Obeys choices P := by
  unfold Layer.afterCreate
  split
  next new =>
    refine h.put law rfl (fun g => getElem?_put .empty g) (fun _ _ _ hg => hg)
      (empty fun g hg => ?_)
    obtain ⟨s, hs⟩ := h.live g device hg
    rw [new_of_checkNewDevice new] at hs
    cases hs
  · exact h

/-- The answer to a call creates a session, or enters what the call has created. -/
theorem Obeys.answered (law : RetirementLaw choices P) (h : l.Obeys choices P) (call : Call)
    (result : CallResult)
    (empty : ∀ device, (∀ h : Handle, l.owners[h]? ≠ some device) →
      P l.owners device ⟨.empty, false⟩)
    (keeps : ∀ device session, ¬session.halted = true → P l.owners device session →
      let o := (Trackers.recordCreation device call).on session.trackers
      P (gainedBy l.owners device o.value) device (session.ran choices o)) :
    (l.afterAnswer call result).Obeys choices P := by
  unfold Layer.afterAnswer
  split
  · exact h.created law _ (empty _)
  · exact h
  · exact h.recorded law call keeps
  · exact h

theorem Obeys.afterValidation (law : SessionLaw choices P may) (h : l.Obeys choices P)
    (call : Call) (ok : ∀ device session, l.sessionFor call = .ok (device, session) →
      ¬session.halted = true → may l.owners device session.trackers call) :
    (l.afterValidation call).Obeys choices P :=
  h.validated law.toRetirementLaw call fun device session found running hp owner =>
    law.validate _ device session call running hp (ok device session found running) owner

theorem Obeys.afterAnswer (law : SessionLaw choices P may) (h : l.Obeys choices P) (call : Call)
    (result : CallResult) : (l.afterAnswer call result).Obeys choices P :=
  h.answered law.toRetirementLaw call result (law.empty l.owners) fun device session =>
    law.record l.owners device session call

end Laws

end Layer

end GpuAudit
