import GpuAudit.Proofs.Separation

/-!
# The view of one device

Two layers are compared.  The clients of all devices use the one, and only the client of one
device the other.  The second is a `View` of the first: it has the session of that device and
what the device owns, and nothing else.

A call of the device runs in both layers, and each step of its hooks `Respects` the view: it
gives the same answer in both, and leaves a view.  This takes that what the hooks look up in
the owners belongs to no other device.  For the retirements that are still to come the view
says so itself, since these are looked up after the owners have changed.
-/

namespace GpuAudit

/-! ## What is read of the owners -/

theorem checkMemoryDevice_congr {owners owners' : Owners} {memory : Handle}
    (same : owners'[memory]? = owners[memory]?) (device resource : Handle) :
    checkMemoryDevice owners' device resource memory =
      checkMemoryDevice owners device resource memory := by
  unfold checkMemoryDevice
  rw [same]

theorem forM_congr {α : Type} {f g : α → Track Trackers Unit} : ∀ {as : List α},
    (∀ a ∈ as, f a = g a) → as.forM f = as.forM g
  | [], _ => rfl
  | a :: as, same => by
      obtain ⟨here, rest⟩ := List.forall_mem_cons.mp same
      show (f a >>= fun _ => as.forM f) = g a >>= fun _ => as.forM g
      rw [here, forM_congr rest]

/-- Validation asks only for the owners of the memory to bind. -/
theorem Trackers.validate_congr {owners owners' : Owners} {call : Call}
    (same : ∀ memory ∈ call.binds, owners'[memory]? = owners[memory]?) (device : Handle) :
    validate owners' device call = validate owners device call := by
  cases call with
  | bindBufferMemory _ buffer memory offset =>
      exact congrArg (fun answer => validate.nothing do
        Track.ofExcept answer
        bind buffer memory offset .buffer)
        (checkMemoryDevice_congr (same memory (List.mem_singleton_self _)) device buffer)
  | bindImageMemory _ image memory offset =>
      exact congrArg (fun answer => validate.nothing do
        Track.ofExcept answer
        bind image memory offset .image)
        (checkMemoryDevice_congr (same memory (List.mem_singleton_self _)) device image)
  | queueBindSparse queue binds =>
      have checks : (binds.forM fun b => b.memory.forM fun memory => Track.ofExcept
          (checkMemoryDevice owners' device b.resource memory) : Track Trackers Unit) =
          binds.forM fun b => b.memory.forM fun memory => Track.ofExcept
            (checkMemoryDevice owners device b.resource memory) := forM_congr fun b hb => by
        cases known : b.memory with
        | none => rfl
        | some memory => exact congrArg Track.ofExcept (checkMemoryDevice_congr
            (same memory (List.mem_filterMap.mpr ⟨b, hb, known⟩)) device b.resource)
      exact congrArg (fun checked => validate.nothing do
        discard (Track.query (·.queues.queue queue))
        checked
        bindSparse binds) checks
  | _ => rfl

namespace Layer

variable {l k : Layer} {device : Handle} {session : Session} {call : Call}
  {rs rs' rs'' : List Retirement} {r : Retirement}

/-! ## A layer for one device -/

/-- The second layer has the session of a device and what it owns, and nothing else.  The
retirements that are still to come are on its queues. -/
structure View (device : Handle) (rs : List Retirement) (l k : Layer) : Prop where
  /-- The choices of the user. -/
  config : k.config = l.config
  /-- There is the session of the device only. -/
  sessions : ∀ d : Handle, k.sessions[d]? = if d = device then l.sessions[d]? else none
  /-- There is only what the device owns. -/
  owned : ∀ g d : Handle, k.owners[g]? = some d ↔ l.owners[g]? = some d ∧ d = device
  /-- The same retirements are reported. -/
  pending : k.pending = l.pending
  /-- They are among those to come. -/
  ahead : ∀ r ∈ l.pending, r ∈ rs
  /-- Those are on queues of the device, if anybody owns them. -/
  routed : ∀ r ∈ rs, ∀ owner ∈ l.owners[r.queue]?, owner = device

theorem view_start (config : Config) : View device [] (start config) (start config) where
  config := rfl
  sessions d := by simp [start]
  owned g d := by simp [start]
  pending := rfl
  ahead := fun _ hr => nomatch hr
  routed := fun _ hr => nomatch hr

theorem View.idle (h : View device [] l k) : l.pending = [] ∧ k.pending = [] := by
  have none : l.pending = [] := List.eq_nil_iff_forall_not_mem.mpr fun r hr => nomatch h.ahead r hr
  exact ⟨none, h.pending.trans none⟩

/-! ## What is found in a view -/

/-- What no other device owns has the same owner. -/
theorem View.owner_eq (h : View device rs l k) {g : Handle}
    (own : ∀ owner ∈ l.owners[g]?, owner = device) : k.owners[g]? = l.owners[g]? :=
  Option.ext fun d => (h.owned g d).trans ⟨And.left, fun ho => ⟨ho, own d ho⟩⟩

theorem View.deviceSession (h : View device rs l k) :
    k.deviceSession device = l.deviceSession device := by
  unfold Layer.deviceSession
  rw [h.sessions, if_pos rfl]

theorem View.owningSession (h : View device rs l k) {object : Handle}
    (own : ∀ owner ∈ l.owners[object]?, owner = device) :
    k.owningSession object = l.owningSession object := by
  unfold Layer.owningSession
  rw [h.owner_eq own]
  cases known : l.owners[object]? with
  | none => rfl
  | some d =>
      obtain rfl := own d known
      exact h.deviceSession

theorem View.sessionFor (h : View device rs l k) (addresses : l.Addresses ⟨device, call⟩) :
    k.sessionFor call = l.sessionFor call := by
  unfold Layer.sessionFor
  unfold Addresses at addresses
  cases scope : call.scope with
  | device d =>
      rw [scope] at addresses
      obtain rfl : d = device := addresses
      exact h.deviceSession
  | owner object =>
      rw [scope] at addresses
      exact h.owningSession addresses

theorem View.checkNewDevice (h : View device rs l k) :
    k.checkNewDevice device = l.checkNewDevice device := by
  unfold Layer.checkNewDevice
  simp only [Std.ExtTreeMap.contains_eq_isSome_getElem?, h.sessions, if_true]

/-! ## What changes in a view -/

theorem View.put (h : View device rs l k) (session : Session) (t : Trackers) :
    View device rs (l.put device session t) (k.put device session t) where
  __ := h
  sessions d := by
    rw [getElem?_put, getElem?_put, h.sessions]
    split <;> rfl

theorem View.concluded (h : View device rs l k) (outcome : Except Violation Unit) :
    View device rs (l.concluded device outcome) (k.concluded device outcome) where
  config := by rw [config_concluded, config_concluded, h.config]
  sessions d := by
    rw [getElem?_concluded, getElem?_concluded, h.sessions, h.config]
    split <;> rfl
  owned g d := by
    rw [owners_concluded, owners_concluded]
    exact h.owned g d
  pending := by rw [pending_concluded, pending_concluded, h.pending]
  ahead := by
    rw [pending_concluded]
    exact h.ahead
  routed := by
    rw [owners_concluded]
    exact h.routed

/-- Both layers wait for the same retirements. -/
theorem View.waiting (h : View device rs l k) {pending : List Retirement}
    (ahead : ∀ r ∈ pending, r ∈ rs) :
    View device rs { l with pending } { k with pending } where
  __ := h
  pending := rfl
  ahead := ahead

theorem View.implies (h : View device rs l k) :
    View device rs { l with pending := l.pending ++ rs } { k with pending := k.pending ++ rs } := by
  rw [h.pending]
  exact h.waiting fun r hr => (List.mem_append.mp hr).elim (h.ahead r) id

/-- No retirement is to come if none is reported. -/
theorem View.narrow (h : View device rs l k) (idle : l.pending = []) : View device [] l k where
  __ := h
  ahead r hr := by
    rw [idle] at hr
    exact hr
  routed := fun _ hr => nomatch hr

/-- Handles are given up in both layers. -/
theorem View.released (h : View device rs l k) (gone : List Handle) :
    View device rs { l with owners := gone.foldl (·.erase ·) l.owners }
      { k with owners := gone.foldl (·.erase ·) k.owners } where
  __ := h
  owned g d := by
    simp only [Handle.getElem?_eraseAll]
    split
    next => simp
    next => exact h.owned g d
  routed r hr owner ho := by
    simp only [Handle.getElem?_eraseAll] at ho
    split at ho
    next => cases ho
    next => exact h.routed r hr owner ho

/-- The device gains handles in both layers. -/
theorem View.gained (h : View device rs l k) (new : List Handle) :
    View device rs { l with owners := new.foldl (·.insert · device) l.owners }
      { k with owners := new.foldl (·.insert · device) k.owners } where
  __ := h
  owned g d := by
    simp only [Handle.getElem?_insertAll]
    split
    next => simp [eq_comm]
    next => exact h.owned g d
  routed r hr owner ho := by
    simp only [Handle.getElem?_insertAll] at ho
    split at ho
    next => exact (Option.some.inj ho).symm
    next => exact h.routed r hr owner ho

/-- The session of the device and all that it owns are struck out in both layers. -/
theorem View.ended (h : View device rs l k) : View device rs
    { l with
      sessions := l.sessions.erase device
      owners := l.owners.filter fun _ owner => owner ≠ device }
    { k with
      sessions := k.sessions.erase device
      owners := k.owners.filter fun _ owner => owner ≠ device } where
  __ := h
  sessions d := by
    simp only [Handle.getElem?_erase, h.sessions]
    split <;> rfl
  owned g d := by
    simp only [Std.ExtTreeMap.getElem?_filter', Option.filter_eq_some_iff, h.owned,
      decide_eq_true_eq]
    exact ⟨fun he => absurd he.1.2 he.2, fun he => absurd he.2 he.1.2⟩
  routed r hr owner ho := by
    simp only [Std.ExtTreeMap.getElem?_filter'] at ho
    exact h.routed r hr owner (Option.filter_eq_some_iff.mp ho).1

/-! ## Operations that respect the view -/

section Alike

variable {α β : Type} {x : Logged Layer α} {f : α → Logged Layer β}

/-- An operation gives the same answer in both layers and leaves a view. -/
structure Alike (device : Handle) (rs : List Retirement) (x : Logged Layer α) (l k : Layer) :
    Prop where
  /-- The answer. -/
  value : (x.run l).value = (x.run k).value
  /-- The layers after it. -/
  view : View device rs (x.run l).state (x.run k).state

theorem Alike.bind (hx : Alike device rs x l k)
    (hf : Alike device rs' (f (x.run l).value) (x.run l).state (x.run k).state) :
    Alike device rs' (x >>= f) l k where
  value := by
    show _ = ((f (x.run k).value).run (x.run k).state).value
    rw [← hx.value]
    exact hf.value
  view := by
    show View device rs' _ ((f (x.run k).value).run (x.run k).state).state
    rw [← hx.value]
    exact hf.view

/-- An operation runs alike in every layer and its view; some retirements are to come before
it, and some after it. -/
def Respects (device : Handle) (rs rs' : List Retirement) (x : Logged Layer α) : Prop :=
  ∀ l k, View device rs l k → Alike device rs' x l k

theorem Respects.bind (hx : Respects device rs rs' x) (hf : ∀ a, Respects device rs' rs'' (f a)) :
    Respects device rs rs'' (x >>= f) := fun l k h =>
  (hx l k h).bind (hf _ _ _ (hx l k h).view)

/-- What is done with the layer is the same as what is done with the view. -/
theorem alike_get {f : Layer → Logged Layer β} (same : f k = f l) (hf : Alike device rs (f l) l k) :
    Alike device rs (get >>= f) l k where
  value := by
    show _ = ((f k).run k).value
    rw [same]
    exact hf.value
  view := by
    show View device rs _ ((f k).run k).state
    rw [same]
    exact hf.view

theorem respects_pure (a : α) : Respects device rs rs (pure a) := fun _ _ h => ⟨rfl, h⟩

theorem respects_leave (notes : List Note) : Respects device rs rs (Logged.leave notes) :=
  fun _ _ h => ⟨rfl, h⟩

theorem respects_modify {g : Layer → Layer}
    (keeps : ∀ l k, View device rs l k → View device rs (g l) (g k)) :
    Respects device rs rs (modify g) := fun l k h => ⟨rfl, keeps l k h⟩

theorem respects_runOn (session : Session) (y : Track Trackers α) :
    Respects device rs rs (runOn device session y) := fun _ _ h =>
  ⟨rfl, h.put session (y.on session.trackers).state⟩

theorem View.conclude_value (h : View device rs l k) (d : Option Handle)
    (outcome : Except Violation Unit) (warnings : List Diagnostic) :
    ((conclude d outcome warnings).run l).value = ((conclude d outcome warnings).run k).value := by
  cases outcome with
  | ok u =>
      show l.config.validation.verdict warnings = k.config.validation.verdict warnings
      rw [h.config]
  | error v => rw [conclude_error_value, conclude_error_value, h.config]

theorem respects_conclude (outcome : Except Violation Unit) (warnings : List Diagnostic) :
    Respects device rs rs (conclude (some device) outcome warnings) := fun _ _ h =>
  ⟨h.conclude_value _ outcome warnings, by
    rw [conclude_state, conclude_state]
    exact h.concluded outcome⟩

theorem respects_report (outcome : Except Violation Unit) (warnings : List Diagnostic) :
    Respects device rs rs (conclude none outcome warnings) := fun _ _ h =>
  ⟨h.conclude_value _ outcome warnings, by
    rw [conclude_none_state, conclude_none_state]
    exact h⟩

end Alike

/-! ## Hooks respect the view -/

theorem respects_applyRetirement (hr : r ∈ rs) : Respects device rs rs (applyRetirement r) := by
  intro l k h
  have routed := h.routed r hr
  unfold applyRetirement
  refine alike_get (by simp only [h.owningSession routed]) ?_
  cases found : l.owningSession r.queue with
  | error v => exact respects_report _ _ l k h
  | ok entry =>
      obtain ⟨d, session⟩ := entry
      obtain rfl : d = device := routed d (owningSession_eq_ok_iff.mp found).1
      by_cases halted : session.halted = true
      · simp only [if_pos halted]
        exact respects_pure _ l k h
      · simp only [if_neg halted]
        exact (respects_runOn session _).bind (fun _ => respects_conclude _ _) l k h

theorem respects_retireAll : ∀ {due : List Retirement}, (∀ r ∈ due, r ∈ rs) → ∀ v : Verdict,
    Respects device rs rs (retireAll due v)
  | [], _, v => respects_pure v
  | r :: due, routed, v => by
      obtain ⟨here, rest⟩ := List.forall_mem_cons.mp routed
      unfold retireAll
      rw [List.foldlM_cons]
      exact ((respects_applyRetirement here).bind fun _ => respects_pure _).bind
        (respects_retireAll rest)

/-- All that is reported is applied. -/
theorem respects_processCompletions : Respects device rs [] processCompletions := by
  intro l k h
  have applied : Alike device rs processCompletions l k := by
    unfold processCompletions
    refine alike_get (by simp only [h.pending]) ?_
    exact (respects_modify fun _ _ h => h.waiting (List.forall_mem_nil _)).bind
      (fun _ => respects_retireAll h.ahead .pass) l k h
  refine ⟨applied.value, applied.view.narrow ?_⟩
  rw [processCompletions_state, pending_drained]

/-- A call of the device is validated. -/
theorem View.validateCall (h : View device rs l k) (addresses : l.Addresses ⟨device, call⟩)
    (binds : ∀ memory ∈ call.binds, ∀ owner ∈ l.owners[memory]?, owner = device) :
    Alike device rs (Layer.validateCall call) l k := by
  have same : Trackers.validate k.owners device call = Trackers.validate l.owners device call :=
    Trackers.validate_congr (fun memory hm => h.owner_eq (binds memory hm)) device
  unfold Layer.validateCall
  refine alike_get ?_ ?_
  · rw [h.sessionFor addresses]
    cases found : l.sessionFor call with
    | error v => rfl
    | ok entry =>
        obtain ⟨d, session⟩ := entry
        obtain rfl := addresses.about found
        simp only [same]
  · cases found : l.sessionFor call with
    | error v => exact respects_report _ _ l k h
    | ok entry =>
        obtain ⟨d, session⟩ := entry
        obtain rfl := addresses.about found
        by_cases halted : session.halted = true
        · simp only [if_pos halted]
          exact respects_pure _ l k h
        · simp only [if_neg halted]
          refine (respects_runOn session _).bind (fun answer => ?_) l k h
          obtain ⟨outcome, warnings⟩ := answer
          have concluding : ∀ message, Respects d rs rs (do
              log .debug message
              conclude (some d) (outcome.map fun _ => ()) warnings) := fun message =>
            (respects_leave _).bind fun _ => respects_conclude _ _
          cases outcome with
          | error v => exact concluding _
          | ok gone =>
              exact (respects_modify fun _ _ h => h.released gone).bind fun _ => concluding _

/-- The device ends. -/
theorem respects_destroyDevice : Respects device rs rs (Layer.destroyDevice device) := by
  intro l k h
  unfold Layer.destroyDevice
  refine alike_get (by rw [h.deviceSession]) ?_
  cases found : l.deviceSession device with
  | error v => exact respects_report _ _ l k h
  | ok entry =>
      refine (respects_modify fun _ _ h => h.ended).bind (fun _ => ?_) l k h
      have telling : ∀ leaks : List Violation, Respects device rs rs (do
          log .info s!"stopped tracking {device} ({leaks.length} leaked allocation(s))"
          conclude none (.ok ()) (leaks.map (·.toDiagnostic))) := fun leaks =>
        (respects_leave _).bind fun _ => respects_report _ _
      split
      · exact (respects_pure _).bind telling
      · exact (respects_leave _).bind fun _ => (respects_pure _).bind telling

/-- What the hook before a call of the device does about the call itself. -/
theorem View.own (h : View device rs l k) (addresses : l.Addresses ⟨device, call⟩)
    (binds : ∀ memory ∈ call.binds, ∀ owner ∈ l.owners[memory]?, owner = device) :
    Alike device rs (Layer.own call) l k := by
  have validated := h.validateCall addresses binds
  cases call with
  | createDevice d =>
      obtain rfl : d = device := addresses
      exact alike_get (by rw [h.checkNewDevice]) (respects_report _ _ l k h)
  | destroyDevice d =>
      obtain rfl : d = device := addresses
      exact respects_destroyDevice l k h
  | _ => exact validated

theorem processCompletions_idle (idle : l.pending = []) :
    (processCompletions.run l).state = l := by
  rw [processCompletions_state, drained_idle idle]

/-- The hook before a call of the device. -/
theorem View.preCall (h : View device [] l k) (addresses : l.Addresses ⟨device, call⟩)
    (binds : ∀ memory ∈ call.binds, ∀ owner ∈ l.owners[memory]?, owner = device) :
    Alike device [] (Layer.preCall call) l k := by
  rw [preCall_eq]
  refine (respects_processCompletions l k h).bind ?_
  rw [processCompletions_idle h.idle.1, processCompletions_idle h.idle.2]
  exact (h.own addresses binds).bind (respects_pure _ _ _ (h.own addresses binds).view)

/-- The device is created. -/
theorem respects_createDevice : Respects device rs rs (Layer.createDevice device) := by
  intro l k h
  unfold Layer.createDevice
  refine alike_get (by rw [h.checkNewDevice]) ?_
  split
  · exact ((respects_modify fun _ _ h => h.put ⟨.empty, false⟩ .empty).bind
      fun _ => respects_leave _) l k h
  · exact respects_pure _ l k h

/-- The retirements that a call implies are those to come. -/
theorem View.ahead_of (h : View device [] l k) {due : List Retirement}
    (routed : ∀ r ∈ due, ∀ owner ∈ l.owners[r.queue]?, owner = device) :
    View device due l k where
  __ := h
  ahead r hr := nomatch h.ahead r hr
  routed := routed

/-- What a call of the device has created is entered. -/
theorem View.recordCall (h : View device [] l k) (addresses : l.Addresses ⟨device, call⟩)
    (routed : ∀ session, l.sessions[device]? = some session →
      ∀ r ∈ session.trackers.impliedRetirements call,
        ∀ owner ∈ l.owners[r.queue]?, owner = device) :
    Alike device [] (Layer.recordCall call) l k := by
  unfold Layer.recordCall
  refine alike_get (by rw [h.sessionFor addresses]) ?_
  cases found : l.sessionFor call with
  | error v => exact respects_report _ _ l k h
  | ok entry =>
      obtain ⟨d, session⟩ := entry
      obtain rfl := addresses.about found
      by_cases halted : session.halted = true
      · simp only [if_pos halted]
        exact respects_pure _ l k h
      · simp only [if_neg halted]
        -- What the call implies is found through the owners before it: later there are more.
        have view := h.ahead_of (routed session (session_of_call found).1)
        have concluding : ∀ outcome : Except Violation (List Handle),
            Respects d (session.trackers.impliedRetirements call) [] (do
              let own ← conclude (some d) (outcome.map fun _ => ()) []
              modify fun l =>
                { l with pending := l.pending ++ session.trackers.impliedRetirements call }
              return own.merge (← processCompletions)) := fun outcome =>
          (respects_conclude _ _).bind fun _ => (respects_modify fun _ _ h => h.implies).bind
            fun _ => respects_processCompletions.bind fun _ => respects_pure _
        refine (respects_runOn session _).bind (fun answer => ?_) l k view
        obtain ⟨outcome, warnings⟩ := answer
        cases outcome with
        | error v => exact concluding _
        | ok new => exact (respects_modify fun _ _ h => h.gained new).bind fun _ => concluding _

/-- The hook after a call of the device. -/
theorem View.postCall (h : View device [] l k) (addresses : l.Addresses ⟨device, call⟩)
    (routed : ∀ session, l.sessions[device]? = some session →
      ∀ r ∈ session.trackers.impliedRetirements call,
        ∀ owner ∈ l.owners[r.queue]?, owner = device) :
    Alike device [] (Layer.postCall call .success) l k := by
  have recorded := h.recordCall addresses routed
  cases call with
  | createDevice d =>
      obtain rfl : d = device := addresses
      exact (respects_createDevice.bind fun _ => respects_pure _) l k h
  | destroyDevice => exact respects_pure _ l k h
  | _ => exact recorded

end Layer

end GpuAudit
