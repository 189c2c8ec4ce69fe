import GpuAudit.Proofs.Forwarding
import GpuAudit.Proofs.Tracking

/-!
# What happens to the layer

An `Event` is what happens between a client and a driver: a call, with the answer of the
driver if the call is not skipped, or a completion.  Each event runs one hook or two, and a
layer that events have led to (`Passed`) is one that hooks have led to.

With one device of which nothing is reported (`alone`), events are operations on its books:
a call that is accepted is checked and entered, one that is refused is only checked.
-/

namespace GpuAudit

/-- What happens to the layer. -/
inductive Event
  /-- The client makes a call, and the driver answers if the call is not skipped. -/
  | call (call : Call) (result : CallResult)
  /-- The driver reports a completion. -/
  | report (completion : Completion)
  /-- The reported completions are applied. -/
  | process
  /-- A queue is retired at once. -/
  | retire (r : Retirement)
  /-- The client asks for the status of a fence. -/
  | fenceStatus (device fence : Handle)

/-- The calls that neither begin nor end a device, and from which nothing is learnt about work
in flight. -/
def Call.Plain : Call → Prop
  | .createDevice _ | .destroyDevice _ | .deviceWaitIdle _ | .queueWaitIdle _ => False
  | .getFenceStatus .. | .waitForFences .. => False
  | _ => True

namespace Layer

variable {l : Layer} {config : Config} {device : Handle} {call : Call}
  {allowed : Layer → Event → Prop}

/-- Whether a call is skipped. -/
def skips (l : Layer) (call : Call) : Bool := ((preCall call).run l).value.skipCall

/-- The hooks that an event runs. -/
def hooks (l : Layer) : Event → List Hook
  | .call call result => if l.skips call then [.pre call] else [.pre call, .post call result]
  | .report completion => [.report completion]
  | .process => [.process]
  | .retire r => [.retire r]
  | .fenceStatus device fence => [.fenceStatus device fence]

theorem hooks_skipped {result : CallResult} (skipped : l.skips call = true) :
    l.hooks (.call call result) = [.pre call] := if_pos skipped

theorem hooks_forwarded {result : CallResult} (forwarded : l.skips call = false) :
    l.hooks (.call call result) = [.pre call, .post call result] :=
  if_neg (Bool.not_eq_true _ ▸ forwarded)

/-- The layer after events. -/
def pass (l : Layer) (events : List Event) : Layer :=
  events.foldl (fun l event => l.run (l.hooks event)) l

theorem pass_append (events more : List Event) : l.pass (events ++ more) = (l.pass events).pass more :=
  List.foldl_append

theorem pass_singleton (event : Event) : l.pass [event] = l.run (l.hooks event) := rfl

/-- Events that are allowed where they come. -/
def Admits (allowed : Layer → Event → Prop) : Layer → List Event → Prop
  | _, [] => True
  | l, event :: events => allowed l event ∧ Admits allowed (l.run (l.hooks event)) events

instance decidableAdmits {allowed : Layer → Event → Prop} [∀ l event, Decidable (allowed l event)] :
    ∀ l events, Decidable (Admits allowed l events)
  | _, [] => isTrue trivial
  | l, event :: events =>
      have : Decidable (Admits allowed (l.run (l.hooks event)) events) :=
        decidableAdmits (l.run (l.hooks event)) events
      inferInstanceAs (Decidable (allowed l event ∧ Admits allowed (l.run (l.hooks event)) events))

theorem admits_append {events more : List Event} :
    Admits allowed l (events ++ more) ↔
      Admits allowed l events ∧ Admits allowed (l.pass events) more := by
  induction events generalizing l with
  | nil => exact ⟨fun h => ⟨trivial, h⟩, And.right⟩
  | cons event events ih =>
      show _ ∧ Admits allowed _ (events ++ more) ↔ (_ ∧ _) ∧ _
      rw [ih, and_assoc]
      exact Iff.rfl

/-- The layers that runs of allowed events lead to. -/
inductive Passed (allowed : Layer → Event → Prop) (config : Config) : Layer → Prop
  | start : Passed allowed config (start config)
  | event {l : Layer} (h : Passed allowed config l) (event : Event) (ok : allowed l event) :
      Passed allowed config (l.run (l.hooks event))

/-- The hooks of events lead there as well. -/
theorem Passed.reached {permitted : Layer → Hook → Prop} (h : Passed allowed config l)
    (permits : ∀ k event, allowed k event → k.Allows permitted (k.hooks event)) :
    Reached permitted config l := by
  induction h with
  | start => exact .start
  | event _ event ok ih => exact ih.run (permits _ event ok)

theorem Passed.pass (h : Passed allowed config l) {events : List Event}
    (ok : Admits allowed l events) : Passed allowed config (l.pass events) := by
  induction events generalizing l with
  | nil => exact h
  | cons event events ih => exact ih (h.event event ok.1) ok.2

/-- Events lead to layers that hooks lead to. -/
theorem Reached.pass (h : Reached (fun _ _ => True) config l) (events : List Event) :
    Reached (fun _ _ => True) config (l.pass events) := by
  induction events generalizing l with
  | nil => exact h
  | cons event events ih => exact ih (h.run (allows_any _ _))

/-! ## One device -/

/-- A layer with one device, whose session goes on, and no completion to apply. -/
def alone (config : Config) (owners : Owners) (device : Handle) (t : Trackers) : Layer :=
  ⟨config, (∅ : Std.ExtTreeMap Handle Session).insert device ⟨t, false⟩, owners, []⟩

variable {owners : Owners} {t u : Trackers}

@[simp] theorem getElem?_alone (g : Handle) : (alone config owners device t).sessions[g]? =
    if g = device then some ⟨t, false⟩ else none := by
  unfold alone
  rw [Handle.getElem?_insert]
  simp

/-- Where internal errors do not halt, an operation leaves the session to go on. -/
theorem ran_alone {α : Type} (lenient : config.validation.haltOnInternalError = false)
    (owners' : Owners) (o : Outcome Trackers (Except Violation α)) :
    (alone config owners device t).ran owners' device ⟨t, false⟩ o =
      alone config owners' device o.state := by
  have goes : ∀ (l : Layer) (outcome : Except Violation Unit),
      l.config.validation.haltOnInternalError = false → l.concluded device outcome = l := by
    intro l outcome lenient
    unfold concluded
    cases outcome with
    | ok _ => rfl
    | error v => simp [lenient]
  have view : ∀ g : Handle, ((alone config owners device t).put device ⟨t, false⟩
      o.state).sessions[g]? = (alone config owners' device o.state).sessions[g]? := fun g => by
    rw [getElem?_put, getElem?_alone, getElem?_alone]
    by_cases here : g = device
    · simp [here]
    · simp [here]
  unfold ran
  rw [goes _ _ lenient]
  exact congrArg (fun sessions => (⟨config, sessions, owners', []⟩ : Layer))
    (Std.ExtTreeMap.ext_getElem? fun {g} => view g)

/-- Where internal errors do not halt, the hook before a call checks it. -/
theorem pre_alone (lenient : config.validation.haltOnInternalError = false) (plain : call.Plain)
    (found : (alone config owners device t).sessionFor call = .ok (device, ⟨t, false⟩)) :
    (alone config owners device t).step (.pre call) =
      let o := (Trackers.validate owners device call).on t
      alone config (givenUp owners o.value) device o.state := by
  have own : ∀ l : Layer, l.afterOwn call = l.afterValidation call := fun l => by
    cases call with
    | createDevice | destroyDevice => exact plain.elim
    | _ => rfl
  rw [step_eq]
  show (alone config owners device t).drained.afterOwn call = _
  rw [drained_idle rfl, own, afterValidation_running found Bool.false_ne_true]
  exact ran_alone lenient _ _

/-- And the hook after the call enters what it has created. -/
theorem post_alone (lenient : config.validation.haltOnInternalError = false) (plain : call.Plain)
    (found : (alone config owners device t).sessionFor call = .ok (device, ⟨t, false⟩)) :
    (alone config owners device t).step (.post call .success) =
      let o := (Trackers.recordCreation device call).on t
      alone config (gainedBy owners device o.value) device o.state := by
  have answered : ∀ l : Layer, l.afterAnswer call .success = l.afterRecord call := fun l => by
    cases call with
    | createDevice | destroyDevice => exact plain.elim
    | _ => rfl
  have quiet : t.impliedRetirements call = [] := by
    cases call with
    | deviceWaitIdle | queueWaitIdle | getFenceStatus | waitForFences => exact plain.elim
    | _ => rfl
  rw [step_eq]
  show (alone config owners device t).afterAnswer call .success = _
  rw [answered, afterRecord_entered found Bool.false_ne_true, quiet]
  dsimp only
  rw [ran_alone lenient]
  exact drained_idle rfl

/-- The verdict before a call is the one on the call. -/
theorem skips_alone (plain : call.Plain) : (alone config owners device t).skips call =
    ((validateCall call).run (alone config owners device t)).value.skipCall := by
  have own : own call = validateCall call := by
    cases call with
    | createDevice | destroyDevice => exact plain.elim
    | _ => rfl
  unfold skips
  rw [preCall_idle rfl, own]

/-- Events lead from books to books, with one device all the way. -/
inductive Leads (config : Config) (owners : Owners) (device : Handle) :
    Trackers → List Event → Trackers → Prop
  | nil (t : Trackers) : Leads config owners device t [] t
  | cons {t s u : Trackers} {event : Event} {events : List Event}
      (first : (alone config owners device t).pass [event] = alone config owners device s)
      (rest : Leads config owners device s events u) :
      Leads config owners device t (event :: events) u

variable {s : Trackers} {events more : List Event}

theorem Leads.append (h : Leads config owners device t events s)
    (k : Leads config owners device s more u) :
    Leads config owners device t (events ++ more) u := by
  induction h with
  | nil => exact k
  | cons first _ ih => exact .cons first (ih k)

theorem Leads.pass (h : Leads config owners device t events u) :
    (alone config owners device t).pass events = alone config owners device u := by
  induction h with
  | nil => rfl
  | cons first _ ih => exact (pass_append [_] _).trans (first ▸ ih)

/-- What is allowed with one device is allowed all the way. -/
theorem Leads.admits (h : Leads config owners device t events u)
    (ok : ∀ event ∈ events, ∀ s, allowed (alone config owners device s) event) :
    (alone config owners device t).Admits allowed events := by
  induction h with
  | nil => trivial
  | @cons t s u event events first _ ih =>
      refine ⟨ok event List.mem_cons_self t, ?_⟩
      rw [← pass_singleton, first]
      exact ih fun later he => ok later (List.mem_cons_of_mem _ he)

section Called

variable (lenient : config.validation.haltOnInternalError = false) (plain : call.Plain)
  (found : ∀ t, (alone config owners device t).sessionFor call = .ok (device, ⟨t, false⟩))
  {good : Trackers → Prop}

include lenient plain found

/-- A call that is accepted, and gives up and gains nothing, is checked and entered. -/
theorem called_alone (ends : (Trackers.validate owners device call).Ends t
      (fun released s => released = [] ∧ (Trackers.recordCreation device call).Ends s
        (fun gained u => gained = [] ∧ good u) fun _ _ => False) fun _ _ => False) :
    ∃ u, good u ∧ Leads config owners device t [.call call .success] u := by
  obtain ⟨_, ho, rfl, entered⟩ := ends.answers
  obtain ⟨_, hr, rfl, after⟩ := entered.answers
  have forwarded : (alone config owners device t).skips call = false := by
    rw [skips_alone plain]
    exact validateCall_accepted (found t) Bool.false_ne_true ho
  refine ⟨_, after, .cons ?_ (.nil _)⟩
  rw [pass_singleton, hooks_forwarded forwarded]
  show ((alone config owners device t).step (.pre call)).step (.post call .success) = _
  rw [pre_alone lenient plain (found t)]
  dsimp only
  rw [ho]
  show (alone config owners device _).step (.post call .success) = _
  rw [post_alone lenient plain (found _)]
  dsimp only
  rw [hr]
  rfl

/-- A call that is refused with an error is only checked. -/
theorem refused_alone (suppress : config.validation.suppressOnError = true)
    (ends : (Trackers.validate owners device call).Ends t (fun _ _ => False)
      fun v u => v.toDiagnostic.isError = true ∧ good u) :
    ∃ u, good u ∧ Leads config owners device t [.call call .success] u := by
  obtain ⟨v, hv, error, after⟩ := ends.stops
  have skipped : (alone config owners device t).skips call = true := by
    rw [skips_alone plain, ← Bool.not_eq_false]
    intro forwarded
    have mild := validateCall_forwarded suppress (found t) rfl forwarded hv
    rw [error] at mild
    cases mild
  refine ⟨_, after, .cons ?_ (.nil _)⟩
  rw [pass_singleton, hooks_skipped skipped]
  show (alone config owners device t).step (.pre call) = _
  rw [pre_alone lenient plain (found t)]
  dsimp only
  rw [hv]
  rfl

end Called

theorem found_alone {d : Handle} (scope : call.scope = .device d) (t : Trackers) :
    (alone config owners d t).sessionFor call = .ok (d, ⟨t, false⟩) := by
  unfold sessionFor
  rw [scope]
  exact deviceSession_eq_ok_iff.mpr ⟨rfl, by simp⟩

theorem found_alone_of_owner {object : Handle} (scope : call.scope = .owner object)
    (owner : owners[object]? = some device) (t : Trackers) :
    (alone config owners device t).sessionFor call = .ok (device, ⟨t, false⟩) := by
  unfold sessionFor
  rw [scope]
  exact owningSession_eq_ok_iff.mpr ⟨owner, by simp⟩

end Layer

end GpuAudit
