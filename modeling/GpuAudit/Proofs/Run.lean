import GpuAudit.Proofs.Sessions

/-!
# Runs of the layer

A `Hook` is what drives the layer from outside, and a run is a sequence of hooks in
any order.  `Reached` says that a run, in which every hook was allowed, has led to a
layer.

A law holds after every run when each operation that hooks run on a session keeps it:
`obeys_of_reached` is the theorem.  A property of the books of a device that each of these
operations keeps, whether it halts the session or not, is a `SessionInvariant`, and
`holds_of_reached` says that it holds after every run.

A wait for a fence is a loop of its own.  It drives the layer as hooks do
(`awaitFence_hooks`), and it ends only with what a look at the fence says
(`awaitFence_answer`).
-/

namespace GpuAudit

/-- What drives the layer from outside. -/
inductive Hook
  /-- A call is about to be forwarded to the driver. -/
  | pre (call : Call)
  /-- The driver has answered. -/
  | post (call : Call) (result : CallResult)
  /-- The driver reports a completion. -/
  | report (completion : Completion)
  /-- The reported completions are applied. -/
  | process
  /-- A queue is retired at once. -/
  | retire (r : Retirement)
  /-- The client asks for the status of a fence. -/
  | fenceStatus (device fence : Handle)

/-- Whether a wait for a fence is made of such hooks. -/
def Hook.OfWait : Hook → Prop
  | .report _ | .retire _ | .fenceStatus .. => True
  | _ => False

namespace Layer

variable {l : Layer} {device : Handle} {session : Session} {call : Call}

/-- The layer after a hook. -/
def step (l : Layer) : Hook → Layer
  | .pre call => ((preCall call).run l).state
  | .post call result => ((postCall call result).run l).state
  | .report completion => ((send completion).run l).state
  | .process => (processCompletions.run l).state
  | .retire r => ((retireUpTo r).run l).state
  | .fenceStatus device fence => ((fenceStatus device fence).run l).state

/-- What a hook leaves, in terms of the steps it takes. -/
def after (l : Layer) : Hook → Layer
  | .pre call => l.drained.afterOwn call
  | .post call result => l.afterAnswer call result
  | .report completion => { l with pending := l.pending ++ [completion.retirement] }
  | .process => l.drained
  | .retire r => l.afterRetirement r
  | .fenceStatus .. => l.drained

theorem step_eq (l : Layer) (hook : Hook) : l.step hook = l.after hook := by
  cases hook with
  | pre call => exact preCall_state l call
  | post call result => exact postCall_state l call result
  | report completion => rfl
  | process => exact processCompletions_state l
  | retire r => exact retireUpTo_state l r
  | fenceStatus device fence => exact fenceStatus_state l device fence

/-- The layers that runs of allowed hooks lead to. -/
inductive Reached (allowed : Layer → Hook → Prop) (config : Config) : Layer → Prop
  | start : Reached allowed config (start config)
  | step {l : Layer} (h : Reached allowed config l) (hook : Hook) (ok : allowed l hook) :
      Reached allowed config (l.step hook)

/-- No allocation has more links than can be counted. -/
def Counted (l : Layer) : Prop :=
  ∀ (device : Handle) (session : Session), l.sessions[device]? = some session →
    session.trackers.memory.Counted

/-- A property of the books of a device, with the owners of handles, that the loss of
handles and the retirement of work keep. -/
structure RetirementInvariant (P : Owners → Handle → Trackers → Prop) : Prop where
  /-- A device may lose handles. -/
  lose : ∀ (owners owners' : Owners) device t,
    (∀ h : Handle, owners'[h]? = some device → owners[h]? = some device) →
    P owners device t → P owners' device t
  /-- Retirement keeps it. -/
  retire : ∀ owners device t r, P owners device t →
    P owners device ((Trackers.retireUpTo r).on t).state

/-- A property of the books of a device, with the owners of handles, that every
operation on a session keeps.  Validation keeps it for the calls that `may` admits. -/
structure SessionInvariant (P : Owners → Handle → Trackers → Prop)
    (may : Owners → Handle → Trackers → Call → Prop) : Prop extends RetirementInvariant P where
  /-- It holds of empty books. -/
  empty : ∀ owners device, (∀ h : Handle, owners[h]? ≠ some device) → P owners device .empty
  /-- An admitted call keeps it. -/
  validate : ∀ (owners : Owners) device t call, P owners device t → may owners device t call →
    (∀ h, call.scope = .owner h → owners[h]? = some device) →
    P (givenUp owners ((Trackers.validate owners device call).on t).value) device
      ((Trackers.validate owners device call).on t).state
  /-- What a successful call enters keeps it. -/
  record : ∀ (owners : Owners) device t call, P owners device t →
    P (gainedBy owners device ((Trackers.recordCreation device call).on t).value) device
      ((Trackers.recordCreation device call).on t).state

/-- A property holds of the books of every session, and only devices with a session
own anything. -/
structure Holds (P : Owners → Handle → Trackers → Prop) (l : Layer) : Prop where
  /-- The property holds. -/
  books : ∀ (device : Handle) (session : Session), l.sessions[device]? = some session →
    P l.owners device session.trackers
  /-- Owners have a session. -/
  live : ∀ h device : Handle, l.owners[h]? = some device →
    ∃ session, l.sessions[device]? = some session

/-! ## Steps keep laws -/

section Laws

variable {choices : ValidationConfig} {P : Owners → Handle → Session → Prop}
  {may : Owners → Handle → Trackers → Call → Prop}

/-- One hook keeps a law if the validation of its call and the answer to it do. -/
theorem Obeys.stepped (law : RetirementLaw choices P) (h : l.Obeys choices P) (hook : Hook)
    (validated : ∀ call, hook = .pre call → l.step hook = l.drained.afterValidation call →
      (l.drained.afterValidation call).Obeys choices P)
    (answered : ∀ call result, hook = .post call result →
      (l.afterAnswer call result).Obeys choices P) : (l.step hook).Obeys choices P := by
  rw [step_eq] at validated ⊢
  cases hook with
  | pre call =>
      have hd := h.drained law
      cases call with
      | createDevice device => exact hd
      | destroyDevice device => exact hd.afterDestroy law device
      | _ => exact validated _ rfl rfl
  | post call result => exact answered call result rfl
  | report completion => exact h.pending _
  | process => exact h.drained law
  | retire r => exact h.afterRetirement law r
  | fenceStatus device fence => exact h.drained law

/-- One hook keeps a law, if the call that it validates is admitted. -/
theorem Obeys.step (law : SessionLaw choices P may) (h : l.Obeys choices P) (hook : Hook)
    (ok : ∀ call, hook = .pre call → l.step hook = l.drained.afterValidation call →
      ∀ device session, l.drained.sessionFor call = .ok (device, session) →
        ¬session.halted = true → may l.drained.owners device session.trackers call) :
    (l.step hook).Obeys choices P :=
  h.stepped law.toRetirementLaw hook
    (fun call he validated =>
      (h.drained law.toRetirementLaw).afterValidation law call (ok call he validated))
    fun call result _ => h.afterAnswer law call result

/-- A law holds after every run whose validated calls are admitted. -/
theorem obeys_of_reached {allowed : Layer → Hook → Prop} {config : Config}
    (law : SessionLaw config.validation P may)
    (ok : ∀ l call, l.config.validation = config.validation → allowed l (.pre call) →
      l.step (.pre call) = l.drained.afterValidation call →
      ∀ device session, l.drained.sessionFor call = .ok (device, session) →
        ¬session.halted = true → may l.drained.owners device session.trackers call)
    (h : Reached allowed config l) : l.Obeys config.validation P := by
  induction h with
  | start => exact obeys_start config
  | @step l _ hook allowed ih =>
      refine ih.step law hook fun call he validated => ?_
      subst he
      exact ok l call ih.chosen allowed validated

end Laws

/-! ## Steps keep session invariants -/

section Invariants

variable {P : Owners → Handle → Trackers → Prop} {may : Owners → Handle → Trackers → Call → Prop}

/-- A property of books, as one of sessions, halted or not. -/
abbrev OfBooks (P : Owners → Handle → Trackers → Prop) : Owners → Handle → Session → Prop :=
  fun owners device session => P owners device session.trackers

theorem RetirementInvariant.law (inv : RetirementInvariant P) (choices : ValidationConfig) :
    RetirementLaw choices (OfBooks P) where
  lose owners owners' device session := inv.lose owners owners' device session.trackers
  retire owners device session r _ := inv.retire owners device session.trackers r

theorem SessionInvariant.law (inv : SessionInvariant P may) (choices : ValidationConfig) :
    SessionLaw choices (OfBooks P) may where
  toRetirementLaw := inv.toRetirementInvariant.law choices
  empty := inv.empty
  validate owners device session call _ := inv.validate owners device session.trackers call
  record owners device session call _ := inv.record owners device session.trackers call

theorem Holds.obeys (h : l.Holds P) : l.Obeys l.config.validation (OfBooks P) :=
  ⟨rfl, h.books, h.live⟩

theorem Obeys.holds {choices : ValidationConfig} (h : l.Obeys choices (OfBooks P)) : l.Holds P :=
  ⟨h.law, h.live⟩

theorem Holds.afterRetirement (inv : RetirementInvariant P) (h : l.Holds P) (r : Retirement) :
    (l.afterRetirement r).Holds P := (h.obeys.afterRetirement (inv.law _) r).holds

theorem Holds.pending (h : l.Holds P) (pending : List Retirement) :
    ({ l with pending } : Layer).Holds P := ⟨h.books, h.live⟩

theorem Holds.afterRetirements (inv : RetirementInvariant P) (h : l.Holds P)
    (rs : List Retirement) : (rs.foldl Layer.afterRetirement l).Holds P :=
  (h.obeys.afterRetirements (inv.law _) rs).holds

theorem Holds.drained (inv : RetirementInvariant P) (h : l.Holds P) : l.drained.Holds P :=
  (h.obeys.drained (inv.law _)).holds

/-- A conclusion changes no books. -/
theorem books_concluded (outcome : Except Violation Unit) {g : Handle} {s : Session}
    (hs : l.sessions[g]? = some s) :
    ∃ s', (l.concluded device outcome).sessions[g]? = some s' ∧ s'.trackers = s.trackers := by
  rw [getElem?_concluded, hs]
  split
  · exact ⟨_, rfl, rfl⟩
  · exact ⟨s, rfl, rfl⟩

/-- The books of a running session after one of its calls has been validated. -/
theorem books_afterValidation (hs : l.sessionFor call = .ok (device, session))
    (running : ¬session.halted = true) : ∃ s',
      (l.afterValidation call).sessions[device]? = some s' ∧
        s'.trackers = ((Trackers.validate l.owners device call).on session.trackers).state := by
  refine ⟨session.ran l.config.validation
    ((Trackers.validate l.owners device call).on session.trackers), ?_, rfl⟩
  rw [afterValidation_running hs running]
  exact (getElem?_ran l _ device session _ device).trans (if_pos rfl)

theorem Counted.validated (few : (l.afterValidation call).Counted)
    (hs : l.sessionFor call = .ok (device, session)) (running : ¬session.halted = true) :
    ((Trackers.validate l.owners device call).on session.trackers).state.memory.Counted := by
  obtain ⟨s', hs', he⟩ := books_afterValidation hs running
  exact he ▸ few device s' hs'

theorem holds_start (config : Config) : (start config).Holds P := (obeys_start config).holds

/-- A session invariant holds after every run whose validated calls are admitted. -/
theorem holds_of_reached {allowed : Layer → Hook → Prop} {config : Config}
    (inv : SessionInvariant P may)
    (ok : ∀ l call, allowed l (.pre call) → l.step (.pre call) = l.drained.afterValidation call →
      ∀ device session, l.drained.sessionFor call = .ok (device, session) →
        ¬session.halted = true → may l.drained.owners device session.trackers call)
    (h : Reached allowed config l) : l.Holds P :=
  (obeys_of_reached (inv.law config.validation) (fun l call _ => ok l call) h).holds

end Invariants

/-! ## Given hooks -/

/-- What is decidable of every session is decidable of all. -/
instance decidableSessions (l : Layer) (p : Handle → Session → Prop)
    [∀ device session, Decidable (p device session)] :
    Decidable (∀ (device : Handle) (session : Session),
      l.sessions[device]? = some session → p device session) :=
  decidable_of_iff (∀ entry ∈ l.sessions.toList, p entry.1 entry.2)
    ⟨fun all device session hs =>
        all (device, session) (Std.ExtTreeMap.mem_toList_iff_getElem?_eq_some.mpr hs),
      fun all _ he => all _ _ (Std.ExtTreeMap.mem_toList_iff_getElem?_eq_some.mp he)⟩

instance (l : Layer) : Decidable l.Counted :=
  l.decidableSessions fun _ session => session.trackers.memory.Counted

/-- The layer after hooks. -/
def run (l : Layer) (hooks : List Hook) : Layer := hooks.foldl step l

/-- Hooks that are allowed where they come. -/
def Allows (allowed : Layer → Hook → Prop) : Layer → List Hook → Prop
  | _, [] => True
  | l, hook :: hooks => allowed l hook ∧ Allows allowed (l.step hook) hooks

instance decidableAllows {allowed : Layer → Hook → Prop} [∀ l hook, Decidable (allowed l hook)] :
    ∀ l hooks, Decidable (Allows allowed l hooks)
  | _, [] => isTrue trivial
  | l, hook :: hooks =>
      have : Decidable (Allows allowed (l.step hook) hooks) := decidableAllows (l.step hook) hooks
      inferInstanceAs (Decidable (allowed l hook ∧ Allows allowed (l.step hook) hooks))

/-- What is reached by allowed hooks is reached where more is allowed. -/
theorem Reached.mono {allowed allowed' : Layer → Hook → Prop} {config : Config}
    (h : Reached allowed config l) (more : ∀ k hook, allowed k hook → allowed' k hook) :
    Reached allowed' config l := by
  induction h with
  | start => exact .start
  | step _ hook ok ih => exact ih.step hook (more _ hook ok)

theorem allows_any : ∀ (hooks : List Hook) (l : Layer), Allows (fun _ _ => True) l hooks
  | [], _ => trivial
  | hook :: hooks, l => ⟨trivial, allows_any hooks (l.step hook)⟩

/-- Allowed hooks lead to layers that are reached. -/
theorem Reached.run {allowed : Layer → Hook → Prop} {config : Config} :
    ∀ {l : Layer} {hooks : List Hook}, Reached allowed config l → Allows allowed l hooks →
      Reached allowed config (l.run hooks)
  | _, [], h, _ => h
  | _, hook :: _, h, ok => (h.step hook ok.1).run ok.2

/-! ## Waiting for a fence -/

/-- The hooks that a pause runs if it may take so long. -/
def Pause.hooks (limit : Nat) (p : Pause) : List Hook :=
  ((p.receive limit).toList.map fun c => .retire c.retirement) ++ p.queued.map .report

theorem run_append (hooks hooks' : List Hook) : l.run (hooks ++ hooks') = (l.run hooks).run hooks' :=
  List.foldl_append

theorem Pause.ofWait_of_mem {limit : Nat} {p : Pause} {hook : Hook} (h : hook ∈ p.hooks limit) :
    hook.OfWait := by
  rcases List.mem_append.mp h with first | queued
  · obtain ⟨c, -, rfl⟩ := List.mem_map.mp first
    trivial
  · obtain ⟨c, -, rfl⟩ := List.mem_map.mp queued
    trivial

theorem forM_send_state : ∀ (cs : List Completion) (l : Layer),
    (Logged.run (cs.forM send) l).state = l.run (cs.map .report)
  | [], _ => rfl
  | _ :: cs, _ => forM_send_state cs _

theorem rest_state (deadline : Option Nat) (p : Pause) (l : Layer) :
    ((rest deadline p).run l).state =
      l.run (p.hooks (p.limit l.config.fence.pollInterval deadline)) := by
  unfold rest Pause.hooks
  rw [run_append]
  simp only [Logged.run_bind, Logged.run_get]
  cases p.receive (p.limit l.config.fence.pollInterval deadline) with
  | none => exact forM_send_state p.queued l
  | some c =>
      have applied : ((discard (applyRetirement c.retirement) : Logged Layer PUnit).run l).state =
          l.step (.retire c.retirement) := by
        rw [Logged.run_discard, applyRetirement_state, step_eq]
        rfl
      refine (forM_send_state p.queued _).trans ?_
      show ((discard (applyRetirement c.retirement) : Logged Layer PUnit).run l).state.run _ = _
      rw [applied]
      rfl

theorem rest_hooks (deadline : Option Nat) (p : Pause) (l : Layer) :
    ∃ hooks, (∀ hook ∈ hooks, hook.OfWait) ∧ ((rest deadline p).run l).state = l.run hooks :=
  ⟨_, fun _ => Pause.ofWait_of_mem, rest_state deadline p l⟩

/-- A look at a fence where no report waits changes nothing and leaves no notes. -/
theorem fenceStatus_settled (settled : l.pending = []) (device fence : Handle) :
    (fenceStatus device fence).run l = ⟨((fenceStatus device fence).run l).value, l, []⟩ := by
  obtain ⟨config, sessions, owners, pending⟩ := l
  cases settled
  unfold fenceStatus
  simp only [Logged.run_bind]
  split
  · rfl
  · rfl

theorem fenceStatus_value (l : Layer) (device fence : Handle) :
    ((fenceStatus device fence).run l).value =
      (l.drained.deviceSession device).bind (·.2.trackers.queues.fenceStatus fence) := by
  unfold fenceStatus
  simp only [Logged.run_bind, Logged.run_discard, Logged.run_get, processCompletions_state]
  cases l.drained.deviceSession device with
  | error v => rfl
  | ok entry => rfl

/-- A second look at a fence says what the first does. -/
theorem fenceStatus_again (l : Layer) (device fence : Handle) :
    ((fenceStatus device fence).run ((fenceStatus device fence).run l).state).value =
      ((fenceStatus device fence).run l).value := by
  rw [fenceStatus_state, fenceStatus_value, fenceStatus_value]
  have again : l.drained.drained = l.drained := by
    rw [drained, pending_drained]
    exact congrArg (Layer.mk _ _ _) l.pending_drained.symm
  rw [again]

variable {fence : Handle}

/-- One turn of a wait: a look ends it, or the fence is not signaled and the wait goes on after
a pause. -/
theorem awaitFence_cases (deadline : Option Nat) {look : Outcome Layer (Except Violation Bool)}
    (p : Pause) (later : List Pause) (looks : (fenceStatus device fence).run l = look) :
    ((awaitFence device fence deadline (p :: later)).run l =
        ⟨some look.value, look.state, look.notes⟩ ∧
      (look.value = .ok false → ∃ d, deadline = some d ∧ d ≤ p.begins)) ∨
    (look.value = .ok false ∧ (∀ d, deadline = some d → p.begins < d) ∧
      (awaitFence device fence deadline (p :: later)).run l =
        (let paused := (rest deadline p).run look.state
         let next := (awaitFence device fence deadline later).run paused.state
         ⟨next.value, next.state, look.notes ++ (paused.notes ++ next.notes)⟩)) := by
  rw [awaitFence, Logged.run_bind, looks]
  obtain ⟨value, after, notes⟩ := look
  match value with
  | .error v => exact .inl ⟨by simp, nofun⟩
  | .ok true => exact .inl ⟨by simp, nofun⟩
  | .ok false =>
      by_cases late : deadline.any (· ≤ p.begins) = true
      · refine .inl ⟨by simp [late], fun _ => ?_⟩
        cases deadline with
        | none => cases late
        | some d => exact ⟨d, rfl, by simpa using late⟩
      · refine .inr ⟨rfl, ?_, by simp [late]⟩
        rintro d rfl
        simpa using late

/-- A wait drives the layer as hooks do that report completions, retire queues and ask for
the status of a fence, so what holds after every run holds after every wait. -/
theorem awaitFence_hooks (device fence : Handle) (deadline : Option Nat) (pauses : List Pause)
    (l : Layer) : ∃ hooks, (∀ hook ∈ hooks, hook.OfWait) ∧
      ((awaitFence device fence deadline pauses).run l).state = l.run hooks := by
  induction pauses generalizing l with
  | nil => exact ⟨[], fun _ h => absurd h List.not_mem_nil, rfl⟩
  | cons p later ih =>
      have looks : ∀ hook ∈ [Hook.fenceStatus device fence], hook.OfWait := fun hook h =>
        List.mem_singleton.mp h ▸ trivial
      rcases awaitFence_cases deadline p later rfl with ⟨ends, -⟩ | ⟨-, -, goes⟩
      · exact ⟨_, looks, congrArg Outcome.state ends⟩
      · obtain ⟨resting, rests, rested⟩ :=
          rest_hooks deadline p ((fenceStatus device fence).run l).state
        obtain ⟨going, waits, ended⟩ := ih (((fenceStatus device fence).run l).state.run resting)
        refine ⟨[.fenceStatus device fence] ++ (resting ++ going), fun hook h => ?_, ?_⟩
        · rcases List.mem_append.mp h with look | h
          · exact looks hook look
          · exact (List.mem_append.mp h).elim (rests hook) (waits hook)
        · rw [goes, run_append, run_append]
          show ((awaitFence device fence deadline later).run
            ((rest deadline p).run ((fenceStatus device fence).run l).state).state).state = _
          rw [rested]
          exact ended

/-- The answer of a wait is what a look at the fence says then, and it is that the fence is not
signaled only after the deadline. -/
theorem awaitFence_answer {answer : Except Violation Bool} {deadline : Option Nat}
    (pauses : List Pause) :
    ∀ {l : Layer}, ((awaitFence device fence deadline pauses).run l).value = some answer →
      ((fenceStatus device fence).run
        ((awaitFence device fence deadline pauses).run l).state).value = answer ∧
      (answer = .ok false → ∃ d p, deadline = some d ∧ p ∈ pauses ∧ d ≤ p.begins) := by
  induction pauses with
  | nil => exact nofun
  | cons p later ih =>
      intro l h
      rcases awaitFence_cases deadline p later rfl with ⟨ends, late⟩ | ⟨-, -, goes⟩
      · rw [ends] at h ⊢
        cases h
        refine ⟨fenceStatus_again l device fence, fun unsignaled => ?_⟩
        obtain ⟨d, hd, le⟩ := late unsignaled
        exact ⟨d, p, hd, List.mem_cons_self, le⟩
      · rw [goes] at h ⊢
        obtain ⟨again, late⟩ := ih h
        refine ⟨again, fun unsignaled => ?_⟩
        obtain ⟨d, q, hd, hq, le⟩ := late unsignaled
        exact ⟨d, q, hd, List.mem_cons_of_mem p hq, le⟩

/-- Nothing is reported in a pause. -/
def Pause.Quiet (p : Pause) : Prop := (∀ limit, p.receive limit = none) ∧ p.queued = []

theorem Pause.Quiet.rest {p : Pause} (quiet : p.Quiet) (l : Layer) :
    (rest deadline p).run l = ⟨(), l, []⟩ := by
  unfold Layer.rest
  simp only [Logged.run_bind, Logged.run_get, quiet.1, quiet.2]
  rfl

/-- A wait in which nothing is reported, from the first look on, and whose deadline passes. -/
theorem awaitFence_settled {d : Nat} (settled : l.pending = []) :
    ∀ {pauses : List Pause}, (∀ p ∈ pauses, p.Quiet) → (∃ p ∈ pauses, d ≤ p.begins) →
      (awaitFence device fence (some d) pauses).run l =
        ⟨some ((fenceStatus device fence).run l).value, l, []⟩
  | [], _, ⟨_, h, _⟩ => absurd h List.not_mem_nil
  | p :: later, quiet, late => by
      rcases awaitFence_cases (some d) p later
        (fenceStatus_settled settled device fence) with ⟨ends, -⟩ | ⟨-, early, goes⟩
      · exact ends
      · have late : ∃ q ∈ later, d ≤ q.begins := by
          simpa [Nat.not_le.mpr (early d rfl)] using late
        rw [goes, (quiet p List.mem_cons_self).rest]
        exact awaitFence_settled settled (fun q hq => quiet q (List.mem_cons_of_mem p hq)) late

/-- A wait in which nothing is reported and whose deadline passes answers as its first look. -/
theorem awaitFence_quiet {d : Nat} {pauses : List Pause} (quiet : ∀ p ∈ pauses, p.Quiet)
    (late : ∃ p ∈ pauses, d ≤ p.begins) (l : Layer) :
    (awaitFence device fence (some d) pauses).run l =
      (some <$> waitFence device fence).run l := by
  rw [Logged.run_map]
  cases pauses with
  | nil => exact absurd late (by simp)
  | cons p later =>
      rcases awaitFence_cases (some d) p later rfl with ⟨ends, -⟩ | ⟨-, early, goes⟩
      · exact ends
      · have settled : ((fenceStatus device fence).run l).state.pending = [] := by
          rw [fenceStatus_state, pending_drained]
        have late : ∃ q ∈ later, d ≤ q.begins := by
          simpa [Nat.not_le.mpr (early d rfl)] using late
        rw [goes, (quiet p List.mem_cons_self).rest]
        simp only [awaitFence_settled settled (fun q hq => quiet q (List.mem_cons_of_mem p hq)) late,
          fenceStatus_again, List.append_nil]
        rfl

end Layer

end GpuAudit
