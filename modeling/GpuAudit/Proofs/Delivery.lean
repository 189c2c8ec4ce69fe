import GpuAudit.Proofs.Hooks
import GpuAudit.Proofs.Warnings

/-!
# Verdicts and deliveries

The verdict of a hook is put together from those on its parts: on each completion that was
reported, on the call, on what it leaves behind.  The listener is served apart from it, at
the end of each part.  Still the two `Agree`: what is delivered is what the verdict lists,
down to the severity that is chosen, and the verdict asks to skip the call if it lists an
error and that is chosen.

A part that reports is `Agreeing`, and a part that does not is `Silent`; either leaves the
choices of the user alone.  Agreeing parts may be merged, and silent ones may stand before
them.
-/

namespace GpuAudit

/-- The diagnostics that are delivered, in order. -/
def deliveries (notes : List Note) : List Diagnostic := notes.filterMap (·.delivery?)

theorem deliveries_append (notes notes' : List Note) :
    deliveries (notes ++ notes') = deliveries notes ++ deliveries notes' :=
  List.filterMap_append

/-- What operations on the books leave is not delivered. -/
theorem deliveries_of_gentle {notes : List Note} (gentle : ∀ n ∈ notes, n.Gentle) :
    deliveries notes = [] :=
  List.filterMap_eq_nil_iff.mpr fun n hn => (gentle n hn).1

namespace Layer

variable {α β : Type} {l : Layer}

/-! ## Parts that report nothing -/

/-- An operation that delivers nothing, and leaves the choices of the user. -/
def Silent (x : Logged Layer α) : Prop :=
  ∀ l, (x.run l).state.config = l.config ∧ deliveries (x.run l).notes = []

theorem silent_pure (a : α) : Silent (pure a) := fun _ => ⟨rfl, rfl⟩

theorem silent_get : Silent get := fun _ => ⟨rfl, rfl⟩

theorem silent_modify {f : Layer → Layer} (kept : ∀ l, (f l).config = l.config) :
    Silent (modify f) := fun l => ⟨kept l, rfl⟩

theorem silent_log (level : LogLevel) (message : String) : Silent (log level message) :=
  fun _ => ⟨rfl, rfl⟩

theorem silent_halt (device : Handle) : Silent (halt device) := fun _ => ⟨rfl, rfl⟩

theorem silent_leave {notes : List Note} (gentle : ∀ n ∈ notes, n.Gentle) :
    Silent (Logged.leave notes) := fun _ => ⟨rfl, deliveries_of_gentle gentle⟩

theorem Silent.bind {x : Logged Layer α} {f : α → Logged Layer β} (hx : Silent x)
    (hf : ∀ a, Silent (f a)) : Silent (x >>= f) := fun l => by
  obtain ⟨first, nothing⟩ := hx l
  obtain ⟨second, nothing'⟩ := hf (x.run l).value (x.run l).state
  simp only [Logged.run_bind]
  exact ⟨second.trans first, by rw [deliveries_append, nothing, nothing']; rfl⟩

/-- An operation on the books of a session delivers nothing. -/
theorem silent_runOn {x : Track Trackers α} (gentle : x.Gentle) (device : Handle)
    (session : Session) : Silent (runOn device session x) := fun l => by
  have notes : ((runOn device session x).run l).notes =
      (x.on session.trackers).notes.filter (·.warning?.isNone) := List.append_nil _
  refine ⟨rfl, ?_⟩
  rw [notes]
  exact deliveries_of_gentle fun n hn => gentle session.trackers n (List.mem_of_mem_filter hn)

/-! ## Parts that report -/

/-- A verdict and what is delivered beside it agree. -/
structure Agrees (l : Layer) (o : Outcome Layer Verdict) : Prop where
  /-- The diagnostics of the chosen severity or above are delivered, in order. -/
  delivered : deliveries o.notes =
    o.value.diagnostics.filter fun d => l.config.validation.minSeverity ≤ d.severity
  /-- The call is to be skipped if there is an error among the diagnostics, and that is
  chosen. -/
  skips : o.value.skipCall = true ↔
    l.config.validation.suppressOnError = true ∧ ∃ d ∈ o.value.diagnostics, d.isError = true
  /-- The choices stay. -/
  chosen : o.state.config = l.config

/-- An operation whose verdict agrees with what it delivers. -/
def Agreeing (x : Logged Layer Verdict) : Prop := ∀ l : Layer, l.Agrees (x.run l)

theorem agreeing_pass : Agreeing (pure Verdict.pass) := fun l =>
  ⟨rfl, by simp [Verdict.pass], rfl⟩

/-- Before a report anything silent may stand. -/
theorem Silent.agreeing {x : Logged Layer α} {f : α → Logged Layer Verdict} (hx : Silent x)
    (hf : ∀ a, Agreeing (f a)) : Agreeing (x >>= f) := fun l => by
  obtain ⟨first, nothing⟩ := hx l
  obtain ⟨delivered, skips, chosen⟩ := hf (x.run l).value (x.run l).state
  simp only [Logged.run_bind]
  refine ⟨?_, ?_, chosen.trans first⟩
  · rw [deliveries_append, nothing, List.nil_append, delivered, first]
  · rw [skips, first]

/-- Two reports, merged into one. -/
theorem Agreeing.merge {x y : Logged Layer Verdict} (hx : Agreeing x) (hy : Agreeing y) :
    Agreeing (do return (← x).merge (← y)) := fun l => by
  obtain ⟨delivered, skips, chosen⟩ := hx l
  obtain ⟨delivered', skips', chosen'⟩ := hy (x.run l).state
  rw [chosen] at delivered' skips' chosen'
  simp only [Logged.run_bind, Logged.run_pure, List.append_nil]
  refine ⟨?_, ?_, chosen'⟩
  · rw [deliveries_append, delivered, delivered']
    exact (List.filter_append ..).symm
  · show ((x.run l).value.skipCall || _) = true ↔ _
    rw [Bool.or_eq_true, skips, skips', ← and_or_left]
    simp only [Verdict.merge, List.mem_append, or_and_right, exists_or]

/-- What has been found is delivered, and makes the verdict. -/
theorem agrees_report {x : Logged Layer (List Diagnostic)} (hx : Silent x) (l : Layer) :
    l.Agrees (Logged.run (do
      let found ← x
      Logged.leave ((l.config.validation.delivered found).map .delivery)
      return l.config.validation.verdict found) l) := by
  obtain ⟨chosen, nothing⟩ := hx l
  have all : ∀ ds : List Diagnostic, deliveries (ds.map .delivery) = ds := fun ds => by
    rw [deliveries, List.filterMap_map]
    exact List.filterMap_some
  simp only [Logged.run_bind, Logged.run_leave, Logged.run_pure, List.append_nil]
  refine ⟨?_, ?_, chosen⟩
  · rw [deliveries_append, nothing, all]
    rfl
  · show (l.config.validation.suppressOnError && (x.run l).value.any _) = true ↔ _
    rw [Bool.and_eq_true, List.any_eq_true]
    rfl

/-- Every part of a hook that finds something ends with a report. -/
theorem agreeing_conclude (device : Option Handle) (outcome : Except Violation Unit)
    (warnings : List Diagnostic) : Agreeing (conclude device outcome warnings) := fun l => by
  cases outcome with
  | ok u => exact agrees_report (silent_pure warnings) l
  | error v =>
      have unstopped := silent_pure (warnings ++ [v.toDiagnostic])
      unfold conclude
      by_cases stops : (v.isFatal && l.config.validation.haltOnInternalError) = true
      · simp only [Logged.run_bind, Logged.run_get, stops, if_true]
        cases device with
        | none => exact agrees_report unstopped l
        | some device =>
            exact agrees_report ((silent_log _ _).bind fun _ => (silent_halt device).bind fun _ =>
              unstopped) l
      · simp only [Logged.run_bind, Logged.run_get, stops]
        exact agrees_report unstopped l

/-! ## Completions -/

theorem agreeing_applyRetirement (r : Retirement) : Agreeing (applyRetirement r) := by
  refine silent_get.agreeing fun l => ?_
  cases l.owningSession r.queue with
  | error v => exact agreeing_conclude _ _ _
  | ok found =>
      obtain ⟨device, session⟩ := found
      by_cases halted : session.halted = true
      · simp only [if_pos halted]
        exact agreeing_pass
      · simp only [if_neg halted]
        exact (silent_runOn (Trackers.gentle_retireUpTo r) device session).agreeing fun _ =>
          agreeing_conclude _ _ _

/-- Retirements are applied one after the other, and what each reports is added. -/
theorem Agreeing.retirements : ∀ (rs : List Retirement) {x : Logged Layer Verdict},
    Agreeing x → Agreeing (x >>= rs.foldlM fun v r => return v.merge (← applyRetirement r))
  | [], x, hx => by
      have only : (x >>= fun v => pure v) = x := bind_pure x
      rwa [← only] at hx
  | r :: rs, x, hx => by
      simp only [List.foldlM_cons, ← bind_assoc]
      exact Agreeing.retirements rs (hx.merge (agreeing_applyRetirement r))

theorem agreeing_processCompletions : Agreeing processCompletions := by
  refine silent_get.agreeing fun l => (silent_modify ?_).agreeing fun _ => ?_
  · exact fun _ => rfl
  · exact agreeing_pass.retirements l.pending

/-! ## Hooks -/

theorem agreeing_destroyDevice (device : Handle) : Agreeing (destroyDevice device) := by
  refine silent_get.agreeing fun l => ?_
  cases l.deviceSession device with
  | error v => exact agreeing_conclude _ _ _
  | ok found =>
      obtain ⟨_, session⟩ := found
      refine (silent_modify ?_).agreeing fun _ => ?_
      · exact fun _ => rfl
      have told (leaks : List Violation) : Agreeing (do
          log .info s!"stopped tracking {device} ({leaks.length} leaked allocation(s))"
          conclude none (.ok ()) (leaks.map (·.toDiagnostic))) :=
        (silent_log _ _).agreeing fun _ => agreeing_conclude _ _ _
      by_cases halted : session.halted = true
      · simp only [if_pos halted]
        exact told []
      · simp only [if_neg halted]
        exact (silent_leave (MemoryTracker.gentle_leaks device _)).agreeing fun _ => told _

theorem agreeing_validateCall (call : Call) : Agreeing (validateCall call) := by
  refine silent_get.agreeing fun l => ?_
  cases l.sessionFor call with
  | error v => exact agreeing_conclude _ _ _
  | ok found =>
      obtain ⟨device, session⟩ := found
      by_cases halted : session.halted = true
      · simp only [if_pos halted]
        exact agreeing_pass
      · simp only [if_neg halted]
        refine Silent.agreeing (silent_runOn ?_ device session) fun a => ?_
        · exact Trackers.gentle_validate l.owners device call
        obtain ⟨outcome, warnings⟩ := a
        have told (word : String) : Agreeing (do
            log .debug s!"pre {call.name}: {word}"
            conclude (some device) (outcome.map fun _ => ()) warnings) :=
          (silent_log _ _).agreeing fun _ => agreeing_conclude _ _ _
        cases outcome with
        | ok released =>
            refine (silent_modify ?_).agreeing fun _ => ?_
            · exact fun _ => rfl
            · exact told _
        | error v => exact told _

theorem agreeing_own (call : Call) : Agreeing (own call) := by
  cases call
  case createDevice device => exact silent_get.agreeing fun l => agreeing_conclude _ _ _
  case destroyDevice device => exact agreeing_destroyDevice device
  all_goals exact agreeing_validateCall _

theorem agreeing_preCall (call : Call) : Agreeing (preCall call) := by
  rw [preCall_eq]
  exact agreeing_processCompletions.merge (agreeing_own call)

theorem silent_createDevice (device : Handle) : Silent (createDevice device) := by
  refine silent_get.bind fun l => ?_
  split
  · exact (silent_modify fun _ => rfl).bind fun _ => silent_log _ _
  · exact silent_pure _

/-- After its own report the hook takes in the completions that the call implies. -/
theorem agreeing_recordCall (call : Call) : Agreeing (recordCall call) := by
  refine silent_get.agreeing fun l => ?_
  cases l.sessionFor call with
  | error v => exact agreeing_conclude _ _ _
  | ok found =>
      obtain ⟨device, session⟩ := found
      by_cases halted : session.halted = true
      · simp only [if_pos halted]
        exact agreeing_pass
      · simp only [if_neg halted]
        refine Silent.agreeing (silent_runOn ?_ device session) fun a => ?_
        · exact Trackers.gentle_recordCreation device call
        have implied := (silent_modify (f := fun l : Layer =>
          { l with pending := l.pending ++ session.trackers.impliedRetirements call })
          fun _ => rfl).agreeing fun _ => agreeing_processCompletions
        have own := (agreeing_conclude (some device) (a.1.map fun _ => ()) []).merge implied
        obtain ⟨outcome, warnings⟩ := a
        simp only [bind_assoc] at own
        cases outcome with
        | ok gained =>
            refine (silent_modify ?_).agreeing fun _ => ?_
            · exact fun _ => rfl
            · exact own
        | error v => exact own

theorem agreeing_postCall (call : Call) (result : CallResult) :
    Agreeing (postCall call result) := by
  cases result with
  | success =>
      cases call
      case createDevice device =>
        exact (silent_createDevice device).agreeing fun _ => agreeing_pass
      case destroyDevice device => exact agreeing_pass
      all_goals exact agreeing_recordCall _
  | notReady => exact agreeing_pass
  | failure => exact agreeing_pass

/-- In each hook, what is delivered is what the verdict lists, down to the severity that
is chosen, and the verdict asks to skip the call if it lists an error and that is chosen. -/
theorem deliveries_agree (l : Layer) :
    (∀ call, l.Agrees ((preCall call).run l)) ∧
      (∀ call result, l.Agrees ((postCall call result).run l)) ∧
        l.Agrees (processCompletions.run l) :=
  ⟨fun call => agreeing_preCall call l, fun call result => agreeing_postCall call result l,
    agreeing_processCompletions l⟩

end Layer

end GpuAudit
