import GpuAudit.Proofs.Events
import GpuAudit.Proofs.Fitting

/-!
# Owners are the devices that track

The layer finds the device of a queue or a command buffer, and that of an allocation, in
`owners`, which it keeps beside the books: what a call creates is entered after the driver
has answered, and what a call gives up is struck out before.

Every event that is `Fair` keeps the owners right (`Owned`): a call with its answer, or a
completion.  Two devices must not track the same handle, so a call may create nothing that
another device tracks.  A skipped call is not answered, so errors must skip calls: command
buffers that did not pass their check can be left in the books without an owner.

What a device tracks it owns.  What it owns it tracks, but for command buffers that were
struck out by an operation that stopped half way; where all links are counted, or internal
errors halt sessions, there are none of these, and the owners are `Exact`.
-/

namespace GpuAudit

namespace Layer

variable {l k m : Layer} {config : Config} {device d : Handle} {session : Session} {call : Call}
  {owners : Owners} {sure : Handle → Prop} {allowed : Layer → Event → Prop}

/-! ## What shrinks -/

/-- What a device owns or tracks in the second layer, it did in the first. -/
structure Shrinks (l k : Layer) : Prop where
  /-- Nothing is owned that was not. -/
  owned : ∀ g owner : Handle, k.owners[g]? = some owner → l.owners[g]? = some owner
  /-- Nothing is tracked that was not. -/
  tracked : ∀ (d : Handle) (after : Session), k.sessions[d]? = some after →
    ∀ g, after.trackers.Tracks g → ∃ before, l.sessions[d]? = some before ∧ before.trackers.Tracks g

theorem shrinks_refl (l : Layer) : Shrinks l l :=
  ⟨fun _ _ h => h, fun _ after hs _ ht => ⟨after, hs, ht⟩⟩

theorem Shrinks.trans (h : Shrinks l k) (h' : Shrinks k m) : Shrinks l m :=
  ⟨fun g owner ho => h.owned g owner (h'.owned g owner ho), fun d after hs g ht => by
    obtain ⟨between, hs, ht⟩ := h'.tracked d after hs g ht
    exact h.tracked d between hs g ht⟩

theorem shrinks_pending (l : Layer) (pending : List Retirement) : Shrinks l { l with pending } :=
  ⟨fun _ _ h => h, fun _ after hs _ ht => ⟨after, hs, ht⟩⟩

/-- An operation by which a session gains nothing. -/
theorem shrinks_ran {α : Type} (hs : l.sessions[d]? = some session)
    {o : Outcome Trackers (Except Violation α)}
    (owned : ∀ g owner : Handle, owners[g]? = some owner → l.owners[g]? = some owner)
    (tracked : ∀ g, o.state.Tracks g → session.trackers.Tracks g) :
    Shrinks l (l.ran owners d session o) := by
  refine ⟨fun g owner ho => ?_, fun d' after hs' g ht => ?_⟩
  · rw [owners_ran] at ho
    exact owned g owner ho
  · rw [getElem?_ran] at hs'
    split at hs'
    next here =>
      cases hs'
      exact ⟨session, here ▸ hs, tracked g ht⟩
    next => exact ⟨after, hs', ht⟩

theorem shrinks_afterRetirement (l : Layer) (r : Retirement) : Shrinks l (l.afterRetirement r) := by
  rcases l.afterRetirement_cases r with same | ⟨d, session, found, -, ran⟩
  · rw [same]
    exact shrinks_refl l
  · rw [ran]
    exact shrinks_ran (owningSession_eq_ok_iff.mp found).2 (fun _ _ ho => ho)
      fun _ => (Trackers.keeps_retired session.trackers r).tracked

theorem shrinks_afterRetirements (rs : List Retirement) (l : Layer) :
    Shrinks l (rs.foldl afterRetirement l) := by
  induction rs generalizing l with
  | nil => exact shrinks_refl l
  | cons r rs ih => exact (shrinks_afterRetirement l r).trans (ih _)

theorem shrinks_drained (l : Layer) : Shrinks l l.drained :=
  (shrinks_pending l []).trans (shrinks_afterRetirements l.pending _)

theorem shrinks_afterDestroy (l : Layer) (d : Handle) : Shrinks l (l.afterDestroy d) := by
  refine ⟨fun g owner => owner_of_afterDestroy, fun d' after hs g ht => ?_⟩
  rw [getElem?_afterDestroy] at hs
  split at hs
  · cases hs
  · exact ⟨after, hs, ht⟩

/-- A call that is validated gains nothing. -/
theorem shrinks_afterValidation (chained : l.Holds fun _ _ t => t.resources.Chained) (call : Call) :
    Shrinks l (l.afterValidation call) := by
  rcases l.afterValidation_cases call with same | ⟨d, session, found, -, ran⟩
  · rw [same]
    exact shrinks_refl l
  · obtain ⟨hs, -⟩ := session_of_call found
    have effect := (Trackers.validate_effect (chained.books d session hs) l.owners d call).state
    rw [ran]
    exact shrinks_ran hs (fun _ _ ho => (getElem?_givenUp.mp ho).1) fun _ => effect.tracked

/-- Before a call nothing is gained. -/
theorem shrinks_before (chained : l.Holds fun _ _ t => t.resources.Chained) (call : Call) :
    Shrinks l (l.step (.pre call)) := by
  have validated := (shrinks_drained l).trans
    (shrinks_afterValidation (chained.drained chained_invariant.toRetirementInvariant) call)
  rw [step_eq]
  cases call with
  | createDevice d => exact shrinks_drained l
  | destroyDevice d => exact (shrinks_drained l).trans (shrinks_afterDestroy l.drained d)
  | _ => exact validated

/-! ## Owners -/

/-- What a device tracks it owns, and what it owns it tracks if that is sure. -/
structure Owned (sure : Handle → Prop) (l : Layer) : Prop where
  /-- What a session tracks its device owns. -/
  owner : ∀ (d : Handle) (session : Session), l.sessions[d]? = some session →
    ∀ g, session.trackers.Tracks g → l.owners[g]? = some d
  /-- An owner has a session, which tracks what is sure. -/
  tracker : ∀ g d : Handle, l.owners[g]? = some d → ∃ session, l.sessions[d]? = some session ∧
    (sure g → session.trackers.Tracks g)

theorem owned_start (config : Config) : (start config).Owned sure :=
  ⟨fun _ _ hs => by simp [start] at hs, fun _ _ ho => by simp [start] at ho⟩

theorem Owned.tracks (h : l.Owned sure) (hs : l.sessions[device]? = some session) {g : Handle}
    (owner : l.owners[g]? = some device) (hg : sure g) : session.trackers.Tracks g := by
  obtain ⟨found, hf, tracked⟩ := h.tracker g device owner
  rw [hs] at hf
  cases hf
  exact tracked hg

/-- A session is put in its place, and the owners change for its device alone. -/
theorem Owned.put (h : l.Owned sure) {after : Session}
    (view : ∀ g : Handle, k.sessions[g]? = if g = device then some after else l.sessions[g]?)
    (owner : ∀ g, after.trackers.Tracks g → k.owners[g]? = some device)
    (tracker : ∀ g : Handle, k.owners[g]? = some device → sure g → after.trackers.Tracks g)
    (kept : ∀ (g d : Handle) (other : Session), d ≠ device → l.sessions[d]? = some other →
      other.trackers.Tracks g → k.owners[g]? = some d)
    (old : ∀ g d : Handle, d ≠ device → k.owners[g]? = some d → l.owners[g]? = some d) :
    k.Owned sure where
  owner d session hs g ht := by
    rw [view] at hs
    split at hs
    next here =>
      cases hs
      rw [here]
      exact owner g ht
    next away => exact kept g d session away hs ht
  tracker g d ho := by
    rw [view]
    split
    next here => exact ⟨after, rfl, tracker g (here ▸ ho)⟩
    next away => exact h.tracker g d (old g d away ho)

theorem Owned.ran {α : Type} {owners : Owners} (h : l.Owned sure)
    {o : Outcome Trackers (Except Violation α)}
    (owner : ∀ g, o.state.Tracks g → owners[g]? = some device)
    (tracker : ∀ g : Handle, owners[g]? = some device → sure g → o.state.Tracks g)
    (kept : ∀ (g d : Handle) (other : Session), d ≠ device → l.sessions[d]? = some other →
      other.trackers.Tracks g → owners[g]? = some d)
    (old : ∀ g d : Handle, d ≠ device → owners[g]? = some d → l.owners[g]? = some d) :
    (l.ran owners device session o).Owned sure := by
  have same := l.owners_ran owners device session o
  refine h.put (l.getElem?_ran owners device session o) ?_ ?_ ?_ ?_
  · rw [same]
    exact owner
  · rw [same]
    exact tracker
  · rw [same]
    exact kept
  · rw [same]
    exact old

theorem Owned.pending (h : l.Owned sure) (pending : List Retirement) :
    ({ l with pending } : Layer).Owned sure := ⟨h.owner, h.tracker⟩

theorem Owned.afterRetirement (h : l.Owned sure) (r : Retirement) :
    (l.afterRetirement r).Owned sure := by
  rcases l.afterRetirement_cases r with same | ⟨device, session, found, -, ran⟩
  · rw [same]
    exact h
  · obtain ⟨-, hs⟩ := owningSession_eq_ok_iff.mp found
    have same (g : Handle) :
        ((Trackers.retireUpTo r).on session.trackers).state.Tracks g ↔ session.trackers.Tracks g :=
      (Trackers.keeps_retired session.trackers r).tracks id
    rw [ran]
    exact h.ran (fun g ht => h.owner device session hs g ((same g).mp ht))
      (fun g ho hg => (same g).mpr (h.tracks hs ho hg))
      (fun g d other _ hd ht => h.owner d other hd g ht) fun _ _ _ ho => ho

theorem Owned.afterRetirements (h : l.Owned sure) (rs : List Retirement) :
    (rs.foldl Layer.afterRetirement l).Owned sure := by
  induction rs generalizing l with
  | nil => exact h
  | cons r rs ih => exact ih (h.afterRetirement r)

theorem Owned.drained (h : l.Owned sure) : l.drained.Owned sure :=
  (h.pending []).afterRetirements l.pending

theorem Owned.afterDestroy (h : l.Owned sure) (device : Handle) :
    (l.afterDestroy device).Owned sure := by
  unfold Layer.afterDestroy
  split
  · exact h
  · have owners (g d : Handle) : (l.owners.filter fun _ owner => owner ≠ device)[g]? = some d ↔
        l.owners[g]? = some d ∧ d ≠ device := by
      rw [Std.ExtTreeMap.getElem?_filter', Option.filter_eq_some_iff]
      simp
    refine ⟨fun d session hs g ht => (owners g d).mpr ?_, fun g d ho => ?_⟩
    · have hs : (l.sessions.erase device)[d]? = some session := hs
      rw [Handle.getElem?_erase] at hs
      split at hs
      · cases hs
      next away => exact ⟨h.owner d session hs g ht, away⟩
    · obtain ⟨ho, away⟩ := (owners g d).mp ho
      show ∃ session, (l.sessions.erase device)[d]? = some session ∧ _
      rw [Handle.getElem?_erase, if_neg away]
      exact h.tracker g d ho

theorem Owned.afterCreate (h : l.Owned sure) (device : Handle) :
    (l.afterCreate device).Owned sure := by
  unfold Layer.afterCreate
  split
  next new =>
    have none := new_of_checkNewDevice new
    refine h.put (fun g => getElem?_put .empty g)
      (fun g ht => absurd ht Trackers.not_tracks_empty) (fun g ho _ => ?_)
      (fun g d other _ hs ht => h.owner d other hs g ht) fun _ _ _ ho => ho
    obtain ⟨session, hs, -⟩ := h.tracker g device ho
    rw [none] at hs
    cases hs
  · exact h

/-- Where sessions go on, swapchains own their images, and the books vouch for what is sure. -/
def Safe (sure : Handle → Prop) (l : Layer) : Prop :=
  ∀ (d : Handle) (session : Session), l.sessions[d]? = some session → ¬session.halted = true →
    session.trackers.resources.Chained ∧ session.trackers.Vouches sure

/-- What a call answers is dropped, and loses its owner. -/
theorem validate_gives {t : Trackers} (chained : t.resources.Chained) (vouches : t.Vouches sure)
    (owners : Owners) (device : Handle) (call : Call) :
    ∃ released, Trackers.Drops sure t released
        ((Trackers.validate owners device call).on t).state ∧
      ∀ g d : Handle, (givenUp owners ((Trackers.validate owners device call).on t).value)[g]? =
        some d ↔ owners[g]? = some d ∧ g ∉ released := by
  have ends := Trackers.validate_drops chained vouches owners device call
  cases hx : ((Trackers.validate owners device call).on t).value with
  | error v => exact ⟨[], ends.bad_of_error hx, fun g d => by simp [givenUp]⟩
  | ok released =>
      exact ⟨released, ends.good_of_ok hx, fun g d => getElem?_givenUp.trans (by simp)⟩

/-- What a call gives up loses its owner, who tracked it. -/
theorem Owned.afterValidation (h : l.Owned sure) (safe : l.Safe sure) (call : Call) :
    (l.afterValidation call).Owned sure := by
  rcases l.afterValidation_cases call with same | ⟨device, session, found, running, ran⟩
  · rw [same]
    exact h
  · obtain ⟨hs, -⟩ := session_of_call found
    obtain ⟨chained, vouches⟩ := safe device session hs running
    obtain ⟨released, drops, owners⟩ := validate_gives chained vouches l.owners device call
    rw [ran]
    refine h.ran (fun g ht => ?_) (fun g ho hg => ?_) (fun g d other away hd ht => ?_)
      fun g d _ ho => ((owners g d).mp ho).1
    · obtain ⟨old, kept⟩ := drops.left g ht
      exact (owners g device).mpr ⟨h.owner device session hs g old, kept⟩
    · obtain ⟨ho, kept⟩ := (owners g device).mp ho
      exact drops.stays g hg (h.tracks hs ho hg) kept
    · have ho := h.owner d other hd g ht
      refine (owners g d).mpr ⟨ho, fun gone => away ?_⟩
      exact Option.some.inj (ho.symm.trans (h.owner device session hs g (drops.old g gone)))

/-- What has been created is tracked, and gets an owner. -/
theorem record_gives {t : Trackers} (device : Handle) (checked : t.Checked call)
    (owners : Owners) :
    ∃ gained, Trackers.Gains call t gained ((Trackers.recordCreation device call).on t).state ∧
      ∀ g d : Handle, (gainedBy owners device
          ((Trackers.recordCreation device call).on t).value)[g]? = some d ↔
        d = device ∧ g ∈ gained ∨ owners[g]? = some d ∧ g ∉ gained := by
  have ends := Trackers.recordCreation_gains t device checked
  cases hx : ((Trackers.recordCreation device call).on t).value with
  | error v =>
      exact ⟨[], Trackers.gains_nil (ends.bad_of_error hx), fun g d => by simp [gainedBy]⟩
  | ok gained =>
      exact ⟨gained, ends.good_of_ok hx, fun g d => getElem?_gainedBy_iff.trans (by simp)⟩

/-- What the driver has created gets its owner, who tracks it from then on. -/
theorem Owned.afterRecord (h : l.Owned sure)
    (unclaimed : ∀ g ∈ call.creates, ∀ (d : Handle) (other : Session),
      l.sessions[d]? = some other → other.trackers.Tracks g → call.scope = .device d)
    (checked : ∀ device session, l.sessionFor call = .ok (device, session) →
      ¬session.halted = true → session.trackers.Checked call) :
    (l.afterRecord call).Owned sure := by
  rcases l.afterRecord_cases call with same | ⟨device, session, found, running, ran⟩
  · rw [same]
    exact h
  · obtain ⟨hs, -⟩ := session_of_call found
    obtain ⟨gained, gains, owners⟩ :=
      record_gives device (checked device session found running) l.owners
    have here {g d : Handle} {other : Session} (new : g ∈ gained)
        (hd : l.sessions[d]? = some other) (ht : other.trackers.Tracks g) : d = device := by
      have scope := unclaimed g (gains.created g new) d other hd ht
      unfold sessionFor at found
      rw [scope] at found
      exact (deviceSession_eq_ok_iff.mp found).1
    rw [ran]
    refine Owned.drained (Owned.pending (h.ran (fun g ht => ?_) (fun g ho hg => ?_)
      (fun g d other away hd ht => ?_) fun g d away ho => ?_) _)
    · by_cases new : g ∈ gained
      · exact (owners g device).mpr (.inl ⟨rfl, new⟩)
      · have old := ((gains.tracks g).mp ht).resolve_right new
        exact (owners g device).mpr (.inr ⟨h.owner device session hs g old, new⟩)
    · rcases (owners g device).mp ho with ⟨-, new⟩ | ⟨old, -⟩
      · exact (gains.tracks g).mpr (.inr new)
      · exact (gains.tracks g).mpr (.inl (h.tracks hs old hg))
    · exact (owners g d).mpr (.inr ⟨h.owner d other hd g ht, fun new => away (here new hd ht)⟩)
    · exact (((owners g d).mp ho).resolve_left fun made => away made.1).1

/-! ## Events keep the owners right -/

/-- No other device tracks what a call creates. -/
def Unclaimed (l : Layer) (call : Call) : Prop :=
  ∀ (d : Handle) (session : Session), l.sessions[d]? = some session →
    ∀ h ∈ call.creates, session.trackers.Tracks h → call.scope = .device d

instance (l : Layer) (call : Call) : Decidable (l.Unclaimed call) :=
  l.decidableSessions fun d session =>
    ∀ h ∈ call.creates, session.trackers.Tracks h → call.scope = .device d

/-- What a call creates no other device tracks. -/
def Fair (l : Layer) : Event → Prop
  | .call call _ => l.Unclaimed call
  | _ => True

instance (l : Layer) (event : Event) : Decidable (l.Fair event) := by
  unfold Fair
  cases event <;> exact inferInstance

/-- The session of a call on a device after the hook before the call. -/
theorem session_afterValidation {d : Handle} (scope : call.scope = .device d)
    (found : (l.afterValidation call).sessionFor call = .ok (device, session))
    (running : ¬session.halted = true) :
    ∃ before, l.sessionFor call = .ok (device, before) ∧ before.halted = false ∧
      session.trackers = ((Trackers.validate l.owners device call).on before.trackers).state := by
  cases hm : l.sessionFor call with
  | error v =>
      rw [afterValidation_error hm, hm] at found
      cases found
  | ok entry =>
      obtain ⟨device', before⟩ := entry
      by_cases halted : before.halted = true
      · rw [afterValidation_halted hm halted, hm] at found
        cases found
        exact absurd halted running
      · rw [afterValidation_running hm halted] at found
        unfold sessionFor at hm found
        rw [scope] at hm found
        obtain ⟨rfl, -⟩ := deviceSession_eq_ok_iff.mp hm
        obtain ⟨rfl, hs⟩ := deviceSession_eq_ok_iff.mp found
        have hs := (l.getElem?_ran _ d before _ d).symm.trans hs
        rw [if_pos rfl] at hs
        cases hs
        exact ⟨before, rfl, by simpa using halted, rfl⟩

/-- A call that is not skipped has passed its check. -/
theorem checked_of_forwarded (suppress : l.config.validation.suppressOnError = true)
    (forwarded : l.skips call = false)
    (found : (l.step (.pre call)).sessionFor call = .ok (device, session))
    (running : ¬session.halted = true) : session.trackers.Checked call := by
  cases call with
  | allocateCommandBuffers d pool cbs =>
      have passed : ((validateCall (.allocateCommandBuffers d pool cbs)).run
          l.drained).value.skipCall = false :=
        (Bool.or_eq_false_iff.mp ((preCall_skips l _).symm.trans forwarded)).2
      rw [step_eq] at found
      obtain ⟨before, hm, runs, state⟩ := session_afterValidation rfl found running
      have ends := Trackers.validate_allocation before.trackers l.drained.owners device d pool cbs
      cases hx : ((Trackers.validate l.drained.owners device
          (.allocateCommandBuffers d pool cbs)).on before.trackers).value with
      | ok released =>
          obtain ⟨same, checked⟩ := ends.good_of_ok hx
          rw [state, same]
          exact checked
      | error v =>
          have suppress : l.drained.config.validation.suppressOnError = true := by
            rw [config_drained, suppress]
          have mild := validateCall_forwarded suppress hm runs passed hx
          have error := (Trackers.strict_newCommandBuffers pool cbs before.trackers).isError v
            (ends.bad_of_error hx)
          rw [error] at mild
          cases mild
  | _ => trivial

/-- A call and its answer keep the owners right. -/
theorem Owned.called (h : l.Owned sure) (suppress : l.config.validation.suppressOnError = true)
    (chained : l.Holds fun _ _ t => t.resources.Chained) (safe : l.drained.Safe sure)
    (unclaimed : l.Unclaimed call) (result : CallResult) :
    (l.run (l.hooks (.call call result))).Owned sure := by
  have before : (l.step (.pre call)).Owned sure := by
    rw [step_eq]
    cases call with
    | createDevice device => exact h.drained
    | destroyDevice device => exact h.drained.afterDestroy device
    | _ => exact h.drained.afterValidation safe _
  by_cases skipped : l.skips call = true
  · rw [hooks_skipped skipped]
    exact before
  · have recorded : ((l.step (.pre call)).afterRecord call).Owned sure := by
      refine before.afterRecord (fun g hg d after hs ht => ?_) fun device session found running =>
        checked_of_forwarded suppress (by simpa using skipped) found running
      obtain ⟨session, hs, tracked⟩ := (shrinks_before chained call).tracked d after hs g ht
      exact unclaimed d session hs g hg tracked
    rw [hooks_forwarded (by simpa using skipped)]
    show ((l.step (.pre call)).step (.post call result)).Owned sure
    rw [step_eq]
    show ((l.step (.pre call)).afterAnswer call result).Owned sure
    unfold afterAnswer
    split
    · exact before.afterCreate _
    · exact before
    · exact recorded
    · exact before

/-- Every event keeps the owners right. -/
theorem Owned.event (h : l.Owned sure) (suppress : l.config.validation.suppressOnError = true)
    (chained : l.Holds fun _ _ t => t.resources.Chained) (safe : l.drained.Safe sure)
    (event : Event) (fair : l.Fair event) : (l.run (l.hooks event)).Owned sure := by
  cases event with
  | call call result => exact h.called suppress chained safe fair result
  | report completion => exact h.pending _
  | process =>
      show (l.step .process).Owned sure
      rw [step_eq]
      exact h.drained
  | retire r =>
      show (l.step (.retire r)).Owned sure
      rw [step_eq]
      exact h.afterRetirement r
  | fenceStatus device fence =>
      show (l.step (.fenceStatus device fence)).Owned sure
      rw [step_eq]
      exact h.drained

/-- The events that run sheltered hooks. -/
def Guarded (l : Layer) (event : Event) : Prop := l.Allows Sheltered (l.hooks event)

instance (l : Layer) (event : Event) : Decidable (l.Guarded event) :=
  inferInstanceAs (Decidable (l.Allows _ _))

/-- The owners are right after every run of fair events; command buffers are sure where all
links are counted, or internal errors halt. -/
theorem owned_of_passed (suppress : config.validation.suppressOnError = true)
    (fair : ∀ k event, allowed k event → k.Fair event)
    (vouched : (∀ k event, allowed k event → k.Guarded event) ∨
      ∀ g, sure g → g.kind ≠ .commandBuffer)
    (h : Passed allowed config l) : l.Owned sure := by
  induction h with
  | start => exact owned_start config
  | @event l before event ok ih =>
      have reached : Reached (fun _ _ => True) config l := before.reached fun _ _ _ => allows_any _ _
      have chosen := (obeys_of_reached (chained_invariant.law config.validation)
        (fun _ _ _ _ _ _ _ _ _ => trivial) reached).chosen
      have chained := chained_of_reached reached
      have drained := chained.drained chained_invariant.toRetirementInvariant
      refine ih.event (chosen ▸ suppress) chained (fun d session hs running => ?_) event
        (fair l event ok)
      refine ⟨drained.books d session hs, ?_⟩
      rcases vouched with guarded | buffers
      · have books := (obeys_of_sheltered (runningBooks_law config.validation)
          (before.reached guarded)).drained (runningBooks_law _).toRetirementLaw
        exact .inl (books.law d session hs running).sound
      · exact .inr buffers

/-! ## Exact owners -/

/-- The owner of a handle is the device whose session tracks it. -/
def Exact (l : Layer) : Prop := ∀ h d : Handle, l.owners[h]? = some d ↔
  ∃ session, l.sessions[d]? = some session ∧ session.trackers.Tracks h

theorem Owned.exact (owned : l.Owned fun _ => True) : l.Exact := by
  refine fun h d => ⟨fun owner => ?_, fun ⟨session, hs, tracked⟩ =>
    owned.owner d session hs h tracked⟩
  obtain ⟨session, hs, tracked⟩ := owned.tracker h d owner
  exact ⟨session, hs, tracked trivial⟩

end Layer

end GpuAudit
