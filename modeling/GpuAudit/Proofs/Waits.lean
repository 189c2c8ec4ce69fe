import GpuAudit.Proofs.Passing
import GpuAudit.Proofs.Returns

/-!
# Waiting for several fences

A wait for fences that has succeeded retires the submission of each fence in the order
in which the fences are listed.  Retirements of one queue must not go back, so the order
matters if two of the fences are in use by different submissions to one queue.  If not,
and if every retirement is `Ready`, all of them pass in every order and leave the same
books.
-/

namespace GpuAudit

/-! ## Verdicts -/

namespace Verdict

variable {v w : Verdict} {kind : ViolationKind}

@[simp] theorem merge_pass (v : Verdict) : v.merge pass = v := by
  simp [merge, pass]

@[simp] theorem pass_merge (v : Verdict) : pass.merge v = v := by
  simp [merge, pass]

theorem has_merge_left (h : v.has kind = true) : (v.merge w).has kind = true := by
  unfold has merge at *
  rw [List.any_append, h, Bool.true_or]

theorem has_merge_right (h : w.has kind = true) : (v.merge w).has kind = true := by
  unfold has merge at *
  rw [List.any_append, h, Bool.or_true]

theorem has_merge_eq_false (hv : v.has kind = false) (hw : w.has kind = false) :
    (v.merge w).has kind = false := by
  unfold has merge at *
  rw [List.any_append, hv, hw, Bool.or_false]

theorem has_of_mem {d : Diagnostic} (h : d ∈ v.diagnostics) (hk : d.kind = kind) :
    v.has kind = true :=
  List.any_eq_true.mpr ⟨d, h, decide_eq_true hk⟩

end Verdict

theorem ValidationConfig.verdict_nil (c : ValidationConfig) : c.verdict [] = .pass := by
  simp [verdict, Verdict.pass]

theorem Violation.kind_of_fatal {v : Violation} (h : v.isFatal = true) :
    v.toDiagnostic.kind = .internalError := by
  cases v with
  | internal => rfl
  | _ => cases h

theorem ValidationConfig.mild_verdict (c : ValidationConfig) {v : Violation}
    (h : v.isFatal = false) : (c.verdict [v.toDiagnostic]).has .internalError = false := by
  cases v with
  | internal => cases h
  | _ => rfl

namespace Layer

variable {l : Layer} {device : Handle} {session : Session} {r : Retirement}

/-- Where no completion is reported, the verdict before a call is the one on the call. -/
theorem preCall_idle (idle : l.pending = []) (call : Call) :
    ((preCall call).run l).value = ((own call).run l).value := by
  obtain ⟨config, sessions, owners, pending⟩ := l
  cases idle
  rw [preCall_eq]
  exact Verdict.pass_merge _

/-! ## One retirement -/

theorem conclude_error_value (device : Option Handle) (v : Violation)
    (warnings : List Diagnostic) : ((conclude device (.error v) warnings).run l).value =
      l.config.validation.verdict (warnings ++ [v.toDiagnostic]) := by
  unfold conclude
  simp only [Logged.run_bind, Logged.run_get]
  by_cases stops : (v.isFatal && l.config.validation.haltOnInternalError) = true
  · simp only [stops, if_true]
    cases device <;> rfl
  · simp only [stops]
    rfl

/-- A retirement that is ready passes. -/
theorem applyRetirement_passes (hs : l.sessions[device]? = some session)
    (running : session.halted = false) (owned : l.owners[r.queue]? = some device)
    (linked : session.trackers.Linked) (ready : session.trackers.Ready r) :
    ((applyRetirement r).run l).value = .pass ∧
      ((applyRetirement r).run l).state = l.put device session (session.trackers.pass r) := by
  obtain ⟨bs, hv, hu⟩ := (Trackers.retireUpTo_of_ready linked ready).answers
  unfold applyRetirement
  simp only [Logged.run_bind, Logged.run_get, owningSession_eq_ok_iff.mpr ⟨owned, hs⟩, running,
    Bool.false_eq_true, if_false, runOn_value, runOn_state, hv, hu]
  exact ⟨l.config.validation.verdict_nil, rfl⟩

/-- A retirement that stops is reported. -/
theorem applyRetirement_error {v : Violation}
    (hs : l.owningSession r.queue = .ok (device, session)) (running : session.halted = false)
    (hv : ((Trackers.retireUpTo r).on session.trackers).value = .error v) :
    ((applyRetirement r).run l).value = l.config.validation.verdict [v.toDiagnostic] := by
  unfold applyRetirement
  simp only [Logged.run_bind, Logged.run_get, hs, running, Bool.false_eq_true, if_false,
    runOn_value, runOn_state, hv]
  exact conclude_error_value
    (l := l.put device session ((Trackers.retireUpTo r).on session.trackers).state) (some device) v []

/-- A retirement that is not ready raises an internal error. -/
theorem applyRetirement_fails (hs : l.sessions[device]? = some session)
    (running : session.halted = false) (owned : l.owners[r.queue]? = some device) {q : Queue}
    (hq : session.trackers.queues.queues.find? r.queue = some q)
    (unready : ¬session.trackers.Ready r) :
    ((applyRetirement r).run l).value.has .internalError = true := by
  obtain ⟨v, hv, fatal⟩ := (Trackers.retireUpTo_of_not_ready hq unready).stops
  rw [applyRetirement_error (owningSession_eq_ok_iff.mpr ⟨owned, hs⟩) running hv]
  exact Verdict.has_of_mem (List.mem_singleton_self _) (Violation.kind_of_fatal fatal)

/-! ## Several retirements -/

/-- Retirements applied one after another. -/
def retireAll (rs : List Retirement) (v : Verdict) : Logged Layer Verdict :=
  rs.foldlM (fun v r => return v.merge (← applyRetirement r)) v

theorem retireAll_cons_value (rs : List Retirement) (v : Verdict) (l : Layer) :
    ((retireAll (r :: rs) v).run l).value =
      ((retireAll rs (v.merge ((applyRetirement r).run l).value)).run (l.afterRetirement r)).value := by
  unfold retireAll
  rw [List.foldlM_cons, Logged.run_bind, ← applyRetirement_state]
  rfl

/-- What one retirement finds is in the verdict on all. -/
theorem retireAll_has {kind : ViolationKind} : ∀ {rs : List Retirement} {v : Verdict} {l : Layer},
    v.has kind = true → ((retireAll rs v).run l).value.has kind = true
  | [], _, _, h => h
  | r :: rs, v, l, h => by
      rw [retireAll_cons_value]
      exact retireAll_has (Verdict.has_merge_left h)

/-- Retirements that are ready, and agree on how far each queue retires, all pass. -/
theorem retireAll_passes : ∀ (rs : List Retirement) (v : Verdict) {l : Layer} {session : Session},
    l.sessions[device]? = some session → session.halted = false →
    (∀ r ∈ rs, l.owners[r.queue]? = some device) → session.trackers.Linked →
    session.trackers.queues.Kept → (∀ r ∈ rs, session.trackers.Ready r) → Trackers.Agree rs →
    ((retireAll rs v).run l).value = v ∧ ((retireAll rs v).run l).state =
      l.put device session (rs.foldl Trackers.pass session.trackers)
  | [], v, l, session, hs, _, _, _, _, _, _ => ⟨rfl, (put_same hs).symm⟩
  | r :: rs, v, l, session, hs, running, owned, linked, kept, ready, agree => by
      obtain ⟨here, owned⟩ := List.forall_mem_cons.mp owned
      obtain ⟨first, rest⟩ := List.forall_mem_cons.mp ready
      have settled : ∀ r' ∈ rs, (session.trackers.pass r).Ready r' := fun r' hr' =>
        (rest r' hr').pass kept (agree r' (List.mem_cons_of_mem _ hr') r List.mem_cons_self)
      obtain ⟨value, state⟩ := applyRetirement_passes hs running here linked first
      have placed : (l.put device session (session.trackers.pass r)).sessions[device]? =
          some { session with trackers := session.trackers.pass r } :=
        (getElem?_put _ _).trans (if_pos rfl)
      obtain ⟨values, states⟩ := retireAll_passes rs v placed running owned
        (linked.pass r) (Trackers.kept_pass kept first) settled fun r' hr' r'' hr'' =>
          agree r' (List.mem_cons_of_mem _ hr') r'' (List.mem_cons_of_mem _ hr'')
      constructor
      · rw [retireAll_cons_value, value, Verdict.merge_pass, ← applyRetirement_state, state, values]
      · unfold retireAll at states ⊢
        rw [foldRetirements_state, List.foldl_cons, ← applyRetirement_state, state,
          ← foldRetirements_state rs v, states, put_put]
        rfl

end Layer

/-! ## What a wait implies -/

namespace Trackers

variable {t : Trackers} {fs fs' : List Handle}

/-- The retirement that the signal of a fence implies. -/
def implied (t : Trackers) (f : Handle) : Option Retirement :=
  (t.queues.fences.find? f).bind Fence.retirement?

theorem implied_eq_some_iff {f : Handle} {r : Retirement} :
    t.implied f = some r ↔ t.queues.fences.find? f = some (.inUse r.queue r.upTo) := by
  unfold implied
  cases t.queues.fences.find? f with
  | none => simp
  | some x =>
      cases x with
      | unsignaled => simp [Fence.retirement?]
      | signaled => simp [Fence.retirement?]
      | inUse queue s =>
          cases r
          simp [Fence.retirement?]

theorem fenceRetirement_of_found {f : Handle} {x : Fence} (hf : t.queues.fences.find? f = some x) :
    t.queues.fenceRetirement f = .ok (t.implied f) := by
  unfold implied
  rw [hf]
  exact bind_eq_ok_iff.mpr ⟨x, QueueTracker.fence_eq_ok_iff.mpr hf, rfl⟩

theorem fenceRetirements_eq : ∀ {fs : List Handle},
    (∀ f ∈ fs, ∃ x, t.queues.fences.find? f = some x) →
    fenceRetirements t.queues fs = fs.filterMap t.implied
  | [], _ => rfl
  | f :: fs, live => by
      obtain ⟨⟨x, hx⟩, rest⟩ := List.forall_mem_cons.mp live
      unfold fenceRetirements
      rw [fenceRetirement_of_found hx, List.filterMap_cons]
      cases t.implied f with
      | none => exact fenceRetirements_eq rest
      | some r => exact congrArg (r :: ·) (fenceRetirements_eq rest)

theorem impliedRetirements_wait (device : Handle)
    (live : ∀ f ∈ fs, ∃ x, t.queues.fences.find? f = some x) :
    t.impliedRetirements (.waitForFences device fs true) = fs.filterMap t.implied := by
  rw [← fenceRetirements_eq live]
  simp [impliedRetirements]

/-- A retirement of another queue leaves a fence as it is that waits for its own. -/
theorem retireUpTo_elsewhere {r : Retirement} {queue f : Handle} {s : Nat} {q : Queue}
    (h : t.queues.Guarded) (hf : t.queues.fences.find? f = some (.inUse queue s))
    (hq : t.queues.queues.find? queue = some q) (later : q.lastRetired < s)
    (away : queue ≠ r.queue) :
    ((retireUpTo r).on t).state.queues.Guarded ∧
      ((retireUpTo r).on t).state.queues.fences.find? f = some (.inUse queue s) ∧
      ((retireUpTo r).on t).state.queues.queues.find? queue = some q := by
  obtain ⟨q', hq', -, batch⟩ := h.submitted hf
  rw [hq] at hq'
  cases hq'
  obtain ⟨b, hb, rfl, carries⟩ := batch later
  have passed : ∀ {front : List Batch} {q' : Queue}, t.queues.queues.find? r.queue = some q' →
      (∀ b ∈ front, b ∈ q'.due r.upTo) →
      (t.queues.passed r front).fences.find? f = some (.inUse queue b.sequence) ∧
        (t.queues.passed r front).queues.find? queue = some q := by
    intro front q' hq' due
    have waits := h.not_released hq' due ⟨q, hq, hb, carries⟩ fun here => absurd here away
    rw [QueueTracker.fences_passed, hf, Option.map_some, if_neg waits, QueueTracker.queues_passed,
      Registry.find?_modify, if_neg away, hq]
    exact ⟨rfl, rfl⟩
  refine Track.Ends.state (P := fun u : Trackers => u.queues.Guarded ∧
    u.queues.fences.find? f = some (.inUse queue b.sequence) ∧
      u.queues.queues.find? queue = some q) ((retireUpTo_effect t r).mono
        (fun _ u passes => ⟨(Move.retired passes).guarded h, ?_⟩)
        fun v u stops => ⟨stops.guarded h, ?_⟩)
  · obtain ⟨q', hq', -, rfl⟩ := passes.due
    rw [passes.queues]
    exact passed hq' fun _ hb => hb
  · cases stops with
    | refused => exact ⟨hf, hq⟩
    | halfway _ found _ parts queues =>
        rw [queues]
        exact passed found (mem_of_parts parts)

/-- A successful wait enters nothing. -/
theorem recordCreation_wait (device : Handle)
    (live : ∀ f ∈ fs, ∃ x, t.queues.fences.find? f = some x) :
    (recordCreation device (.waitForFences device fs true)).Ends t (fun gained u => gained = [] ∧ u = t)
      fun _ _ => False := by
  show (recordCreation.nothing (fs.forM fun f => discard
    (Track.query (·.queues.fenceRetirement f)))).Ends t _ _
  unfold recordCreation.nothing
  rw [Track.ends_bind, Track.ends_discard]
  refine (Track.Ends.forM_keeps (· = t) rfl fun f hf u hu => ?_).mono
    (fun _ u hu => ⟨rfl, hu⟩) fun _ _ h => h
  subst hu
  obtain ⟨x, hx⟩ := live f hf
  rw [Track.ends_discard, Track.ends_query, fenceRetirement_of_found hx, Track.ends_ofExcept_ok]

end Trackers

namespace Layer

variable {l : Layer} {device : Handle} {session : Session} {fs fs' : List Handle}

/-- The wait for all of several fences has succeeded. -/
def waited (device : Handle) (fs : List Handle) : Logged Layer Verdict :=
  postCall (.waitForFences device fs true) .success

/-- A call that enters nothing applies the retirements that it implies after those that
have been reported. -/
theorem recordCall_observes {call : Call} (found : l.sessionFor call = .ok (device, session))
    (running : session.halted = false)
    (nothing : (Trackers.recordCreation device call).Ends session.trackers
      (fun gained u => gained = [] ∧ u = session.trackers) fun _ _ => False) :
    ((recordCall call).run l).value =
        ((retireAll (l.pending ++ session.trackers.impliedRetirements call) .pass).run
          { l with pending := [] }).value ∧
      ((recordCall call).run l).state =
        ((retireAll (l.pending ++ session.trackers.impliedRetirements call) .pass).run
          { l with pending := [] }).state := by
  obtain ⟨gained, hv, rfl, hu⟩ := nothing.answers
  have same : l.put device session session.trackers = l := put_same (session_of_call found).1
  unfold recordCall
  simp only [Logged.run_bind, Logged.run_get, found, running, Bool.false_eq_true, if_false,
    runOn_value, runOn_state, hv, hu, same]
  show (l.config.validation.verdict []).merge ((retireAll (l.pending ++ _) .pass).run
      { l with pending := [] }).value = _ ∧
    ((retireAll (l.pending ++ _) .pass).run { l with pending := [] }).state = _
  rw [l.config.validation.verdict_nil, Verdict.pass_merge]
  exact ⟨rfl, rfl⟩

/-- A wait applies the retirements that it implies, where none has been reported before. -/
theorem waited_eq (hs : l.sessions[device]? = some session) (running : session.halted = false)
    (none : l.pending = []) (live : ∀ f ∈ fs, ∃ x, session.trackers.queues.fences.find? f = some x) :
    ((waited device fs).run l).value =
        ((retireAll (fs.filterMap session.trackers.implied) .pass).run l).value ∧
      ((waited device fs).run l).state =
        ((retireAll (fs.filterMap session.trackers.implied) .pass).run l).state := by
  have found : l.sessionFor (.waitForFences device fs true) = .ok (device, session) :=
    deviceSession_eq_ok_iff.mpr ⟨rfl, hs⟩
  have applies := recordCall_observes found running (Trackers.recordCreation_wait device live)
  have same : ({ l with pending := [] } : Layer) = l := by rw [← none]
  rw [Trackers.impliedRetirements_wait device live, same, none, List.nil_append] at applies
  exact applies

/-! ## Fences of a queue that the device does not own -/

/-- A fence of a device is in use by a submission that has not retired, to a queue that
the device does not own. -/
def Stranded (l : Layer) (device queue f : Handle) (s : Nat) : Prop :=
  l.owners[queue]? ≠ some device ∧ ∃ session q, l.sessions[device]? = some session ∧
    session.trackers.queues.Guarded ∧
    session.trackers.queues.fences.find? f = some (.inUse queue s) ∧
    session.trackers.queues.queues.find? queue = some q ∧ q.lastRetired < s

/-- The books of a session stay, or its own queue retires. -/
theorem books_afterRetirement (hs : l.sessions[device]? = some session) (r : Retirement) :
    ∃ after, (l.afterRetirement r).sessions[device]? = some after ∧
      (after.trackers = session.trackers ∨ l.owners[r.queue]? = some device ∧
        after.trackers = ((Trackers.retireUpTo r).on session.trackers).state) := by
  unfold afterRetirement
  split
  next => exact ⟨session, hs, .inl rfl⟩
  next d found hd =>
    split
    next => exact ⟨session, hs, .inl rfl⟩
    next =>
      obtain ⟨owner, hf⟩ := owningSession_eq_ok_iff.mp hd
      have put : (l.put d found ((Trackers.retireUpTo r).on found.trackers).state).sessions[device]? =
          if device = d then some { found with
            trackers := ((Trackers.retireUpTo r).on found.trackers).state }
          else l.sessions[device]? := getElem?_put _ device
      by_cases here : device = d
      · subst here
        rw [hs] at hf
        cases hf
        obtain ⟨after, ha, same⟩ := books_concluded _ (put.trans (if_pos rfl))
        exact ⟨after, ha, .inr ⟨owner, same⟩⟩
      · obtain ⟨after, ha, same⟩ := books_concluded _ (put.trans ((if_neg here).trans hs))
        exact ⟨after, ha, .inl same⟩

/-- No retirement that the layer applies reaches the fence. -/
theorem Stranded.afterRetirement {queue f : Handle} {s : Nat} (h : l.Stranded device queue f s)
    (r : Retirement) : (l.afterRetirement r).Stranded device queue f s := by
  obtain ⟨unowned, session, q, hs, guarded, hf, hq, later⟩ := h
  refine ⟨by rwa [owners_afterRetirement], ?_⟩
  obtain ⟨after, ha, same | ⟨owner, same⟩⟩ := books_afterRetirement hs r
  · rw [← same] at guarded hf hq
    exact ⟨after, q, ha, guarded, hf, hq, later⟩
  · have left := Trackers.retireUpTo_elsewhere guarded hf hq later fun he => unowned (he ▸ owner)
    rw [← same] at left
    exact ⟨after, q, ha, left.1, left.2.1, left.2.2, later⟩

theorem Stranded.afterRetirements {queue f : Handle} {s : Nat} : ∀ (rs : List Retirement)
    {l : Layer}, l.Stranded device queue f s →
      (rs.foldl Layer.afterRetirement l).Stranded device queue f s
  | [], _, h => h
  | r :: rs, _, h => afterRetirements rs (h.afterRetirement r)

/-- The fence is not signaled. -/
theorem Stranded.fenceStatus {queue f : Handle} {s : Nat} (h : l.Stranded device queue f s)
    (hs : l.sessions[device]? = some session) :
    session.trackers.queues.fenceStatus f ≠ .ok true := fun signaled => by
  obtain ⟨-, session', q, hs', -, hf, hq, later⟩ := h
  rw [hs] at hs'
  cases hs'
  rcases QueueTracker.fenceStatus_eq_true_iff.mp signaled with done | ⟨queue', s', q', hf', hq', early⟩
  · rw [hf] at done
    cases done
  · rw [hf] at hf'
    cases hf'
    rw [hq] at hq'
    cases hq'
    omega

/-! ## Order -/

/-- A wait for all of several fences goes well in whatever order they are listed. -/
structure WaitsInAnyOrder (l : Layer) (device : Handle) (session : Session) (fs : List Handle) :
    Prop where
  /-- No internal error is raised. -/
  mild : ((waited device fs).run l).value.has .internalError = false
  /-- Validation goes on, and every fence that guarded a submission is signaled. -/
  signaled : ∃ after, ((waited device fs).run l).state.sessions[device]? = some after ∧
    after.halted = false ∧ ∀ f ∈ fs, ∀ queue s,
      session.trackers.queues.fences.find? f = some (.inUse queue s) →
        after.trackers.queues.fenceStatus f = .ok true
  /-- Another order leaves the same verdict and the same session. -/
  permuted : ∀ fs' : List Handle, fs'.Perm fs →
    ((waited device fs').run l).value = ((waited device fs).run l).value ∧
      ((waited device fs').run l).state.sessions[device]? =
        ((waited device fs).run l).state.sessions[device]?

section Order

variable (hs : l.sessions[device]? = some session) (running : session.halted = false)
  (none : l.pending = [])
include hs running

/-- A retirement that raises no internal error was ready. -/
theorem ready_of_mild {r : Retirement} {rs : List Retirement} {v : Verdict} {q : Queue}
    (owned : l.owners[r.queue]? = some device)
    (hq : session.trackers.queues.queues.find? r.queue = some q)
    (mild : ((retireAll (r :: rs) v).run l).value.has .internalError = false) :
    session.trackers.Ready r := by
  refine Classical.byContradiction fun unready => ?_
  rw [retireAll_cons_value, retireAll_has (Verdict.has_merge_right
    (applyRetirement_fails hs running owned hq unready))] at mild
  cases mild

/-- Of two retirements of a queue that raise no internal error, the first goes no further
than the second. -/
theorem le_of_mild {queue : Handle} {s s' : Nat} {rs : List Retirement} {v : Verdict} {q : Queue}
    (owned : l.owners[queue]? = some device) (linked : session.trackers.Linked)
    (hq : session.trackers.queues.queues.find? queue = some q)
    (mild : ((retireAll (⟨queue, s⟩ :: ⟨queue, s'⟩ :: rs) v).run l).value.has .internalError =
      false) : s ≤ s' := by
  have first := ready_of_mild hs running (r := ⟨queue, s⟩) owned hq mild
  obtain ⟨value, state⟩ := applyRetirement_passes hs running (r := ⟨queue, s⟩) owned linked first
  have placed : (l.put device session (session.trackers.pass ⟨queue, s⟩)).sessions[device]? =
      some { session with trackers := session.trackers.pass ⟨queue, s⟩ } :=
    (getElem?_put _ _).trans (if_pos rfl)
  have retired : (session.trackers.pass ⟨queue, s⟩).queues.queues.find? queue =
      some (q.retired s) := by
    rw [Trackers.found_pass, if_pos rfl, hq, Option.map_some]
  rw [retireAll_cons_value, ← applyRetirement_state, state] at mild
  obtain ⟨q', hq', range, -⟩ :=
    ready_of_mild placed running (r := ⟨queue, s'⟩) owned retired mild
  rw [retired] at hq'
  cases hq'
  exact range.1

include none

/-- A wait whose retirements are ready, and agree on how far each queue retires, finds
nothing and applies them. -/
theorem waited_passes (live : ∀ f ∈ fs, ∃ x, session.trackers.queues.fences.find? f = some x)
    (linked : session.trackers.Linked) (kept : session.trackers.queues.Kept)
    (ready : ∀ r ∈ fs.filterMap session.trackers.implied,
      l.owners[r.queue]? = some device ∧ session.trackers.Ready r)
    (agree : Trackers.Agree (fs.filterMap session.trackers.implied)) :
    ((waited device fs).run l).value = .pass ∧ ((waited device fs).run l).state =
      l.put device session
        ((fs.filterMap session.trackers.implied).foldl Trackers.pass session.trackers) := by
  obtain ⟨value, state⟩ := waited_eq hs running none live
  rw [value, state]
  exact retireAll_passes _ _ hs running (fun r hr => (ready r hr).1) linked kept
    (fun r hr => (ready r hr).2) agree

/-- Where each retirement is ready and none of them disagree, the order does not matter. -/
theorem waitsInAnyOrder (live : ∀ f ∈ fs, ∃ x, session.trackers.queues.fences.find? f = some x)
    (linked : session.trackers.Linked) (kept : session.trackers.queues.Kept)
    (ready : ∀ r ∈ fs.filterMap session.trackers.implied,
      l.owners[r.queue]? = some device ∧ session.trackers.Ready r)
    (agree : Trackers.Agree (fs.filterMap session.trackers.implied)) :
    l.WaitsInAnyOrder device session fs := by
  obtain ⟨value, state⟩ := waited_passes hs running none live linked kept ready agree
  constructor
  case mild =>
    rw [value]
    rfl
  case signaled =>
    rw [state]
    refine ⟨_, (getElem?_put _ _).trans (if_pos rfl), running, fun f hf queue s inUse => ?_⟩
    have listed : (⟨queue, s⟩ : Retirement) ∈ fs.filterMap session.trackers.implied :=
      List.mem_filterMap.mpr ⟨f, hf, Trackers.implied_eq_some_iff.mpr inUse⟩
    exact Trackers.fenceStatus_passes listed kept (fun r hr => (ready r hr).2) agree inUse
  case permuted =>
    intro fs' perm
    have same : (fs'.filterMap session.trackers.implied).Perm
        (fs.filterMap session.trackers.implied) := perm.filterMap _
    obtain ⟨value', state'⟩ := waited_passes hs running none
      (fun f hf => live f (perm.mem_iff.mp hf)) linked kept
      (fun r hr => ready r (same.mem_iff.mp hr))
      fun r hr r' hr' => agree r (same.mem_iff.mp hr) r' (same.mem_iff.mp hr')
    rw [value, value', state, state', Trackers.pass_perm same.symm agree]
    exact ⟨rfl, rfl⟩

/-- A wait that goes well in any order finds each retirement ready. -/
theorem ready_of_waits (live : ∀ f ∈ fs, ∃ x, session.trackers.queues.fences.find? f = some x)
    (scheduled : session.trackers.Scheduled) (waits : l.WaitsInAnyOrder device session fs)
    {f queue : Handle} {s : Nat} (hf : f ∈ fs)
    (inUse : session.trackers.queues.fences.find? f = some (.inUse queue s))
    (owned : l.owners[queue]? = some device) : session.trackers.Ready ⟨queue, s⟩ := by
  obtain ⟨q, hq, -, -⟩ := scheduled.guarded.submitted inUse
  have perm : (f :: fs.erase f).Perm fs := (List.perm_cons_erase hf).symm
  have mild := waits.mild
  rw [← (waits.permuted _ perm).1,
    (waited_eq hs running none fun g hg => live g (perm.mem_iff.mp hg)).1,
    List.filterMap_cons_some (Trackers.implied_eq_some_iff (r := ⟨queue, s⟩).mpr inUse)] at mild
  exact ready_of_mild hs running owned hq mild

/-- A wait that goes well in any order is for one submission to each queue. -/
theorem le_of_waits (live : ∀ f ∈ fs, ∃ x, session.trackers.queues.fences.find? f = some x)
    (linked : session.trackers.Linked) (scheduled : session.trackers.Scheduled)
    (waits : l.WaitsInAnyOrder device session fs) {f f' queue : Handle} {s s' : Nat} (hf : f ∈ fs)
    (hf' : f' ∈ fs) (inUse : session.trackers.queues.fences.find? f = some (.inUse queue s))
    (inUse' : session.trackers.queues.fences.find? f' = some (.inUse queue s'))
    (owned : l.owners[queue]? = some device) : s ≤ s' := by
  by_cases same : f = f'
  · rw [same, inUse'] at inUse
    cases inUse
    exact Nat.le_refl s
  · obtain ⟨q, hq, -, -⟩ := scheduled.guarded.submitted inUse
    have hf' : f' ∈ fs.erase f := (List.mem_erase_of_ne (Ne.symm same)).mpr hf'
    have perm : (f :: f' :: (fs.erase f).erase f').Perm fs :=
      ((List.perm_cons_erase hf').symm.cons f).trans (List.perm_cons_erase hf).symm
    have mild := waits.mild
    rw [← (waits.permuted _ perm).1,
      (waited_eq hs running none fun g hg => live g (perm.mem_iff.mp hg)).1,
      List.filterMap_cons_some (Trackers.implied_eq_some_iff (r := ⟨queue, s⟩).mpr inUse),
      List.filterMap_cons_some (Trackers.implied_eq_some_iff (r := ⟨queue, s'⟩).mpr inUse')] at mild
    exact le_of_mild hs running owned linked hq mild

/-- A wait that goes well signals no fence of a queue that the device does not own. -/
theorem not_stranded_of_waits
    (live : ∀ f ∈ fs, ∃ x, session.trackers.queues.fences.find? f = some x)
    (waits : l.WaitsInAnyOrder device session fs) {f queue : Handle} {s : Nat} (hf : f ∈ fs)
    (inUse : session.trackers.queues.fences.find? f = some (.inUse queue s)) :
    ¬l.Stranded device queue f s := fun stranded => by
  obtain ⟨after, ha, -, signaled⟩ := waits.signaled
  have left := stranded.afterRetirements (fs.filterMap session.trackers.implied)
  rw [(waited_eq hs running none live).2] at ha
  unfold retireAll at ha
  rw [foldRetirements_state] at ha
  exact left.fenceStatus ha (signaled f hf queue s inUse)

end Order

/-- In every session of every run that goes on and has no completion reported, a wait for
all of several live fences goes well in whatever order they are listed exactly if the
submission of each fence in use can retire at once, on a queue of the device, and no two of
them went to one queue.  Submissions that have retired while their fence is still in use, which
an internal error leaves behind, are those of queues that the device owns. -/
theorem waitsInAnyOrder_iff {config : Config} (h : Reached Tame config l)
    (hs : l.sessions[device]? = some session) (running : session.halted = false)
    (none : l.pending = [])
    (live : ∀ f ∈ fs, ∃ x, session.trackers.queues.fences.find? f = some x)
    (left : ∀ f ∈ fs, ∀ queue s q,
      session.trackers.queues.fences.find? f = some (.inUse queue s) →
      session.trackers.queues.queues.find? queue = some q → s ≤ q.lastRetired →
      l.owners[queue]? = some device) :
    l.WaitsInAnyOrder device session fs ↔
      (∀ f ∈ fs, ∀ queue s, session.trackers.queues.fences.find? f = some (.inUse queue s) →
        l.owners[queue]? = some device ∧ session.trackers.Ready ⟨queue, s⟩) ∧
      ∀ f ∈ fs, ∀ f' ∈ fs, ∀ queue s s',
        session.trackers.queues.fences.find? f = some (.inUse queue s) →
        session.trackers.queues.fences.find? f' = some (.inUse queue s') → s = s' := by
  have linked := ((books_of_reached h).books device session hs).sound.linked
  have scheduled := scheduled_of_reached h hs
  constructor
  · intro waits
    have owned : ∀ f ∈ fs, ∀ queue s,
        session.trackers.queues.fences.find? f = some (.inUse queue s) →
        l.owners[queue]? = some device := by
      intro f hf queue s inUse
      refine Classical.byContradiction fun unowned => ?_
      obtain ⟨q, hq, -, -⟩ := scheduled.guarded.submitted inUse
      refine not_stranded_of_waits hs running none live waits hf inUse
        ⟨unowned, session, q, hs, scheduled.guarded, inUse, hq, ?_⟩
      exact Nat.lt_of_not_le fun early => unowned (left f hf queue s q inUse hq early)
    constructor
    · intro f hf queue s inUse
      have own := owned f hf queue s inUse
      exact ⟨own, ready_of_waits hs running none live scheduled waits hf inUse own⟩
    · intro f hf f' hf' queue s s' inUse inUse'
      have own := owned f hf queue s inUse
      exact Nat.le_antisymm
        (le_of_waits hs running none live linked scheduled waits hf hf' inUse inUse' own)
        (le_of_waits hs running none live linked scheduled waits hf' hf inUse' inUse own)
  · rintro ⟨ready, one⟩
    refine waitsInAnyOrder hs running none live linked scheduled.guarded.kept (fun r hr => ?_)
      fun r hr r' hr' same => ?_
    · obtain ⟨f, hf, implied⟩ := List.mem_filterMap.mp hr
      exact ready f hf r.queue r.upTo (Trackers.implied_eq_some_iff.mp implied)
    · obtain ⟨f, hf, implied⟩ := List.mem_filterMap.mp hr
      obtain ⟨f', hf', implied'⟩ := List.mem_filterMap.mp hr'
      have inUse' := Trackers.implied_eq_some_iff.mp implied'
      rw [← same] at inUse'
      exact one f hf f' hf' _ _ _ (Trackers.implied_eq_some_iff.mp implied) inUse'

/-- Two submissions to one queue and one to another, each with a fence. -/
def fenced : List Hook :=
  [.post (.createDevice ⟨1, .device⟩) .success,
   .post (.getDeviceQueue ⟨1, .device⟩ ⟨2, .queue⟩) .success,
   .post (.getDeviceQueue ⟨1, .device⟩ ⟨3, .queue⟩) .success,
   .post (.createFence ⟨1, .device⟩ ⟨4, .fence⟩ false) .success,
   .post (.createFence ⟨1, .device⟩ ⟨5, .fence⟩ false) .success,
   .post (.createFence ⟨1, .device⟩ ⟨6, .fence⟩ false) .success,
   .pre (.queueSubmit ⟨2, .queue⟩ [] (some ⟨4, .fence⟩)),
   .pre (.queueSubmit ⟨2, .queue⟩ [] (some ⟨5, .fence⟩)),
   .pre (.queueSubmit ⟨3, .queue⟩ [] (some ⟨6, .fence⟩))]

/-- A wait for the fences of the later submissions to both queues goes well in either
order. -/
theorem waitsInAnyOrder_of_fenced :
    ∃ session ∈ ((start {}).run fenced).sessions[(⟨1, .device⟩ : Handle)]?,
      ((start {}).run fenced).WaitsInAnyOrder ⟨1, .device⟩ session
        [⟨5, .fence⟩, ⟨6, .fence⟩] := by
  have reached : Reached Tame {} ((start {}).run fenced) := Reached.start.run (by decide +kernel)
  have found : ∃ session ∈ ((start {}).run fenced).sessions[(⟨1, .device⟩ : Handle)]?,
      session.halted = false ∧
      session.trackers.queues.fences.find? ⟨5, .fence⟩ = some (.inUse ⟨2, .queue⟩ 2) ∧
      session.trackers.queues.fences.find? ⟨6, .fence⟩ = some (.inUse ⟨3, .queue⟩ 1) ∧
      session.trackers.Ready ⟨⟨2, .queue⟩, 2⟩ ∧ session.trackers.Ready ⟨⟨3, .queue⟩, 1⟩ := by
    decide +kernel
  have own2 : ((start {}).run fenced).owners[(⟨2, .queue⟩ : Handle)]? = some ⟨1, .device⟩ := by
    decide +kernel
  have own3 : ((start {}).run fenced).owners[(⟨3, .queue⟩ : Handle)]? = some ⟨1, .device⟩ := by
    decide +kernel
  obtain ⟨session, hs, running, first, second, ready2, ready3⟩ := found
  have uses : ∀ f ∈ [(⟨5, .fence⟩ : Handle), ⟨6, .fence⟩], ∀ queue s,
      session.trackers.queues.fences.find? f = some (.inUse queue s) →
        f = ⟨5, .fence⟩ ∧ queue = ⟨2, .queue⟩ ∧ s = 2 ∨ f = ⟨6, .fence⟩ ∧ queue = ⟨3, .queue⟩ ∧ s = 1 := by
    intro f hf queue s inUse
    rcases List.mem_pair.mp hf with rfl | rfl
    · rw [first] at inUse
      cases inUse
      exact .inl ⟨rfl, rfl, rfl⟩
    · rw [second] at inUse
      cases inUse
      exact .inr ⟨rfl, rfl, rfl⟩
  refine ⟨session, hs, (waitsInAnyOrder_iff reached hs running (by decide +kernel) (fun f hf => ?_)
    fun f hf queue s q inUse _ _ => ?_).mpr ⟨fun f hf queue s inUse => ?_,
      fun f hf f' hf' queue s s' inUse inUse' => ?_⟩⟩
  · rcases List.mem_pair.mp hf with rfl | rfl
    · exact ⟨_, first⟩
    · exact ⟨_, second⟩
  · rcases uses f hf queue s inUse with ⟨-, rfl, -⟩ | ⟨-, rfl, -⟩
    · exact own2
    · exact own3
  · rcases uses f hf queue s inUse with ⟨-, rfl, rfl⟩ | ⟨-, rfl, rfl⟩
    · exact ⟨own2, ready2⟩
    · exact ⟨own3, ready3⟩
  · rcases uses f hf queue s inUse with ⟨-, rfl, rfl⟩ | ⟨-, rfl, rfl⟩
    · rcases uses f' hf' _ s' inUse' with ⟨-, -, rfl⟩ | ⟨-, he, -⟩
      · rfl
      · cases he
    · rcases uses f' hf' _ s' inUse' with ⟨-, he, -⟩ | ⟨-, -, rfl⟩
      · cases he
      · rfl

/-- A wait for the fences of both submissions to one queue raises an internal error if the
later one is listed first, and validation stops. -/
theorem wait_order_of_fenced :
    ∃ session ∈ ((start {}).run fenced).sessions[(⟨1, .device⟩ : Handle)]?,
      Reached Tame {} ((start {}).run fenced) ∧ session.halted = false ∧
      ((start {}).run fenced).pending = [] ∧
      (∀ f ∈ [(⟨5, .fence⟩ : Handle), ⟨4, .fence⟩],
        ∃ x, session.trackers.queues.fences.find? f = some x) ∧
      ((waited ⟨1, .device⟩ [⟨5, .fence⟩, ⟨4, .fence⟩]).run
        ((start {}).run fenced)).value.has .internalError = true ∧
      (∃ after ∈ ((waited ⟨1, .device⟩ [⟨5, .fence⟩, ⟨4, .fence⟩]).run
        ((start {}).run fenced)).state.sessions[(⟨1, .device⟩ : Handle)]?, after.halted = true) ∧
      ¬((start {}).run fenced).WaitsInAnyOrder ⟨1, .device⟩ session
        [⟨5, .fence⟩, ⟨4, .fence⟩] := by
  have reached : Reached Tame {} ((start {}).run fenced) := Reached.start.run (by decide +kernel)
  have found : ∃ session ∈ ((start {}).run fenced).sessions[(⟨1, .device⟩ : Handle)]?,
      session.halted = false ∧ ∀ f ∈ [(⟨5, .fence⟩ : Handle), ⟨4, .fence⟩],
        (session.trackers.queues.fences.find? f).isSome = true := by decide +kernel
  have raised : ((waited ⟨1, .device⟩ [⟨5, .fence⟩, ⟨4, .fence⟩]).run
      ((start {}).run fenced)).value.has .internalError = true := by decide +kernel
  obtain ⟨session, hs, running, live⟩ := found
  refine ⟨session, hs, reached, running, by decide +kernel, fun f hf =>
    Option.isSome_iff_exists.mp (live f hf), raised, by decide +kernel, fun waits => ?_⟩
  have mild := waits.mild
  rw [raised] at mild
  cases mild

end Layer

end GpuAudit
