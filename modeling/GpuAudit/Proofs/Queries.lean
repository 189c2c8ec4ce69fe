import GpuAudit.Proofs.Waits

/-!
# Completions that are reported before a fence is seen signaled

A fence query that succeeds implies a completion.  The hook after it looks this completion
up first, applies those that the driver has reported meanwhile, and applies it last.

A driver that `Behaves` reports only what is in range, and in order for each queue.  That
is no guarantee: it may have reported a later submission to the queue of the fence, and
then the implied completion goes back, which is an internal error.  `Smooth` says of a list
of retirements that they can be applied one after another, in terms of the books before the
first, and `queryGoesWell_iff` is the exact condition for a query.
-/

namespace GpuAudit

namespace Trackers

variable {t : Trackers} {r : Retirement} {f queue : Handle} {s : Nat}

/-- A queue that is not tracked does not retire. -/
theorem retireUpTo_unknown (none : t.queues.queues.find? r.queue = none) :
    (retireUpTo r).Ends t (fun _ _ => False) (Track.Refused t) := by
  unfold retireUpTo
  rw [Track.ends_bind, Track.ends_query, Track.ends_ofExcept]
  refine ⟨fun q hq => ?_, fun v hv => ⟨t.queues.mild_queue r.queue v hv, rfl⟩⟩
  rw [QueueTracker.queue_eq_ok_iff, none] at hq
  cases hq

/-- A fence that is signaled stays signaled when work retires. -/
theorem signaled_pass (hf : t.queues.fences.find? f = some .signaled) :
    (t.pass r).queues.fences.find? f = some .signaled := by
  have view : (t.pass r).queues.fences.find? f = (t.queues.fences.find? f).map fun x =>
      if x.Released (t.due r) f then .signaled else x := t.queues.fences_passed _ _ f
  rw [view, hf, Option.map_some, if_neg Fence.not_released_signaled]

/-- A fence that is in use stays so or is signaled when work retires. -/
theorem inUse_pass (hf : t.queues.fences.find? f = some (.inUse queue s)) :
    (t.pass r).queues.fences.find? f = some (.inUse queue s) ∨
      (t.pass r).queues.fences.find? f = some .signaled := by
  have view : (t.pass r).queues.fences.find? f = (t.queues.fences.find? f).map fun x =>
      if x.Released (t.due r) f then .signaled else x := t.queues.fences_passed _ _ f
  rw [hf, Option.map_some] at view
  split at view
  next => exact .inr view
  next => exact .inl view

/-- A successful fence query enters nothing. -/
theorem recordCreation_query (device : Handle)
    (hf : t.queues.fences.find? f = some (.inUse queue s)) :
    (recordCreation device (.getFenceStatus device f)).Ends t (fun gained u => gained = [] ∧ u = t)
      fun _ _ => False := by
  show (recordCreation.nothing (Track.query (·.queues.fenceRetirement f))).Ends t _ _
  unfold recordCreation.nothing
  rw [Track.ends_bind, Track.ends_discard, Track.ends_query, fenceRetirement_of_found hf,
    Track.ends_ofExcept_ok]
  exact ⟨rfl, rfl⟩

theorem impliedRetirements_query (device : Handle)
    (hf : t.queues.fences.find? f = some (.inUse queue s)) :
    t.impliedRetirements (.getFenceStatus device f) = [⟨queue, s⟩] := by
  have live : ∀ g ∈ [f], ∃ x, t.queues.fences.find? g = some x := fun g hg =>
    ⟨_, (List.mem_singleton.mp hg) ▸ hf⟩
  show fenceRetirements t.queues [f] = _
  rw [fenceRetirements_eq live]
  exact List.filterMap_cons_some (implied_eq_some_iff (r := ⟨queue, s⟩).mpr hf)

end Trackers

namespace Layer

variable {l : Layer} {device queue f : Handle} {session : Session} {r r' : Retirement} {s : Nat}

/-! ## Where a queue retires -/

/-- The books in which a queue retires, with what they say of it.  There are none if no
device owns the queue, if validation of its owner has stopped, or if the owner does not
track it. -/
def tracked (l : Layer) (queue : Handle) : Option (Trackers × Queue) :=
  match l.owningSession queue with
  | .error _ => none
  | .ok (_, session) =>
      if session.halted then none
      else (session.trackers.queues.queues.find? queue).map fun q => (session.trackers, q)

theorem tracked_eq_some_iff {t : Trackers} {q : Queue} : l.tracked queue = some (t, q) ↔
    ∃ device session, l.owners[queue]? = some device ∧ l.sessions[device]? = some session ∧
      session.halted = false ∧ session.trackers = t ∧ t.queues.queues.find? queue = some q := by
  unfold tracked
  constructor
  · intro h
    split at h
    next => cases h
    next device session hd =>
      split at h
      next => cases h
      next running =>
        obtain ⟨owned, hs⟩ := owningSession_eq_ok_iff.mp hd
        obtain ⟨q', hq, he⟩ := Option.map_eq_some_iff.mp h
        cases he
        exact ⟨device, session, owned, hs, by simpa using running, rfl, hq⟩
  · rintro ⟨device, session, owned, hs, running, rfl, hq⟩
    rw [owningSession_eq_ok_iff.mpr ⟨owned, hs⟩]
    simp [running, hq]

theorem tracked_of_owned (owned : l.owners[queue]? = some device)
    (hs : l.sessions[device]? = some session) (running : session.halted = false) :
    l.tracked queue =
      (session.trackers.queues.queues.find? queue).map fun q => (session.trackers, q) := by
  unfold tracked
  rw [owningSession_eq_ok_iff.mpr ⟨owned, hs⟩]
  simp [running]

/-- New books in one session are seen where its device owns the queue. -/
theorem tracked_put (t : Trackers) (running : session.halted = false) :
    (l.put device session t).tracked queue =
      if l.owners[queue]? = some device then
        (t.queues.queues.find? queue).map fun q => (t, q)
      else l.tracked queue := by
  by_cases owned : l.owners[queue]? = some device
  · rw [if_pos owned]
    have placed : (l.put device session t).sessions[device]? =
        some { session with trackers := t } := (getElem?_put t device).trans (if_pos rfl)
    exact tracked_of_owned (l := l.put device session t) owned placed running
  · rw [if_neg owned]
    have owners : (l.put device session t).owners = l.owners := rfl
    have same : (l.put device session t).owningSession queue = l.owningSession queue := by
      unfold owningSession
      rw [owners]
      cases ho : l.owners[queue]? with
      | none => rfl
      | some d =>
          have other : d ≠ device := fun he => owned (he ▸ ho)
          dsimp only
          unfold deviceSession
          rw [getElem?_put, if_neg other]
    unfold tracked
    rw [same]

/-! ## One retirement -/

/-- The retirement is ready in the books that it goes to. -/
def Clear (l : Layer) (r : Retirement) : Prop := ∀ p ∈ l.tracked r.queue, p.1.Ready r

instance (l : Layer) (r : Retirement) : Decidable (l.Clear r) :=
  inferInstanceAs (Decidable (∀ p ∈ l.tracked r.queue, p.1.Ready r))

theorem clear_of_untracked (none : l.tracked r.queue = none) : l.Clear r := fun p hp => by
  rw [none] at hp
  cases hp

theorem clear_iff {t : Trackers} {q : Queue} (ht : l.tracked r.queue = some (t, q)) :
    l.Clear r ↔ t.Ready r := by
  simp [Clear, ht]

theorem mild_owningSession (object : Handle) : Track.Mild (l.owningSession object) := by
  unfold owningSession deviceSession
  split
  · split
    · exact Track.raises_ok _
    · exact Track.mild_error rfl
  · exact Track.mild_error rfl

/-- Without books to go to, a retirement does nothing; what is found is no internal error. -/
theorem applyRetirement_untracked (none : l.tracked r.queue = none) :
    ((applyRetirement r).run l).value.has .internalError = false ∧ l.afterRetirement r = l := by
  unfold tracked at none
  unfold afterRetirement
  cases hd : l.owningSession r.queue with
  | error v =>
      refine ⟨?_, rfl⟩
      unfold applyRetirement
      simp only [Logged.run_bind, Logged.run_get, hd, conclude_error_value]
      exact ValidationConfig.mild_verdict _ (mild_owningSession r.queue v hd)
  | ok found =>
      obtain ⟨d, session⟩ := found
      rw [hd] at none
      dsimp only at none ⊢
      by_cases halted : session.halted = true
      · rw [if_pos halted]
        refine ⟨?_, rfl⟩
        unfold applyRetirement
        simp only [Logged.run_bind, Logged.run_get, hd, if_pos halted]
        rfl
      · rw [if_neg halted] at none ⊢
        obtain ⟨v, hv, mild, same⟩ :=
          (Trackers.retireUpTo_unknown (Option.map_eq_none_iff.mp none)).stops
        rw [applyRetirement_error hd (by simpa using halted) hv, hv, same,
          put_same (owningSession_eq_ok_iff.mp hd).2]
        refine ⟨ValidationConfig.mild_verdict _ mild, concluded_eq fun w hw => ?_⟩
        cases hw
        exact mild

section Books

variable (h : l.Holds Trackers.Books)
include h

/-- A retirement raises no internal error exactly if it is clear. -/
theorem applyRetirement_mild_iff :
    ((applyRetirement r).run l).value.has .internalError = false ↔ l.Clear r := by
  cases ht : l.tracked r.queue with
  | none =>
      exact ⟨fun _ => clear_of_untracked ht, fun _ => (applyRetirement_untracked ht).1⟩
  | some p =>
      obtain ⟨t, q⟩ := p
      rw [clear_iff ht]
      obtain ⟨d, session, owned, hs, running, rfl, hq⟩ := tracked_eq_some_iff.mp ht
      constructor
      · intro mild
        refine Classical.byContradiction fun unready => ?_
        rw [applyRetirement_fails hs running owned hq unready] at mild
        cases mild
      · intro ready
        rw [(applyRetirement_passes hs running owned (h.books d session hs).sound.linked ready).1]
        rfl

/-- What a retirement that is clear leaves: nothing changes, or it passes in the session
of the owner. -/
theorem afterRetirement_clear (clear : l.Clear r) :
    (l.tracked r.queue = none ∧ l.afterRetirement r = l) ∨
      ∃ d session q, l.owners[r.queue]? = some d ∧ l.sessions[d]? = some session ∧
        session.halted = false ∧ session.trackers.queues.queues.find? r.queue = some q ∧
        session.trackers.Ready r ∧
        l.afterRetirement r = l.put d session (session.trackers.pass r) := by
  cases ht : l.tracked r.queue with
  | none => exact .inl ⟨rfl, (applyRetirement_untracked ht).2⟩
  | some p =>
      obtain ⟨t, q⟩ := p
      have ready := (clear_iff ht).mp clear
      obtain ⟨d, session, owned, hs, running, rfl, hq⟩ := tracked_eq_some_iff.mp ht
      have linked := (h.books d session hs).sound.linked
      have passes := applyRetirement_passes hs running owned linked ready
      rw [applyRetirement_state] at passes
      exact .inr ⟨d, session, q, owned, hs, running, hq, ready, passes.2⟩

/-- Each queue is tracked after a clear retirement exactly if it was before. -/
theorem isSome_tracked_afterRetirement (clear : l.Clear r) (queue : Handle) :
    ((l.afterRetirement r).tracked queue).isSome = (l.tracked queue).isSome := by
  rcases afterRetirement_clear h clear with ⟨-, same⟩ | ⟨d, session, q, -, hs, running, -, -, after⟩
  · rw [same]
  · rw [after, tracked_put _ running]
    split
    next owned =>
      rw [tracked_of_owned owned hs running, Trackers.found_pass]
      split <;> simp
    next => rfl

/-- After a clear retirement another is clear that was so before and, on a queue that is
tracked, does not go back. -/
theorem clear_afterRetirement_iff (clear : l.Clear r) :
    (l.afterRetirement r).Clear r' ↔ l.Clear r' ∧
      (r.queue = r'.queue → (l.tracked r.queue).isSome = true → r.upTo ≤ r'.upTo) := by
  rcases afterRetirement_clear h clear with
    ⟨none, same⟩ | ⟨d, session, q, own, hs, running, hq, ready, after⟩
  · rw [same, none]
    simp
  · have tracks : l.tracked r.queue = some (session.trackers, q) := by
      rw [tracked_of_owned own hs running, hq, Option.map_some]
    rw [after, tracks]
    by_cases owned : l.owners[r'.queue]? = some d
    · have kept := (h.books d session hs).sound.kept
      cases hq' : session.trackers.queues.queues.find? r'.queue with
      | none =>
          have elsewhere : r.queue ≠ r'.queue := fun he => by
            rw [he, hq'] at hq
            cases hq
          have before : l.tracked r'.queue = none := by
            rw [tracked_of_owned owned hs running, hq', Option.map_none]
          have still : (l.put d session (session.trackers.pass r)).tracked r'.queue = none := by
            rw [tracked_put _ running, if_pos owned, Trackers.found_pass, hq']
            split <;> rfl
          exact ⟨fun _ => ⟨clear_of_untracked before, fun he => absurd he elsewhere⟩,
            fun _ => clear_of_untracked still⟩
      | some q' =>
          have before : l.tracked r'.queue = some (session.trackers, q') := by
            rw [tracked_of_owned owned hs running, hq', Option.map_some]
          have still : ∃ q'', (l.put d session (session.trackers.pass r)).tracked r'.queue =
              some (session.trackers.pass r, q'') := by
            rw [tracked_put _ running, if_pos owned, Trackers.found_pass, hq']
            split <;> exact ⟨_, rfl⟩
          obtain ⟨q'', still⟩ := still
          rw [clear_iff before, clear_iff still, Trackers.ready_pass_iff kept ready]
          simp
    · have elsewhere : r.queue ≠ r'.queue := fun he => owned (he ▸ own)
      have same : (l.put d session (session.trackers.pass r)).tracked r'.queue =
          l.tracked r'.queue := by rw [tracked_put _ running, if_neg owned]
      unfold Clear
      rw [same]
      exact ⟨fun clear' => ⟨clear', fun he => absurd he elsewhere⟩, And.left⟩

end Books

/-! ## Retirements in a row -/

/-- Retirements that can be applied one after another: each of them is clear to begin with,
and none goes back behind an earlier one of its queue. -/
structure Smooth (l : Layer) (rs : List Retirement) : Prop where
  /-- Each is clear. -/
  clear : ∀ r ∈ rs, l.Clear r
  /-- None goes back. -/
  forward : rs.Pairwise fun r r' =>
    r.queue = r'.queue → (l.tracked r.queue).isSome = true → r.upTo ≤ r'.upTo

theorem smooth_cons {rs : List Retirement} (h : l.Holds Trackers.Books) :
    l.Smooth (r :: rs) ↔ l.Clear r ∧ (l.afterRetirement r).Smooth rs := by
  constructor
  · rintro ⟨clear, forward⟩
    obtain ⟨first, clear⟩ := List.forall_mem_cons.mp clear
    obtain ⟨ahead, forward⟩ := List.pairwise_cons.mp forward
    refine ⟨first, fun r' hr' => ?_, forward.imp fun {a b} le here tracks => ?_⟩
    · exact (clear_afterRetirement_iff h first).mpr ⟨clear r' hr', ahead r' hr'⟩
    · rw [isSome_tracked_afterRetirement h first] at tracks
      exact le here tracks
  · rintro ⟨first, clear, forward⟩
    have both := fun r' hr' => (clear_afterRetirement_iff h first).mp (clear r' hr')
    refine ⟨List.forall_mem_cons.mpr ⟨first, fun r' hr' => (both r' hr').1⟩,
      List.pairwise_cons.mpr ⟨fun r' hr' => (both r' hr').2,
        forward.imp fun {a b} le here tracks => ?_⟩⟩
    rw [← isSome_tracked_afterRetirement h first] at tracks
    exact le here tracks

theorem smooth_nil : l.Smooth [] := ⟨by simp, .nil⟩

/-- Retirements raise no internal error exactly if they are smooth. -/
theorem retireAll_mild_iff {rs : List Retirement} {v : Verdict} (h : l.Holds Trackers.Books)
    (mild : v.has .internalError = false) :
    ((retireAll rs v).run l).value.has .internalError = false ↔ l.Smooth rs := by
  induction rs generalizing v l with
  | nil => exact ⟨fun _ => smooth_nil, fun _ => mild⟩
  | cons r rs ih =>
      rw [retireAll_cons_value, smooth_cons h]
      by_cases clear : l.Clear r
      · have first := (applyRetirement_mild_iff h).mpr clear
        rw [ih (h.afterRetirement books_invariant.toRetirementInvariant r)
          (Verdict.has_merge_eq_false mild first)]
        simp [clear]
      · have raised : ((applyRetirement r).run l).value.has .internalError = true :=
          eq_true_of_ne_false fun mild => clear ((applyRetirement_mild_iff h).mp mild)
        rw [retireAll_has (Verdict.has_merge_right raised)]
        simp [clear]

theorem smooth_append {rs rs' : List Retirement} (h : l.Holds Trackers.Books) :
    l.Smooth (rs ++ rs') ↔ l.Smooth rs ∧ (rs.foldl afterRetirement l).Smooth rs' := by
  induction rs generalizing l with
  | nil => simp [smooth_nil]
  | cons r rs ih =>
      rw [List.cons_append, smooth_cons h, smooth_cons h, and_assoc,
        ih (h.afterRetirement books_invariant.toRetirementInvariant r)]
      exact Iff.rfl

/-- Only the books matter, not what has been reported. -/
theorem smooth_pending {rs pending : List Retirement} :
    ({ l with pending } : Layer).Smooth rs ↔ l.Smooth rs :=
  ⟨fun h => ⟨h.clear, h.forward⟩, fun h => ⟨h.clear, h.forward⟩⟩

/-! ## What smooth retirements leave -/

section Keeps

variable {P : Trackers → Prop} (pass : ∀ t r, t.Ready r → P t → P (t.pass r))
include pass

/-- A clear retirement lets a session go on, and keeps what each one that passes keeps. -/
theorem Clear.keeps (h : l.Holds Trackers.Books) (clear : l.Clear r)
    (hs : l.sessions[device]? = some session) (running : session.halted = false)
    (hp : P session.trackers) : ∃ after, (l.afterRetirement r).sessions[device]? = some after ∧
      after.halted = false ∧ P after.trackers := by
  rcases afterRetirement_clear h clear with
    ⟨-, same⟩ | ⟨d, found, q, -, hf, goes, -, ready, after⟩
  · rw [same]
    exact ⟨session, hs, running, hp⟩
  · rw [after, getElem?_put]
    split
    next here =>
      rw [← here, hs] at hf
      cases hf
      exact ⟨_, rfl, running, pass _ r ready hp⟩
    next => exact ⟨session, hs, running, hp⟩

theorem Smooth.keeps {rs : List Retirement} (h : l.Holds Trackers.Books) (smooth : l.Smooth rs)
    (hs : l.sessions[device]? = some session) (running : session.halted = false)
    (hp : P session.trackers) :
    ∃ after, (rs.foldl afterRetirement l).sessions[device]? = some after ∧
      after.halted = false ∧ P after.trackers := by
  induction rs generalizing l session with
  | nil => exact ⟨session, hs, running, hp⟩
  | cons r rs ih =>
      obtain ⟨first, rest⟩ := (smooth_cons h).mp smooth
      obtain ⟨next, hn, goes, kept⟩ := first.keeps pass h hs running hp
      exact ih (h.afterRetirement books_invariant.toRetirementInvariant r) rest hn goes kept

end Keeps

/-- The queue of a retirement, where it is tracked, has retired as far as it says. -/
def Applied (l : Layer) (r : Retirement) : Prop :=
  ∀ p ∈ l.tracked r.queue, r.upTo ≤ p.2.lastRetired

/-- A clear retirement moves its own queue on, and none back. -/
theorem lastRetired_afterRetirement (h : l.Holds Trackers.Books) (clear : l.Clear r)
    {p : Trackers × Queue} (hp : (l.afterRetirement r).tracked queue = some p) :
    ∃ p', l.tracked queue = some p' ∧ p'.2.lastRetired ≤ p.2.lastRetired ∧
      (queue = r.queue → p.2.lastRetired = r.upTo) := by
  rcases afterRetirement_clear h clear with
    ⟨none, same⟩ | ⟨d, session, q, own, hs, running, hq, ready, after⟩
  · rw [same] at hp
    refine ⟨p, hp, Nat.le_refl _, fun here => ?_⟩
    rw [here, none] at hp
    cases hp
  · rw [after, tracked_put _ running] at hp
    split at hp
    next owned =>
      rw [tracked_of_owned owned hs running]
      rw [Trackers.found_pass] at hp
      split at hp
      next here =>
        obtain ⟨q', hq', range, -⟩ := ready
        rw [here, hq'] at hp ⊢
        cases hp
        exact ⟨_, rfl, range.1, fun _ => rfl⟩
      next away =>
        obtain ⟨q', hq', rfl⟩ := Option.map_eq_some_iff.mp hp
        exact ⟨(session.trackers, q'), by rw [hq', Option.map_some], Nat.le_refl _,
          fun here => absurd here away⟩
    next unowned =>
      exact ⟨p, hp, Nat.le_refl _, fun here => absurd (here ▸ own) unowned⟩

theorem applied_afterRetirement (h : l.Holds Trackers.Books) (clear : l.Clear r) :
    (l.afterRetirement r).Applied r := fun p hp => by
  obtain ⟨-, -, -, here⟩ := lastRetired_afterRetirement h clear hp
  exact Nat.le_of_eq (here rfl).symm

theorem Applied.afterRetirement (h : l.Holds Trackers.Books) (clear : l.Clear r')
    (applied : l.Applied r) : (l.afterRetirement r').Applied r := fun p hp => by
  obtain ⟨p', hp', further, -⟩ := lastRetired_afterRetirement h clear hp
  exact Nat.le_trans (applied p' hp') further

theorem Applied.foldl {rs : List Retirement} (applied : l.Applied r) (h : l.Holds Trackers.Books)
    (smooth : l.Smooth rs) : (rs.foldl Layer.afterRetirement l).Applied r := by
  induction rs generalizing l with
  | nil => exact applied
  | cons r' rs ih =>
      obtain ⟨first, rest⟩ := (smooth_cons h).mp smooth
      exact ih (applied.afterRetirement h first)
        (h.afterRetirement books_invariant.toRetirementInvariant r') rest

/-- Each of several smooth retirements has been applied in the end. -/
theorem Smooth.applied {rs : List Retirement} (h : l.Holds Trackers.Books) (smooth : l.Smooth rs)
    (hr : r ∈ rs) : (rs.foldl afterRetirement l).Applied r := by
  induction rs generalizing l with
  | nil => cases hr
  | cons r' rs ih =>
      obtain ⟨first, rest⟩ := (smooth_cons h).mp smooth
      have after := h.afterRetirement books_invariant.toRetirementInvariant r'
      rcases List.mem_cons.mp hr with rfl | hr
      · exact (applied_afterRetirement h first).foldl after rest
      · exact ih after rest hr

/-! ## The query -/

/-- The fence has been seen signaled. -/
def queried (device f : Handle) : Logged Layer Verdict :=
  postCall (.getFenceStatus device f) .success

/-- A query applies what has been reported and then what the signal of the fence implies. -/
theorem queried_eq (hs : l.sessions[device]? = some session) (running : session.halted = false)
    (inUse : session.trackers.queues.fences.find? f = some (.inUse queue s)) :
    ((queried device f).run l).value =
        ((retireAll (l.pending ++ [⟨queue, s⟩]) .pass).run { l with pending := [] }).value ∧
      ((queried device f).run l).state =
        (l.pending ++ [(⟨queue, s⟩ : Retirement)]).foldl afterRetirement
          { l with pending := [] } := by
  have found : l.sessionFor (.getFenceStatus device f) = .ok (device, session) :=
    deviceSession_eq_ok_iff.mpr ⟨rfl, hs⟩
  obtain ⟨value, state⟩ :=
    recordCall_observes found running (Trackers.recordCreation_query device inUse)
  rw [Trackers.impliedRetirements_query device inUse] at value state
  exact ⟨value, state.trans (foldRetirements_state _ _ _)⟩

/-- What the driver has reported is in range for each queue that is tracked, and in order. -/
structure Behaved (l : Layer) : Prop where
  /-- The reports are in range. -/
  inRange : ∀ r ∈ l.pending, ∀ p ∈ l.tracked r.queue,
    p.2.lastRetired ≤ r.upTo ∧ r.upTo ≤ p.2.lastSubmitted
  /-- The reports of a queue never decrease. -/
  forward : l.pending.Pairwise fun r r' => r.queue = r'.queue → r.upTo ≤ r'.upTo

/-- The command buffers of what a retirement is to retire are live. -/
def Carried (l : Layer) (r : Retirement) : Prop :=
  ∀ p ∈ l.tracked r.queue, ∀ w ∈ Batch.work (p.2.due r.upTo),
    ∃ b, p.1.commands.buffers.find? w.2 = some b

instance (l : Layer) (r : Retirement) : Decidable (l.Carried r) :=
  decidable_of_iff (∀ p ∈ l.tracked r.queue, ∀ w ∈ Batch.work (p.2.due r.upTo),
      (p.1.commands.buffers.find? w.2).isSome = true)
    (forall₂_congr fun _ _ => forall₂_congr fun _ _ => Option.isSome_iff_exists)

/-- A report of a driver that behaves is clear if its command buffers are live. -/
theorem Behaved.clear_iff (behaved : l.Behaved) (hr : r ∈ l.pending) : l.Clear r ↔ l.Carried r := by
  constructor
  · rintro clear ⟨t, q⟩ hp
    obtain ⟨q', hq', -, live⟩ := clear _ hp
    obtain ⟨-, -, -, -, -, -, hq⟩ := tracked_eq_some_iff.mp hp
    rw [hq] at hq'
    cases hq'
    exact live
  · rintro carried ⟨t, q⟩ hp
    obtain ⟨-, -, -, -, -, -, hq⟩ := tracked_eq_some_iff.mp hp
    exact ⟨q, hq, behaved.inRange r hr _ hp, carried _ hp⟩

/-- What has been reported and one more retirement are smooth under three conditions. -/
theorem Behaved.smooth_iff (behaved : l.Behaved) : l.Smooth (l.pending ++ [r]) ↔
    (∀ r' ∈ l.pending, l.Carried r') ∧ l.Clear r ∧
      ∀ r' ∈ l.pending, r'.queue = r.queue → (l.tracked r.queue).isSome = true →
        r'.upTo ≤ r.upTo := by
  constructor
  · rintro ⟨clear, forward⟩
    obtain ⟨-, -, last⟩ := List.pairwise_append.mp forward
    refine ⟨fun r' hr' => (behaved.clear_iff hr').mp (clear r' (List.mem_append_left _ hr')),
      clear r (by simp), fun r' hr' here tracks => ?_⟩
    exact last r' hr' r (List.mem_singleton_self r) here (here ▸ tracks)
  · rintro ⟨carried, clear, last⟩
    refine ⟨fun r' hr' => ?_, List.pairwise_append.mpr ⟨?_, List.pairwise_singleton .., ?_⟩⟩
    · rcases List.mem_append.mp hr' with reported | implied
      · exact (behaved.clear_iff reported).mpr (carried r' reported)
      · exact List.mem_singleton.mp implied ▸ clear
    · exact behaved.forward.imp fun {a b} le here _ => le here
    · intro r' hr' r'' hr'' here tracks
      cases List.mem_singleton.mp hr''
      exact last r' hr' here (here ▸ tracks)

/-- A fence query goes well. -/
structure QueryGoesWell (l : Layer) (device f : Handle) : Prop where
  /-- No internal error is raised. -/
  mild : ((queried device f).run l).value.has .internalError = false
  /-- Validation goes on, and the fence is signaled. -/
  signaled : ∃ after, ((queried device f).run l).state.sessions[device]? = some after ∧
    after.halted = false ∧ after.trackers.queues.fenceStatus f = .ok true
  /-- What has been reported is applied. -/
  applied : ∀ r ∈ l.pending, ((queried device f).run l).state.Applied r

/-- After smooth retirements, the last of which is that of its submission, a fence is
signaled if its device owns the queue. -/
theorem Smooth.signals {rs : List Retirement} (h : l.Holds Trackers.Books)
    (smooth : l.Smooth (rs ++ [⟨queue, s⟩])) (hs : l.sessions[device]? = some session)
    (running : session.halted = false)
    (inUse : session.trackers.queues.fences.find? f = some (.inUse queue s))
    (tracks : ∃ q, session.trackers.queues.queues.find? queue = some q)
    (owned : l.owners[queue]? = some device) :
    ∃ after,
      ((rs ++ [(⟨queue, s⟩ : Retirement)]).foldl afterRetirement l).sessions[device]? = some after ∧
      after.halted = false ∧ after.trackers.queues.fenceStatus f = .ok true := by
  obtain ⟨first, last⟩ := (smooth_append h).mp smooth
  -- until the last one the fence waits for it, or is signaled early
  obtain ⟨before, hb, goes, waits, q, hq⟩ := first.keeps
    (P := fun t => (t.queues.fences.find? f = some (.inUse queue s) ∨
      t.queues.fences.find? f = some .signaled) ∧ ∃ q, t.queues.queues.find? queue = some q)
    (fun t r ready ⟨waits, q, hq⟩ => by
      refine ⟨?_, ?_⟩
      · rcases waits with inUse | signaled
        · exact Trackers.inUse_pass inUse
        · exact .inr (Trackers.signaled_pass signaled)
      · rw [Trackers.found_pass, hq]
        split <;> exact ⟨_, rfl⟩) h hs running ⟨.inl inUse, tracks⟩
  have clear := last.clear _ (List.mem_singleton_self _)
  have owned : (rs.foldl afterRetirement l).owners[queue]? = some device := by
    rw [owners_afterRetirements]
    exact owned
  have here : (rs.foldl afterRetirement l).tracked queue = some (before.trackers, q) := by
    rw [tracked_of_owned owned hb goes, hq, Option.map_some]
  have ready := (clear_iff (r := ⟨queue, s⟩) here).mp clear
  have books := h.afterRetirements books_invariant.toRetirementInvariant rs
  have linked := (books.books device before hb).sound.linked
  have passes := applyRetirement_passes (r := ⟨queue, s⟩) hb goes owned linked ready
  rw [applyRetirement_state] at passes
  rw [List.foldl_append, List.foldl_cons, List.foldl_nil, passes.2, getElem?_put, if_pos rfl]
  refine ⟨_, rfl, goes, ?_⟩
  rcases waits with inUse | signaled
  · exact Trackers.fenceStatus_pass_own ready inUse
  · exact QueueTracker.fenceStatus_eq_true_iff.mpr (.inl (Trackers.signaled_pass signaled))

/-- In every session of every run that goes on, and for whatever a driver that behaves has
reported, a successful query of a fence in use goes well exactly under four conditions: the
command buffers of the work reported are live; the submission of the fence could be retired
by itself; nothing later has been reported for its queue; and the fence is signaled already,
or its queue is one of the device. -/
theorem queryGoesWell_iff {config : Config} (h : Reached Tame config l)
    (hs : l.sessions[device]? = some session) (running : session.halted = false)
    (inUse : session.trackers.queues.fences.find? f = some (.inUse queue s))
    (behaved : l.Behaved) :
    l.QueryGoesWell device f ↔
      (∀ r ∈ l.pending, l.Carried r) ∧ l.Clear ⟨queue, s⟩ ∧
      (∀ r ∈ l.pending, r.queue = queue → (l.tracked queue).isSome = true → r.upTo ≤ s) ∧
      (session.trackers.queues.fenceStatus f = .ok true ∨ l.owners[queue]? = some device) := by
  have books := (books_of_reached h).pending []
  obtain ⟨q, hq, -, -⟩ := (scheduled_of_reached h hs).guarded.submitted inUse
  obtain ⟨value, state⟩ := queried_eq hs running inUse
  have mild : ((queried device f).run l).value.has .internalError = false ↔
      l.Smooth (l.pending ++ [⟨queue, s⟩]) := by
    rw [value, retireAll_mild_iff books rfl]
    exact smooth_pending
  constructor
  · intro well
    obtain ⟨carried, clear, last⟩ := behaved.smooth_iff.mp (mild.mp well.mild)
    refine ⟨carried, clear, last, ?_⟩
    by_contra neither
    obtain ⟨dark, unowned⟩ := not_or.mp neither
    have later : q.lastRetired < s := by
      by_contra early
      exact dark (QueueTracker.fenceStatus_eq_true_iff.mpr
        (.inr ⟨queue, s, q, inUse, hq, Nat.le_of_not_lt early⟩))
    have stranded : ({ l with pending := [] } : Layer).Stranded device queue f s :=
      ⟨unowned, session, q, hs, (scheduled_of_reached h hs).guarded, inUse, hq, later⟩
    obtain ⟨after, ha, -, signaled⟩ := well.signaled
    rw [state] at ha
    exact (stranded.afterRetirements _).fenceStatus ha signaled
  · rintro ⟨carried, clear, last, reaches⟩
    have smooth := behaved.smooth_iff.mpr ⟨carried, clear, last⟩
    have settled : ({ l with pending := [] } : Layer).Smooth (l.pending ++ [⟨queue, s⟩]) :=
      smooth_pending.mpr smooth
    constructor
    case mild => exact mild.mpr smooth
    case signaled =>
      rw [state]
      rcases reaches with signaled | owned
      · exact settled.keeps (P := fun t => t.queues.fenceStatus f = .ok true)
          (fun t r => Trackers.fenceStatus_pass) books hs running signaled
      · exact settled.signals books hs running inUse ⟨q, hq⟩ owned
    case applied =>
      rw [state]
      intro r hr
      exact settled.applied books (List.mem_append_left _ hr)

/-- Of two submissions to one queue the first has been reported, and that to another queue. -/
def firstReported : List Hook :=
  fenced ++ [.report ⟨⟨2, .queue⟩, 1⟩, .report ⟨⟨3, .queue⟩, 1⟩]

/-- A query of the fence of the second submission goes well. -/
theorem queryGoesWell_of_firstReported :
    ((start {}).run firstReported).QueryGoesWell ⟨1, .device⟩ ⟨5, .fence⟩ := by
  have reached : Reached Tame {} ((start {}).run firstReported) :=
    Reached.start.run (by decide +kernel)
  have found : ∃ session ∈ ((start {}).run firstReported).sessions[(⟨1, .device⟩ : Handle)]?,
      session.halted = false ∧
      session.trackers.queues.fences.find? ⟨5, .fence⟩ = some (.inUse ⟨2, .queue⟩ 2) := by
    decide +kernel
  obtain ⟨session, hs, running, inUse⟩ := found
  have behaved : ((start {}).run firstReported).Behaved := ⟨by decide +kernel, by decide +kernel⟩
  exact (queryGoesWell_iff reached hs running inUse behaved).mpr
    ⟨by decide +kernel, by decide +kernel, by decide +kernel, .inr (by decide +kernel)⟩

/-- The second submission has been reported, and with it the first. -/
def secondReported : List Hook := fenced ++ [.report ⟨⟨2, .queue⟩, 2⟩]

/-- The driver behaves, and yet a query of the fence of the first submission raises an internal
error, and validation stops. -/
theorem query_of_secondReported :
    ∃ session ∈ ((start {}).run secondReported).sessions[(⟨1, .device⟩ : Handle)]?,
      Reached Tame {} ((start {}).run secondReported) ∧ session.halted = false ∧
      session.trackers.queues.fences.find? ⟨4, .fence⟩ = some (.inUse ⟨2, .queue⟩ 1) ∧
      ((start {}).run secondReported).Behaved ∧
      ((queried ⟨1, .device⟩ ⟨4, .fence⟩).run
        ((start {}).run secondReported)).value.has .internalError = true ∧
      (∃ after ∈ ((queried ⟨1, .device⟩ ⟨4, .fence⟩).run
        ((start {}).run secondReported)).state.sessions[(⟨1, .device⟩ : Handle)]?,
          after.halted = true) ∧
      ¬((start {}).run secondReported).QueryGoesWell ⟨1, .device⟩ ⟨4, .fence⟩ := by
  have reached : Reached Tame {} ((start {}).run secondReported) :=
    Reached.start.run (by decide +kernel)
  have found : ∃ session ∈ ((start {}).run secondReported).sessions[(⟨1, .device⟩ : Handle)]?,
      session.halted = false ∧
      session.trackers.queues.fences.find? ⟨4, .fence⟩ = some (.inUse ⟨2, .queue⟩ 1) := by
    decide +kernel
  have raised : ((queried ⟨1, .device⟩ ⟨4, .fence⟩).run
      ((start {}).run secondReported)).value.has .internalError = true := by decide +kernel
  obtain ⟨session, hs, running, inUse⟩ := found
  refine ⟨session, hs, reached, running, inUse, ⟨by decide +kernel, by decide +kernel⟩, raised,
    by decide +kernel, fun well => ?_⟩
  have mild := well.mild
  rw [raised] at mild
  cases mild

end Layer

end GpuAudit
