import Mathlib.Data.List.Induction
import GpuAudit.Proofs.Sparse
import GpuAudit.Proofs.Suppression
import GpuAudit.Proofs.Waits

/-!
# Sparse bindings that are forwarded

The driver executes all sparse bindings of a call that it gets.  The books `Follow` the
call if each resource that it names is bound as the last of its bindings asks.

A call is skipped if something about it is an error.  Of all that stops a list of sparse
bindings, only the release of a resource that has no binding is not: it is a mere warning,
but none of the list is applied.  So the books follow a call that is forwarded unless it
contains such a release, and `forwarded_follows_iff` is the exact condition.  Memory that
a resource is bound to in the books cannot be freed.
-/

namespace GpuAudit

open Track (Raises raises_ok raises_error)

/-! ## Errors -/

/-- An internal error is an error. -/
theorem Violation.isError_of_fatal {v : Violation} (h : v.isFatal = true) :
    v.toDiagnostic.isError = true := by
  cases v with
  | internal => rfl
  | _ => cases h

theorem Violation.isError_of_error {v : Violation} (h : v.toDiagnostic.severity = .error) :
    v.toDiagnostic.isError = true := by
  show decide (Severity.error ≤ v.toDiagnostic.severity) = true
  rw [h]
  rfl

theorem Track.Strict.isError {α : Type} {answer : Except Violation α} (h : Strict answer) :
    Raises (·.toDiagnostic.isError = true) answer := fun v hv => Violation.isError_of_error (h v hv)

/-- Where errors skip calls, a violation that skips none is no error. -/
theorem ValidationConfig.isError_of_forwarded {c : ValidationConfig} {d : Diagnostic}
    (suppress : c.suppressOnError = true) (warnings : List Diagnostic)
    (forwarded : (c.verdict (warnings ++ [d])).skipCall = false) : d.isError = false := by
  have found : (c.suppressOnError && (warnings ++ [d]).any (·.isError)) = false := forwarded
  rw [suppress, Bool.true_and, List.any_append, Bool.or_eq_false_iff] at found
  simpa using found.2

/-! ## What a list asks -/

/-- What a list of sparse bindings asks of a resource: the last that names it counts. -/
def asked (bs : List SparseBind) (r : Handle) : Option Binding :=
  (bs.reverse.find? (·.resource = r)).map (·.binding)

theorem asked_concat (bs : List SparseBind) (b : SparseBind) (r : Handle) :
    asked (bs ++ [b]) r = if b.resource = r then some b.binding else asked bs r := by
  by_cases here : b.resource = r
  · simp [asked, here]
  · simp [asked, here]

theorem mem_of_asked {bs : List SparseBind} {r : Handle} {binding : Binding}
    (h : asked bs r = some binding) : ∃ b ∈ bs, b.resource = r := by
  obtain ⟨b, hb, -⟩ := Option.map_eq_some_iff.mp h
  have named := List.find?_some hb
  exact ⟨b, List.mem_reverse.mp (List.mem_of_find?_eq_some hb), by simpa using named⟩

/-- Resources are bound as asked, or as before if nothing is asked of them. -/
theorem ResourceTracker.find?_followed (t : ResourceTracker) (bs : List SparseBind) (r : Handle) :
    (t.followed bs).find? r =
      (t.find? r).map fun x => { x with binding := (asked bs r).getD x.binding } := by
  induction bs using List.reverseRecOn with
  | nil =>
      show t.find? r = (t.find? r).map id
      rw [Option.map_id_fun, id]
  | append_singleton bs b ih =>
      simp only [followed, List.foldl_append, List.foldl_cons, List.foldl_nil] at ih ⊢
      rw [find?_rebound, ih, asked_concat]
      by_cases here : r = b.resource
      · rw [if_pos here, if_pos here.symm, Option.map_map]
        rfl
      · rw [if_neg here, if_neg (Ne.symm here)]

/-! ## What the books make of it -/

namespace ResourceTracker

variable {t : ResourceTracker} {front bs : List SparseBind} {b : SparseBind}

/-- Each resource that a list names is bound as the list asks. -/
def Follows (t : ResourceTracker) (bs : List SparseBind) : Prop :=
  ∀ r binding, asked bs r = some binding → ∃ x, t.find? r = some x ∧ x.binding = binding

/-- The binding releases a resource that has none after the bindings in front. -/
def Idle (t : ResourceTracker) (front : List SparseBind) (b : SparseBind) : Prop :=
  b.memory = none ∧ ∃ x, t.find? b.resource = some x ∧
    (asked front b.resource).getD x.binding = .unbound

/-- What is left of a list releases a resource that has no binding by then. -/
def ReleasesUnbound (t : ResourceTracker) (front bs : List SparseBind) : Prop :=
  ∃ mid b rest, bs = mid ++ b :: rest ∧ t.Idle (front ++ mid) b

theorem not_releasesUnbound_nil : ¬t.ReleasesUnbound front [] := by
  rintro ⟨mid, b, rest, parts, -⟩
  cases mid with
  | nil => cases parts
  | cons _ _ => cases parts

theorem releasesUnbound_cons : t.ReleasesUnbound front (b :: bs) ↔
    t.Idle front b ∨ t.ReleasesUnbound (front ++ [b]) bs := by
  constructor
  · rintro ⟨mid, c, rest, parts, idle⟩
    cases mid with
    | nil =>
        cases parts
        rw [List.append_nil] at idle
        exact .inl idle
    | cons a mid =>
        cases parts
        exact .inr ⟨mid, c, rest, rfl, by rwa [List.append_assoc, List.singleton_append]⟩
  · rintro (idle | ⟨mid, c, rest, rfl, idle⟩)
    · exact ⟨[], b, bs, rfl, by rwa [List.append_nil]⟩
    · exact ⟨b :: mid, c, rest, rfl, by rwa [List.append_assoc, List.singleton_append] at idle⟩

end ResourceTracker

namespace Trackers

variable {t : Trackers} {front bs : List SparseBind} {b : SparseBind}

/-! ## The check -/

/-- The check remembers of each resource whether the bindings in front leave it bound. -/
def Recalls (front : List SparseBind) (bound : Std.ExtTreeMap Handle Bool) : Prop :=
  ∀ r : Handle, bound[r]? = (asked front r).map fun binding => decide (binding ≠ .unbound)

theorem recalls_nil : Recalls [] ∅ := fun _ => by simp [asked]

theorem Recalls.concat {bound : Std.ExtTreeMap Handle Bool} (h : Recalls front bound)
    (b : SparseBind) : Recalls (front ++ [b]) (bound.insert b.resource b.memory.isSome) := by
  intro r
  rw [asked_concat, Handle.getElem?_insert]
  by_cases here : r = b.resource
  · rw [if_pos here, if_pos here.symm]
    cases hm : b.memory with
    | some memory => simp [binding_of_some hm]
    | none => simp [binding_of_none hm]
  · rw [if_neg here, if_neg (Ne.symm here)]
    exact h r

/-- Whether a resource is bound when its turn comes. -/
theorem Recalls.getD {bound : Std.ExtTreeMap Handle Bool} (h : Recalls front bound) (r : Handle)
    (before : Binding) : (bound[r]?).getD (decide (before ≠ .unbound)) =
      decide ((asked front r).getD before ≠ .unbound) := by
  rw [h r]
  cases asked front r with
  | none => rfl
  | some binding => rfl

/-- A binding that passes is no release of a resource that has none. -/
theorem Recalls.passed {bound : Std.ExtTreeMap Handle Bool} (h : Recalls front bound)
    (hc : t.checkSparse bound [b] = .ok ()) :
    (∃ x, t.resources.find? b.resource = some x) ∧ ¬t.resources.Idle front b := by
  simp only [checkSparse] at hc
  obtain ⟨x, hl, hc⟩ := bind_eq_ok_iff.mp hc
  have hx := ResourceTracker.lookup_eq_ok_iff.mp hl
  refine ⟨⟨x, hx⟩, ?_⟩
  rintro ⟨hm, y, hy, unbound⟩
  rw [hx] at hy
  cases hy
  rw [hm, h.getD, unbound] at hc
  split at hc
  next => cases hc
  next => simp at hc

/-- A binding is refused with an error, unless it releases a resource that has none. -/
theorem Recalls.refused {bound : Std.ExtTreeMap Handle Bool} (h : Recalls front bound)
    (b : SparseBind) : Raises (fun v => v.toDiagnostic.isError = true ∨ t.resources.Idle front b)
      (t.checkSparse bound [b]) := by
  simp only [checkSparse]
  cases hl : t.resources.lookup b.resource with
  | error v =>
      exact raises_error (.inl ((t.resources.strict_lookup b.resource).isError v hl))
  | ok x =>
      refine Raises.ite (raises_error (.inl rfl)) ?_
      cases hm : b.memory with
      | some memory =>
          have strict := t.resources.strict_checkBind b.resource t.memory memory b.offset
            b.resource.kind
          have error := fun v hv => Or.inl (b := t.resources.Idle front b) (strict.isError v hv)
          exact (Raises.discard error).bind fun _ => raises_ok ()
      | none =>
          dsimp only
          rw [h.getD]
          split
          next => exact raises_ok ()
          next idle =>
            refine raises_error (.inr ⟨hm, x, ResourceTracker.lookup_eq_ok_iff.mp hl, ?_⟩)
            simpa using idle

/-- A list that passes names live resources, and releases none that has no binding. -/
theorem Recalls.passed_all {bound : Std.ExtTreeMap Handle Bool} (h : Recalls front bound)
    (hc : t.checkSparse bound bs = .ok ()) :
    (∀ b ∈ bs, ∃ x, t.resources.find? b.resource = some x) ∧
      ¬t.resources.ReleasesUnbound front bs := by
  induction bs generalizing front bound with
  | nil => exact ⟨by simp, ResourceTracker.not_releasesUnbound_nil⟩
  | cons b bs ih =>
      rw [checkSparse_cons] at hc
      obtain ⟨_, first, rest⟩ := bind_eq_ok_iff.mp hc
      obtain ⟨here, busy⟩ := h.passed first
      obtain ⟨live, others⟩ := ih (h.concat b) rest
      rw [List.forall_mem_cons, ResourceTracker.releasesUnbound_cons, not_or]
      exact ⟨⟨here, live⟩, busy, others⟩

/-- A list is refused with an error, unless it releases a resource that has no binding. -/
theorem Recalls.refused_all {bound : Std.ExtTreeMap Handle Bool} (h : Recalls front bound)
    (bs : List SparseBind) :
    Raises (fun v => v.toDiagnostic.isError = true ∨ t.resources.ReleasesUnbound front bs)
      (t.checkSparse bound bs) := by
  induction bs generalizing front bound with
  | nil => exact raises_ok ()
  | cons b bs ih =>
      rw [checkSparse_cons]
      simp only [ResourceTracker.releasesUnbound_cons]
      apply Raises.bind
      · intro v hv
        exact (h.refused b v hv).imp_right .inl
      · intro _ v hv
        exact (ih (h.concat b) v hv).imp_right .inr

/-! ## The operation -/

/-- The books follow a list of sparse bindings that is applied; if none of it is, that is an
error, or the list releases a resource that has no binding. -/
theorem bindSparse_follows (h : t.Sound) (bs : List SparseBind) :
    (bindSparse bs).Ends t
      (fun _ u => u.Sound ∧ u.resources.Follows bs ∧ ¬t.resources.ReleasesUnbound [] bs)
      fun v u => v.toDiagnostic.isError = true ∨ t.resources.ReleasesUnbound [] bs ∧ u = t := by
  unfold bindSparse
  rw [Track.ends_bind, Track.ends_query, Track.ends_ofExcept]
  refine ⟨fun _ hc => ?_, fun v hv => ?_⟩
  · obtain ⟨live, bound⟩ := recalls_nil.passed_all hc
    refine (applySparse_ends [] h .refl (foresees_refl t) hc).mono (fun _ u hu => ?_)
      fun _ _ hf => .inl (Violation.isError_of_fatal hf.1)
    obtain ⟨edits, resources⟩ := hu
    refine ⟨h.edits edits, fun r binding hr => ?_, bound⟩
    obtain ⟨b, hb, rfl⟩ := mem_of_asked hr
    obtain ⟨x, hx⟩ := live b hb
    refine ⟨_, by rw [resources, ResourceTracker.find?_followed, hx, Option.map_some], ?_⟩
    rw [hr]
    rfl
  · exact (recalls_nil.refused_all bs v hv).imp_right fun releases => ⟨releases, rfl⟩

/-- The same of the call: its other checks raise errors. -/
theorem validate_queueBindSparse (h : t.Sound) (owners : Owners) (device queue : Handle)
    (bs : List SparseBind) :
    (validate owners device (.queueBindSparse queue bs)).Ends t
      (fun _ u => u.Sound ∧ u.resources.Follows bs ∧ ¬t.resources.ReleasesUnbound [] bs)
      fun v u => v.toDiagnostic.isError = true ∨ t.resources.ReleasesUnbound [] bs ∧ u = t := by
  refine ends_nothing.mpr ?_
  rw [Track.ends_bind, Track.ends_discard, Track.ends_query, Track.ends_ofExcept]
  refine ⟨fun _ _ => ?_, fun v hv => .inl ((t.queues.strict_queue queue).isError v hv)⟩
  rw [Track.ends_bind]
  refine Track.Ends.mono (Track.Ends.forM_keeps (· = t) rfl fun b _ u hu => ?_) (fun _ u hu => ?_)
    fun _ _ hv => hv
  · cases b.memory with
    | none => exact hu
    | some memory =>
        refine Track.ends_ofExcept.mpr ⟨fun _ _ => hu, fun v hv => .inl ?_⟩
        exact (strict_checkMemoryDevice owners device b.resource memory).isError v hv
  · rw [hu]
    exact bindSparse_follows h bs

/-- An allocation that a resource is bound to cannot be freed. -/
theorem Linked.free_bound (h : t.Linked) {r memory : Handle}
    (bound : t.resources.BoundTo r memory) :
    ∃ bindings users, ((MemoryTracker.free memory).on t.memory).value =
      .error (.freedMemRef memory bindings users) ∧ r ∈ bindings := by
  obtain ⟨m, hm, listed⟩ := (h.bound r memory).mp bound
  have linked := MemoryObject.links_pos_of_bound listed
  obtain ⟨v, hv, rfl, -⟩ := (MemoryTracker.free_linked_ends h.tallied hm linked).stops
  exact ⟨_, _, hv, Std.ExtTreeSet.mem_toList.mpr listed⟩

end Trackers

namespace Layer

variable {l : Layer} {config : Config} {device queue : Handle} {session : Session}

/-- What stops a call that is not skipped is no error. -/
theorem validateCall_forwarded {call : Call} {v : Violation}
    (suppress : l.config.validation.suppressOnError = true)
    (hs : l.sessionFor call = .ok (device, session)) (running : session.halted = false)
    (forwarded : ((validateCall call).run l).value.skipCall = false)
    (hv : ((Trackers.validate l.owners device call).on session.trackers).value = .error v) :
    v.toDiagnostic.isError = false := by
  unfold validateCall at forwarded
  simp only [Logged.run_bind, Logged.run_get, hs, running, Bool.false_eq_true, if_false,
    runOn_value, runOn_state, hv] at forwarded
  have found :=
    (congrArg Verdict.skipCall (conclude_error_value (some device) v _)).symm.trans forwarded
  exact ValidationConfig.isError_of_forwarded suppress _ found

/-- The verdict on several retirements skips a call if that on one of them does. -/
theorem retireAll_skips {rs : List Retirement} {v : Verdict} (h : v.skipCall = true) :
    ((retireAll rs v).run l).value.skipCall = true := by
  induction rs generalizing v l with
  | nil => exact h
  | cons r rs ih =>
      rw [retireAll_cons_value]
      apply ih
      simp [Verdict.merge, h]

/-- What a retirement leaves of a session that goes on, where errors skip calls and the
retirement skips none. -/
theorem afterRetirement_forwarded {r : Retirement}
    (suppress : l.config.validation.suppressOnError = true)
    (hs : l.sessions[device]? = some session) (running : session.halted = false)
    (forwarded : ((applyRetirement r).run l).value.skipCall = false) :
    ∃ after, (l.afterRetirement r).sessions[device]? = some after ∧ after.halted = false ∧
      after.trackers.resources = session.trackers.resources := by
  unfold afterRetirement
  split
  next => exact ⟨session, hs, running, rfl⟩
  next d found hd =>
    split
    next => exact ⟨session, hs, running, rfl⟩
    next goes =>
      obtain ⟨-, hf⟩ := owningSession_eq_ok_iff.mp hd
      dsimp only
      cases hv : ((Trackers.retireUpTo r).on found.trackers).value with
      | ok bs =>
          have passes := (Trackers.retireUpTo_effect found.trackers r).good_of_ok hv
          show ∃ after, (l.put d found _).sessions[device]? = some after ∧ _
          rw [getElem?_put]
          split
          next here =>
            rw [← here, hs] at hf
            cases hf
            exact ⟨_, rfl, running, passes.settles.resources⟩
          next => exact ⟨session, hs, running, rfl⟩
      | error v =>
          rw [applyRetirement_error hd (by simpa using goes) hv] at forwarded
          have mild := ValidationConfig.isError_of_forwarded suppress [] forwarded
          have blames : v.isFatal = false := by
            by_contra fatal
            rw [Violation.isError_of_fatal (by simpa using fatal)] at mild
            cases mild
          have stops := (Trackers.retireUpTo_effect found.trackers r).bad_of_error hv
          generalize ((Trackers.retireUpTo r).on found.trackers).state = u at stops ⊢
          cases stops with
          | refused =>
              rw [put_same hf, concluded_eq fun w hw => by cases hw; exact blames]
              exact ⟨session, hs, running, rfl⟩
          | halfway fatal =>
              rw [blames] at fatal
              cases fatal

/-- Reported retirements that skip no call leave a session to go on. -/
theorem retireAll_forwarded {rs : List Retirement} {v : Verdict}
    (suppress : l.config.validation.suppressOnError = true)
    (hs : l.sessions[device]? = some session) (running : session.halted = false)
    (forwarded : ((retireAll rs v).run l).value.skipCall = false) :
    ∃ after, (rs.foldl afterRetirement l).sessions[device]? = some after ∧
      after.halted = false ∧ after.trackers.resources = session.trackers.resources := by
  induction rs generalizing v l session with
  | nil => exact ⟨session, hs, running, rfl⟩
  | cons r rs ih =>
      rw [retireAll_cons_value] at forwarded
      have first : ((applyRetirement r).run l).value.skipCall = false := by
        by_contra skips
        rw [retireAll_skips (v := v.merge _) (by simp [Verdict.merge, skips])] at forwarded
        cases forwarded
      obtain ⟨next, hn, goes, same⟩ := afterRetirement_forwarded suppress hs running first
      rw [← config_afterRetirement l r] at suppress
      obtain ⟨after, ha, still, stays⟩ := ih suppress hn goes forwarded
      exact ⟨after, ha, still, stays.trans same⟩

/-- Where errors skip calls, the books of a running session follow a sparse binding call that
is forwarded exactly if no binding of it releases a resource that has none by then, or they
did so before.  Where they follow it, no memory that it binds can be freed. -/
theorem forwarded_follows_iff {binds : List SparseBind} (h : Reached Tame config l)
    (suppress : l.config.validation.suppressOnError = true)
    (hs : l.sessionFor (.queueBindSparse queue binds) = .ok (device, session))
    (running : session.halted = false)
    (forwarded : ((preCall (.queueBindSparse queue binds)).run l).value.skipCall = false) :
    ∃ after, ((preCall (.queueBindSparse queue binds)).run l).state.sessions[device]? = some after ∧
      (after.trackers.resources.Follows binds ↔
        (session.trackers.resources.ReleasesUnbound [] binds →
          session.trackers.resources.Follows binds)) ∧
      (after.trackers.resources.Follows binds → ∀ r memory offset,
        asked binds r = some (.memory memory offset) → ∃ bindings users,
          ((MemoryTracker.free memory).on after.trackers.memory).value =
            .error (.freedMemRef memory bindings users) ∧ r ∈ bindings) := by
  rw [preCall_skips, Bool.or_eq_false_iff] at forwarded
  obtain ⟨completions, own⟩ := forwarded
  obtain ⟨found, owner⟩ := session_of_call hs
  obtain ⟨before, hb, goes, same⟩ : ∃ before, l.drained.sessions[device]? = some before ∧
      before.halted = false ∧ before.trackers.resources = session.trackers.resources :=
    retireAll_forwarded (l := { l with pending := [] }) suppress found running completions
  have owners : l.drained.owners = l.owners := owners_afterRetirements l.pending _
  have config : l.drained.config = l.config := config_afterRetirements l.pending _
  have hc : l.drained.sessionFor (.queueBindSparse queue binds) = .ok (device, before) :=
    owningSession_eq_ok_iff.mpr ⟨owners ▸ owner queue rfl, hb⟩
  have sound := ((countedBooks_drained h).books device before hb).1.sound
  obtain ⟨after, ha, he⟩ := books_afterValidation hc (by simp [goes])
  refine ⟨after, by rw [preCall_state]; exact ha, ?_⟩
  rw [← same]
  have ends := Trackers.validate_queueBindSparse sound l.drained.owners device queue binds
  have left : after.trackers.Sound ∧ (after.trackers.resources.Follows binds ↔
      (before.trackers.resources.ReleasesUnbound [] binds →
        before.trackers.resources.Follows binds)) := by
    rw [he]
    cases hv : ((Trackers.validate l.drained.owners device (.queueBindSparse queue binds)).on
        before.trackers).value with
    | ok released =>
        obtain ⟨sound', follows, bound⟩ := ends.good_of_ok hv
        exact ⟨sound', fun _ releases => absurd releases bound, fun _ => follows⟩
    | error v =>
        have mild := validateCall_forwarded (config ▸ suppress) hc goes own hv
        rcases ends.bad_of_error hv with error | ⟨releases, unchanged⟩
        · rw [error] at mild
          cases mild
        · rw [unchanged]
          exact ⟨sound, fun follows _ => follows, fun follows => follows releases⟩
  refine ⟨left.2, fun follows r memory offset hr => ?_⟩
  obtain ⟨x, hx, bound⟩ := follows r _ hr
  exact left.1.linked.free_bound (Trackers.boundTo_of_binding hx bound)

/-- A second sparse buffer. -/
def sparsePair : List Hook :=
  sparseBuffer ++
    [.post (.createBuffer ⟨1, .device⟩ ⟨6, .buffer⟩ ⟨256, .transferDst, true⟩) .success]

/-- One buffer is bound and released again, and the other is bound. -/
def boundInTurn : List SparseBind :=
  [⟨⟨5, .buffer⟩, some ⟨3, .deviceMemory⟩, 0⟩, ⟨⟨5, .buffer⟩, none, 0⟩,
   ⟨⟨6, .buffer⟩, some ⟨3, .deviceMemory⟩, 256⟩]

/-- The books follow the list, and what it binds cannot be freed. -/
theorem forwarded_of_boundInTurn : ∃ after ∈ ((preCall (.queueBindSparse ⟨2, .queue⟩
      boundInTurn)).run ((start {}).run sparsePair)).state.sessions[(⟨1, .device⟩ : Handle)]?,
    after.trackers.resources.Follows boundInTurn ∧ ∃ bindings users,
      ((MemoryTracker.free ⟨3, .deviceMemory⟩).on after.trackers.memory).value =
        .error (.freedMemRef ⟨3, .deviceMemory⟩ bindings users) ∧ ⟨6, .buffer⟩ ∈ bindings := by
  have reached : Reached Tame {} ((start {}).run sparsePair) :=
    Reached.start.run (by decide +kernel)
  have found : ∃ session ∈ ((start {}).run sparsePair).sessions[(⟨1, .device⟩ : Handle)]?,
      ((start {}).run sparsePair).owners[(⟨2, .queue⟩ : Handle)]? = some ⟨1, .device⟩ ∧
      session.halted = false := by decide +kernel
  obtain ⟨session, hs, owner, running⟩ := found
  have about : ((start {}).run sparsePair).sessionFor (.queueBindSparse ⟨2, .queue⟩ boundInTurn) =
      .ok (⟨1, .device⟩, session) := owningSession_eq_ok_iff.mpr ⟨owner, hs⟩
  obtain ⟨after, ha, follows, free⟩ :=
    forwarded_follows_iff reached (by decide +kernel) about running (by decide +kernel)
  have bound : ¬session.trackers.resources.ReleasesUnbound [] boundInTurn := by
    unfold boundInTurn
    simp [ResourceTracker.releasesUnbound_cons, ResourceTracker.not_releasesUnbound_nil,
      ResourceTracker.Idle, asked, SparseBind.binding]
  have follows := follows.mpr fun releases => absurd releases bound
  exact ⟨after, ha, follows, free follows _ _ 256 (by decide +kernel)⟩

/-- One buffer is bound and the other, which is not, released. -/
def boundBesideIdle : List SparseBind :=
  [⟨⟨5, .buffer⟩, some ⟨3, .deviceMemory⟩, 0⟩, ⟨⟨6, .buffer⟩, none, 0⟩]

/-- A call that is forwarded is not entered in the books, and the memory that the driver binds
can be freed. -/
theorem forwarded_of_boundBesideIdle :
    ∃ session ∈ ((start {}).run sparsePair).sessions[(⟨1, .device⟩ : Handle)]?,
      Reached Tame {} ((start {}).run sparsePair) ∧ session.halted = false ∧
      ((start {}).run sparsePair).config.validation.suppressOnError = true ∧
      ((preCall (.queueBindSparse ⟨2, .queue⟩ boundBesideIdle)).run
        ((start {}).run sparsePair)).value.skipCall = false ∧
      ∃ after ∈ ((preCall (.queueBindSparse ⟨2, .queue⟩ boundBesideIdle)).run
          ((start {}).run sparsePair)).state.sessions[(⟨1, .device⟩ : Handle)]?,
        ¬after.trackers.resources.Follows boundBesideIdle ∧
        ((MemoryTracker.free ⟨3, .deviceMemory⟩).on after.trackers.memory).value.isOk = true := by
  have reached : Reached Tame {} ((start {}).run sparsePair) :=
    Reached.start.run (by decide +kernel)
  have found : ∃ session ∈ ((start {}).run sparsePair).sessions[(⟨1, .device⟩ : Handle)]?,
      session.halted = false := by decide +kernel
  have left : ∃ after ∈ ((preCall (.queueBindSparse ⟨2, .queue⟩ boundBesideIdle)).run
      ((start {}).run sparsePair)).state.sessions[(⟨1, .device⟩ : Handle)]?,
      (∃ x ∈ after.trackers.resources.find? ⟨5, .buffer⟩, x.binding = .unbound) ∧
      ((MemoryTracker.free ⟨3, .deviceMemory⟩).on after.trackers.memory).value.isOk = true := by
    decide +kernel
  obtain ⟨session, hs, running⟩ := found
  obtain ⟨after, ha, ⟨x, hx, unbound⟩, freed⟩ := left
  refine ⟨session, hs, reached, running, by decide +kernel, by decide +kernel, after, ha,
    fun follows => ?_, freed⟩
  obtain ⟨y, hy, bound⟩ := follows ⟨5, .buffer⟩ (.memory ⟨3, .deviceMemory⟩ 0) (by decide +kernel)
  rw [Option.mem_def.mp hx] at hy
  cases hy
  rw [unbound] at bound
  cases bound

end Layer

end GpuAudit
