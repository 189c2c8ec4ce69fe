import GpuAudit.Proofs.Consistency
import GpuAudit.Proofs.Warnings

/-!
# Calls that are skipped

The hook before a call applies the reported completions and then the call, and its
verdict asks to skip the call if either of the two raised an error.  So a call is
skipped in two ways.  If the call itself was refused, it has left no trace, except
for a swapchain that was entered half way and is struck out half way.  If only a
completion raised an error, the call was accepted and applied all the same, although
the driver never gets it.

Calls are rejected as a whole, since each checks all that can fail before it changes
anything: `Trackers.refused_of_error`.
-/

namespace GpuAudit

open Track (Refused)

/-! ## Swapchains -/

namespace ResourceTracker

variable {t : ResourceTracker} {s : Handle}

theorem destroySwapchain_unknown (h : t.swapchains.find? s = none) :
    (destroySwapchain s).Ends t (fun _ _ => False) (Refused t) := by
  unfold destroySwapchain
  rw [Track.ends_bind, Track.ends_get, Track.ends_bind, Track.ends_ofExcept]
  refine ⟨fun struck hr => ?_, fun v hv => ⟨Registry.mild_unregister s v hv, rfl⟩⟩
  rw [(Registry.unregister_eq_ok_iff.mp hr).1] at h
  cases h

/-- A swapchain is struck out even if its images are not. -/
theorem destroySwapchain_struck {images : List Handle} (h : t.swapchains.find? s = some images) :
    (destroySwapchain s).Ends t (fun _ u => u.swapchains.find? s = none)
      fun _ u => u.swapchains.find? s = none := by
  have hr := Registry.unregister_eq_ok_iff.mpr ⟨h, rfl⟩
  have gone := Registry.find?_unregister hr s
  rw [if_pos rfl] at gone
  unfold destroySwapchain
  rw [Track.ends_bind, Track.ends_get, Track.ends_bind, hr, Track.ends_ofExcept_ok,
    Track.ends_bind, Track.ends_set, Track.ends_bind]
  refine Track.Ends.forM_keeps (fun u : ResourceTracker => u.swapchains.find? s = none)
    gone fun i _ u hu => ?_
  rw [Track.ends_restate, Track.ends_update_bind]
  exact ⟨fun _ _ => hu, fun _ _ => hu⟩

end ResourceTracker

/-! ## Refused calls -/

namespace Trackers

variable {t : Trackers}

theorem validate_begin_ends (h : t.Linked) (owners : Owners) (device cb : Handle)
    (flags : CommandBufferUsage) :
    (validate owners device (.beginCommandBuffer cb flags)).Ends t (fun _ _ => True) (Refused t) :=
  ends_nothing.mpr ((begin_recycles h cb flags).mono (fun _ _ _ => trivial) fun _ _ hv => hv)

/-- A refused call leaves the books as they are, unless an allocation gets too many links
or a swapchain is struck out. -/
theorem refused_of_error (h : t.Sound) (owners : Owners) (device : Handle) {call : Call}
    (kept : ∀ d s, call = .destroySwapchain d s → t.resources.swapchains.find? s = none)
    {v : Violation} (hv : ((validate owners device call).on t).value = .error v)
    (few : ((validate owners device call).on t).state.memory.Counted) :
    Refused t v ((validate owners device call).on t).state := by
  by_cases begins : ∃ cb flags, call = .beginCommandBuffer cb flags
  · obtain ⟨cb, flags, rfl⟩ := begins
    exact (validate_begin_ends h.linked owners device cb flags).bad_of_error hv
  · by_cases swapchain : EndsSwapchain call
    · obtain ⟨d, s, rfl⟩ := swapchain.eq
      have ends : (validate owners device (.destroySwapchain d s)).Ends t (fun _ _ => False)
          (Refused t) := by
        refine ends_nothing.mpr ?_
        unfold onResources
        rw [Track.ends_within]
        exact (ResourceTracker.destroySwapchain_unknown (kept d s rfl)).mono (fun _ _ hf => hf)
          fun _ _ hr => ⟨hr.1, by rw [hr.2]⟩
      exact ends.bad_of_error hv
    · rcases (validate_call_ends h owners device call fun cb flags hc =>
          absurd ⟨cb, flags, hc⟩ begins).bad_of_error hv with (refused | uncounted) | ⟨ends, -⟩
      · exact refused
      · exact absurd few uncounted.2
      · exact absurd ends swapchain

end Trackers

namespace Layer

variable {l : Layer} {config : Config} {device : Handle} {session : Session} {call : Call}

/-! ## Verdicts -/

theorem verdict_of_warnings (choices : ValidationConfig) {warnings : List Diagnostic}
    (mild : ∀ d ∈ warnings, d.isError = false) : (choices.verdict warnings).skipCall = false := by
  have none : warnings.any (·.isError) = false := by
    rw [List.any_eq_false]
    intro d hd he
    rw [mild d hd] at he
    cases he
  show (choices.suppressOnError && warnings.any (·.isError)) = false
  rw [none, Bool.and_false]

/-- An accepted call is not skipped on its own account. -/
theorem validateCall_accepted (hs : l.sessionFor call = .ok (device, session))
    (running : ¬session.halted = true) {released : List Handle}
    (ho : ((Trackers.validate l.owners device call).on session.trackers).value = .ok released) :
    ((validateCall call).run l).value.skipCall = false := by
  have warnings : ∀ d ∈ ((Trackers.validate l.owners device call).on
      session.trackers).notes.filterMap (·.warning?), d.isError = false := fun d hd => by
    obtain ⟨n, hn, he⟩ := List.mem_filterMap.mp hd
    exact (Trackers.gentle_validate l.owners device call session.trackers n hn).2 d he
  unfold validateCall
  simp only [Logged.run_bind, Logged.run_get, hs, if_neg running, runOn_value, ho]
  exact verdict_of_warnings l.config.validation warnings

/-- Nothing is found in a halted session, and nothing changes. -/
theorem validateCall_halted (hs : l.sessionFor call = .ok (device, session))
    (halted : session.halted = true) : (validateCall call).run l = ⟨.pass, l, []⟩ := by
  unfold validateCall
  simp only [Logged.run_bind, Logged.run_get, hs, if_pos halted]
  rfl

/-- The call has a running session, whose books refuse it with a violation. -/
def Rejects (l : Layer) (call : Call) (device : Handle) (session : Session) (v : Violation) :
    Prop :=
  l.sessionFor call = .ok (device, session) ∧ ¬session.halted = true ∧
    ((Trackers.validate l.owners device call).on session.trackers).value = .error v

theorem validateCall_skips (skips : ((validateCall call).run l).value.skipCall = true) :
    (∃ v, l.sessionFor call = .error v) ∨ ∃ device session v, l.Rejects call device session v := by
  cases hs : l.sessionFor call with
  | error v => exact .inl ⟨v, rfl⟩
  | ok found =>
      obtain ⟨device, session⟩ := found
      by_cases halted : session.halted = true
      · rw [validateCall_halted hs halted] at skips
        cases skips
      · cases ho : ((Trackers.validate l.owners device call).on session.trackers).value with
        | ok released =>
            rw [validateCall_accepted hs halted ho] at skips
            cases skips
        | error v => exact .inr ⟨device, session, v, hs, halted, ho⟩

/-- The allocations left on a device are reported as warnings. -/
theorem leaks_mild (t : MemoryTracker) (device : Handle) :
    (MemoryTracker.leaks device).Ends t (fun vs _ => ∀ v ∈ vs, v.toDiagnostic.isError = false)
      fun _ _ => False := by
  refine (t.leaks_strikes device).mono (fun vs u hu v hv => ?_) fun _ _ hf => hf
  rw [hu.1] at hv
  obtain ⟨left, -, rfl⟩ := List.mem_map.mp hv
  rfl

/-- The end of a device is never skipped on its own account. -/
theorem destroyDevice_accepted (hs : l.sessions[device]? = some session) :
    ((destroyDevice device).run l).value.skipCall = false := by
  unfold destroyDevice
  simp only [Logged.run_bind, Logged.run_get, deviceSession_eq_ok_iff.mpr ⟨rfl, hs⟩]
  by_cases halted : session.halted = true
  · simp only [if_pos halted]
    exact verdict_of_warnings l.config.validation fun d hd => nomatch hd
  · simp only [if_neg halted]
    obtain ⟨vs, hvs, mild⟩ := (leaks_mild session.trackers.memory device).answers
    refine verdict_of_warnings l.config.validation fun d hd => ?_
    obtain ⟨v, hv, rfl⟩ := List.mem_map.mp hd
    have hv : v ∈ (((MemoryTracker.leaks device).on session.trackers.memory).value.toOption.getD
      []) := hv
    rw [hvs] at hv
    exact mild v hv

/-- The call strikes out a swapchain that its device has. -/
def Strikes (l : Layer) (call : Call) : Prop :=
  ∃ device session d s images, l.sessionFor call = .ok (device, session) ∧
    call = .destroySwapchain d s ∧ session.trackers.resources.swapchains.find? s = some images

/-- A call that is skipped on its own account was rejected, or there was nothing to do. -/
theorem own_skips (skips : ((own call).run l).value.skipCall = true) :
    (l.afterOwn call = l ∧ ¬l.Strikes call) ∨ l.afterOwn call = l.afterValidation call ∧
      ∃ device session v, l.Rejects call device session v := by
  cases call with
  | createDevice device =>
      refine .inl ⟨rfl, ?_⟩
      rintro ⟨_, _, _, _, _, -, hc, -⟩
      cases hc
  | destroyDevice device =>
      cases hs : l.sessions[device]? with
      | none =>
          refine .inl ⟨?_, ?_⟩
          · show l.afterDestroy device = l
            unfold afterDestroy
            rw [hs]
          · rintro ⟨_, _, _, _, _, -, hc, -⟩
            cases hc
      | some session =>
          have passes : ((own (.destroyDevice device)).run l).value.skipCall = false :=
            destroyDevice_accepted hs
          rw [passes] at skips
          cases skips
  | _ =>
      rcases validateCall_skips skips with ⟨v, hs⟩ | rejected
      · refine .inl ⟨afterValidation_error hs, ?_⟩
        rintro ⟨_, _, _, _, _, found, -⟩
        rw [hs] at found
        cases found
      · exact .inr ⟨rfl, rejected⟩

/-! ## States -/

/-- A call that the books refuse leaves no trace. -/
theorem afterValidation_refused {v : Violation} (hs : l.sessionFor call = .ok (device, session))
    (running : ¬session.halted = true)
    (hv : ((Trackers.validate l.owners device call).on session.trackers).value = .error v)
    (refused : Refused session.trackers v
      ((Trackers.validate l.owners device call).on session.trackers).state) :
    l.afterValidation call = l := by
  rw [afterValidation_running hs running]
  simp only [hv, refused.2, givenUp, put_same (session_of_call hs).1]
  refine concluded_eq fun w hw => ?_
  cases hw
  exact refused.1

/-- A rejected call leaves no trace, unless an allocation gets too many links or a
swapchain is struck out. -/
theorem afterValidation_rejected {v : Violation} (h : l.Holds Trackers.Books)
    (rejected : l.Rejects call device session v) (strikes : ¬l.Strikes call)
    (few : (l.afterValidation call).Counted) : l.afterValidation call = l := by
  obtain ⟨hs, running, hv⟩ := rejected
  have hf := (session_of_call hs).1
  refine afterValidation_refused hs running hv ?_
  refine Trackers.refused_of_error (h.books device session hf).sound l.owners device
    (fun d s hc => ?_) hv (few.validated hs running)
  exact Option.eq_none_iff_forall_ne_some.mpr fun images hi =>
    strikes ⟨device, session, d, s, images, hs, hc, hi⟩

/-- A call that strikes out a swapchain leaves a trace. -/
theorem afterValidation_strikes {v : Violation} (rejected : l.Rejects call device session v)
    (strikes : l.Strikes call) : l.afterValidation call ≠ l := fun same => by
  obtain ⟨hs, running, -⟩ := rejected
  obtain ⟨device', session', d, s, images, hs', rfl, hi⟩ := strikes
  rw [hs] at hs'
  cases hs'
  have struck : (Trackers.validate l.owners device (.destroySwapchain d s)).Ends session.trackers
      (fun _ u => u.resources.swapchains.find? s = none)
      fun _ u => u.resources.swapchains.find? s = none := by
    refine Trackers.ends_nothing.mpr ?_
    unfold Trackers.onResources
    rw [Track.ends_within]
    exact ResourceTracker.destroySwapchain_struck hi
  obtain ⟨s', hs', he⟩ := books_afterValidation hs running
  rw [same, (session_of_call hs).1] at hs'
  cases hs'
  have gone := struck.state
  rw [← he, hi] at gone
  cases gone

/-! ## Runs -/

theorem counted_of_reached (h : Reached Tame config l) : l.Counted := by
  cases h with
  | start =>
      have none : (start config).Holds fun _ _ t => t.memory.Counted := holds_start config
      exact none.books
  | step _ _ ok => exact ok

/-- What retirement keeps of the books, with the count of links. -/
def CountedBooks (owners : Owners) (device : Handle) (t : Trackers) : Prop :=
  Trackers.Books owners device t ∧ t.memory.Counted

theorem countedBooks_invariant : RetirementInvariant CountedBooks where
  lose _ _ _ _ fewer h := ⟨h.1.lose fewer, h.2⟩
  retire _ _ _ r h :=
    ⟨h.1.retire r, (Trackers.retireUpTo_ends h.1.sound r).state.counted h.2⟩

/-- The books agree and count their links still after the reported completions. -/
theorem countedBooks_drained (h : Reached Tame config l) : l.drained.Holds CountedBooks := by
  have books := books_of_reached h
  refine Holds.drained countedBooks_invariant ⟨fun device session hs => ?_, books.live⟩
  exact ⟨books.books device session hs, counted_of_reached h device session hs⟩

/-- A call that is skipped on its own account leaves no trace, unless an allocation gets
too many links or a swapchain is struck out. -/
theorem own_unchanged_iff (h : Reached Tame config l)
    (skips : ((own call).run l.drained).value.skipCall = true) :
    l.drained.afterOwn call = l.drained ↔
      (l.drained.afterOwn call).Counted ∧ ¬l.drained.Strikes call := by
  have books := countedBooks_drained h
  have counted : l.drained.Counted := fun device session hs => (books.books device session hs).2
  rcases own_skips skips with ⟨same, strikes⟩ | ⟨validated, device, session, v, rejected⟩
  · rw [same]
    exact ⟨fun _ => ⟨counted, strikes⟩, fun _ => rfl⟩
  · rw [validated]
    constructor
    · intro same
      exact ⟨same.symm ▸ counted, fun strikes => afterValidation_strikes rejected strikes same⟩
    · rintro ⟨few, strikes⟩
      exact afterValidation_rejected ⟨fun d s hs => (books.books d s hs).1, books.live⟩
        rejected strikes few

/-- The verdict before a call is that on the completions and that on the call. -/
theorem preCall_skips (l : Layer) (call : Call) :
    ((preCall call).run l).value.skipCall =
      ((processCompletions.run l).value.skipCall ||
        ((own call).run l.drained).value.skipCall) := by
  rw [preCall_eq, ← processCompletions_state]
  rfl

/-- After every run, a skipped call leaves no trace exactly under two conditions.  If the
call is skipped on its own account, it does not strike out a swapchain or overrun a count;
and if only a completion has it skipped, the call had nothing to do. -/
theorem skipped_unchanged_iff (h : Reached Tame config l) (call : Call) :
    (((preCall call).run l).value.skipCall = true →
      ((preCall call).run l).state = (processCompletions.run l).state) ↔
    (((own call).run l.drained).value.skipCall = true →
      (l.drained.afterOwn call).Counted ∧ ¬l.drained.Strikes call) ∧
    ((processCompletions.run l).value.skipCall = true →
      ((own call).run l.drained).value.skipCall = false →
      l.drained.afterOwn call = l.drained) := by
  rw [preCall_skips, preCall_state, processCompletions_state]
  cases refused : ((own call).run l.drained).value.skipCall with
  | true =>
      rw [← own_unchanged_iff h refused]
      simp
  | false => simp

/-- An allocation is live, and a completion waits for a queue that no device has. -/
def strayCompletion : List Hook :=
  [.post (.createDevice ⟨1, .device⟩) .success,
   .post (.allocateMemory ⟨1, .device⟩ ⟨2, .deviceMemory⟩ { size := 4096 }) .success,
   .report ⟨⟨3, .queue⟩, 1⟩]

/-- Unknown memory is not freed: the call is skipped and leaves no trace. -/
theorem skipped_unknown_free :
    ((preCall (.freeMemory ⟨1, .device⟩ ⟨4, .deviceMemory⟩)).run
      ((start {}).run strayCompletion)).state =
    (processCompletions.run ((start {}).run strayCompletion)).state := by
  have reached : Reached Tame {} ((start {}).run strayCompletion) :=
    Reached.start.run (by decide +kernel)
  refine (skipped_unchanged_iff reached (.freeMemory ⟨1, .device⟩ ⟨4, .deviceMemory⟩)).mpr
    ⟨fun _ => ⟨by decide +kernel, ?_⟩, fun _ accepted => ?_⟩ (by decide +kernel)
  · rintro ⟨_, _, _, _, _, -, hc, -⟩
    cases hc
  · exact absurd accepted (by decide +kernel)

/-- The stray completion has the call skipped that frees the live allocation, and the
allocation is gone all the same. -/
theorem skipped_free_applied : Reached Tame {} ((start {}).run strayCompletion) ∧
    ((preCall (.freeMemory ⟨1, .device⟩ ⟨2, .deviceMemory⟩)).run
      ((start {}).run strayCompletion)).value.skipCall = true ∧
    ((preCall (.freeMemory ⟨1, .device⟩ ⟨2, .deviceMemory⟩)).run
      ((start {}).run strayCompletion)).state ≠
    (processCompletions.run ((start {}).run strayCompletion)).state := by
  refine ⟨Reached.start.run (by decide +kernel), by decide +kernel, fun same => ?_⟩
  have gone : ((preCall (.freeMemory ⟨1, .device⟩ ⟨2, .deviceMemory⟩)).run
      ((start {}).run strayCompletion)).state.owners[(⟨2, .deviceMemory⟩ : Handle)]? = none := by
    decide +kernel
  have live : (processCompletions.run ((start {}).run strayCompletion)).state.owners[
      (⟨2, .deviceMemory⟩ : Handle)]? = some ⟨1, .device⟩ := by
    decide +kernel
  rw [same, live] at gone
  cases gone

/-! ## Rejected calls -/

/-- In every session of every run, a call that is rejected leaves nothing behind, whichever
of its checks fails: the books of the device stay, nothing is given up, and validation goes
on.  Only a swapchain may be struck out half way, and a count may be overrun. -/
theorem rejected_unchanged (h : Reached Tame config l) (hs : l.sessions[device]? = some session)
    (swapchain : ¬Trackers.EndsSwapchain call) {v : Violation}
    (hv : ((Trackers.validate l.owners device call).on session.trackers).value = .error v)
    (few : ((Trackers.validate l.owners device call).on session.trackers).state.memory.Counted) :
    ((Trackers.validate l.owners device call).on session.trackers).state = session.trackers ∧
      v.isFatal = false ∧
      (l.sessionFor call = .ok (device, session) → ((validateCall call).run l).state = l) := by
  have sound := ((books_of_reached h).books device session hs).sound
  have refused := Trackers.refused_of_error sound l.owners device
    (fun _ _ hc => (swapchain (by subst hc; trivial)).elim) hv few
  refine ⟨refused.2, refused.1, fun found => ?_⟩
  rw [validateCall_state]
  by_cases halted : session.halted = true
  · exact afterValidation_halted found halted
  · exact afterValidation_refused found halted hv refused

/-- Command buffers are freed together with one in flight: none of them is. -/
theorem rejected_free_of_filling :
    ∃ session ∈ ((start {}).run filling).sessions[(⟨1, .device⟩ : Handle)]?,
      ((Trackers.validate ((start {}).run filling).owners ⟨1, .device⟩
        (.freeCommandBuffers ⟨1, .device⟩ ⟨5, .commandPool⟩ [⟨6, .commandBuffer⟩])).on
          session.trackers).state = session.trackers := by
  have reached : Reached Tame {} ((start {}).run filling) := Reached.start.run (by decide +kernel)
  have found : ∃ session ∈ ((start {}).run filling).sessions[(⟨1, .device⟩ : Handle)]?,
      ((Trackers.validate ((start {}).run filling).owners ⟨1, .device⟩
        (.freeCommandBuffers ⟨1, .device⟩ ⟨5, .commandPool⟩ [⟨6, .commandBuffer⟩])).on
          session.trackers).value.isOk = false ∧
      ((Trackers.validate ((start {}).run filling).owners ⟨1, .device⟩
        (.freeCommandBuffers ⟨1, .device⟩ ⟨5, .commandPool⟩ [⟨6, .commandBuffer⟩])).on
          session.trackers).state.memory.Counted := by decide +kernel
  obtain ⟨session, hs, fails, few⟩ := found
  cases hv : ((Trackers.validate ((start {}).run filling).owners ⟨1, .device⟩
      (.freeCommandBuffers ⟨1, .device⟩ ⟨5, .commandPool⟩ [⟨6, .commandBuffer⟩])).on
        session.trackers).value with
  | ok released =>
      rw [hv] at fails
      cases fails
  | error v =>
      have swapchain : ¬Trackers.EndsSwapchain
          (.freeCommandBuffers ⟨1, .device⟩ ⟨5, .commandPool⟩ [⟨6, .commandBuffer⟩]) := not_false
      exact ⟨session, hs, (rejected_unchanged reached hs swapchain hv few).1⟩

end Layer

end GpuAudit
