import Mathlib.Data.List.Induction
import GpuAudit.Proofs.Fitting
import GpuAudit.Proofs.Waits

/-!
# Leaks are reported completely

An allocation is `Outstanding` on a device after a run if the run has an answer to an
`allocateMemory` that was entered in the session of the device, and after it neither the session
has ended nor a `freeMemory` of the same handle has been accepted.  This speaks of the whole run.
The books speak of one state, and say the same: `stock_iff` goes through the run from its end,
with one lemma for what a hook does to one record (`stock_entered`, `stock_freed` and
`stock_kept`).  No link or count matters here, so runs are not asked for anything.

The end of a device turns the records that are left into warnings, in the order of their
handles.
-/

namespace GpuAudit

/-! ## Operations that leave the allocations -/

namespace Trackers

open Track (Confined confined_pure confined_ofExcept confined_query)

variable {α : Type} {t u : Trackers} {call : Call}

/-- The allocations stay. -/
def SameMemory (t u : Trackers) : Prop := u.memory = t.memory

instance : IsPreorder Trackers SameMemory where
  refl _ := rfl
  trans _ _ _ h k := k.trans h

theorem onResources_sameMemory (x : Track ResourceTracker α) :
    (onResources x).Confined SameMemory := (Track.confined_any x).within fun _ _ _ => rfl

theorem onCommands_sameMemory (x : Track CommandTracker α) : (onCommands x).Confined SameMemory :=
  (Track.confined_any x).within fun _ _ _ => rfl

theorem onQueues_sameMemory (x : Track QueueTracker α) : (onQueues x).Confined SameMemory :=
  (Track.confined_any x).within fun _ _ _ => rfl

/-- Only an allocation enters one. -/
theorem recordCreation_sameMemory (device : Handle)
    (other : ∀ d m info, call ≠ .allocateMemory d m info) :
    (recordCreation device call).Confined SameMemory := by
  have nothing : ∀ {β : Type} {x : Track Trackers β}, x.Confined SameMemory →
      (recordCreation.nothing x).Confined SameMemory := fun hx =>
    hx.discard.bind fun _ => confined_pure _
  cases call with
  | allocateMemory d m info => exact absurd rfl (other d m info)
  | getDeviceQueue => exact (onQueues_sameMemory _).bind fun _ => confined_pure _
  | createBuffer | createImage | createSwapchain => exact nothing (onResources_sameMemory _)
  | createCommandPool => exact nothing (onCommands_sameMemory _)
  | allocateCommandBuffers => exact (onCommands_sameMemory _).bind fun _ => confined_pure _
  | createFence | createSemaphore => exact nothing (onQueues_sameMemory _)
  | getFenceStatus | queueWaitIdle => exact nothing (confined_query _)
  | waitForFences _ fences waitAll =>
      show (if waitAll = true ∨ fences.length = 1 then _ else _ : Track _ _).Confined _
      split
      · exact nothing (Confined.forM (fun _ => (confined_query _).discard) fences)
      · exact confined_pure _
  | _ => exact confined_pure _

/-- The device and the parameters of an allocation, if it is live. -/
def stock (t : Trackers) (memory : Handle) : Option (Handle × AllocationInfo) :=
  (t.memory.objects.find? memory).map fun m => (m.device, m.info)

theorem stock_of_sameInfo (same : t.memory.SameInfo u.memory) : u.stock = t.stock := funext same

/-- A call that frees an allocation strikes it out, or is refused. -/
theorem stock_freeMemory (t : Trackers) (owners : Owners) (device d memory : Handle) :
    (validate owners device (.freeMemory d memory)).Ends t
      (fun _ u => ∀ g, u.stock g = if g = memory then none else t.stock g)
      fun _ u => u = t := by
  show (discard (onMemory (MemoryTracker.free memory)) >>= fun _ => pure [memory]).Ends t _ _
  rw [Track.ends_bind, Track.ends_discard, onMemory, Track.ends_within]
  refine (t.memory.free_strikes memory).mono (fun _ m hm g => ?_) fun _ m hm => by rw [hm.1]
  show (m.objects.find? g).map _ = _
  rw [hm.2.2]
  split
  · rfl
  · rfl

/-- No other call strikes out an allocation. -/
theorem stock_validate (chained : t.resources.Chained) (owners : Owners) (device : Handle)
    (other : ∀ d m, call ≠ .freeMemory d m) :
    ((validate owners device call).on t).state.stock = t.stock := by
  have effect := (validate_effect chained owners device call).state
  generalize ((validate owners device call).on t).state = u at effect
  cases effect with
  | kept keeps => exact stock_of_sameInfo keeps.memory
  | rebound rebinds => exact stock_of_sameInfo rebinds.memory
  | unchained => rfl
  | freed frees =>
      cases call with
      | freeMemory d m => exact absurd rfl (other d m)
      | _ => exact frees.elim

/-- An allocation is entered on the device, or refused. -/
theorem stock_allocateMemory (t : Trackers) (device d memory : Handle) (info : AllocationInfo) :
    (recordCreation device (.allocateMemory d memory info)).Ends t
      (fun _ u => t.stock memory = none ∧
        ∀ g, u.stock g = if g = memory then some (device, info) else t.stock g)
      fun _ u => u = t := by
  show (onMemory (MemoryTracker.allocate memory device info) >>= fun _ => pure [memory]).Ends t _ _
  rw [Track.ends_bind, onMemory, Track.ends_within]
  refine (t.memory.allocate_ends memory device info).mono (fun _ m hm => ⟨?_, fun g => ?_⟩)
    fun _ m hm => by rw [hm.2]
  · rw [stock, hm.2.1]
    rfl
  · show (m.objects.find? g).map _ = _
    rw [hm.2.2]
    split
    · rfl
    · rfl

theorem stock_recordCreation (t : Trackers) (device : Handle)
    (other : ∀ d m info, call ≠ .allocateMemory d m info) :
    ((recordCreation device call).on t).state.stock = t.stock := by
  have same : _ = t.memory := (recordCreation_sameMemory device other).state t
  funext g
  rw [stock, same]
  rfl

end Trackers

/-! ## One hook -/

namespace Layer

variable {l : Layer} {config : Config} {hook : Hook} {device memory : Handle} {session : Session}
  {info : AllocationInfo} {call : Call}

/-- The driver has made an allocation, and it is entered on a device. -/
def Allocates (l : Layer) (hook : Hook) (device memory : Handle) (info : AllocationInfo) : Prop :=
  hook = .post (.allocateMemory device memory info) .success ∧
    ∃ session, l.sessions[device]? = some session ∧ session.halted = false ∧
      (Trackers.recordCreation device (.allocateMemory device memory info)).Answers
        session.trackers

/-- A call that frees an allocation of a device is accepted. -/
def Frees (l : Layer) (hook : Hook) (device memory : Handle) : Prop :=
  hook = .pre (.freeMemory device memory) ∧
    ∃ session, l.drained.sessions[device]? = some session ∧ session.halted = false ∧
      (Trackers.validate l.drained.owners device (.freeMemory device memory)).Answers
        session.trackers

/-- The device and the parameters of an allocation in the session of a device. -/
def stock (l : Layer) (device memory : Handle) : Option (Handle × AllocationInfo) :=
  l.sessions[device]?.bind fun session => session.trackers.stock memory

theorem stock_of_session (hs : l.sessions[device]? = some session) (memory : Handle) :
    l.stock device memory = session.trackers.stock memory := by
  rw [stock, hs]
  rfl

theorem stock_ran {α : Type} (owners : Owners) (o : Outcome Trackers (Except Violation α))
    (g : Handle) : (l.ran owners device session o).stock g memory =
      if g = device then o.state.stock memory else l.stock g memory := by
  rw [stock, getElem?_ran]
  split
  · rfl
  · rfl

theorem stock_afterRetirement (l : Layer) (r : Retirement) :
    (l.afterRetirement r).stock = l.stock := by
  rcases l.afterRetirement_cases r with same | ⟨d, session, found, -, ran⟩
  · rw [same]
  · funext g memory
    rw [ran, stock_ran]
    split
    next here =>
      rw [here, stock_of_session (owningSession_eq_ok_iff.mp found).2,
        Trackers.stock_of_sameInfo (Trackers.keeps_retired session.trackers r).memory]
    next => rfl

theorem stock_afterRetirements (rs : List Retirement) (l : Layer) :
    (rs.foldl afterRetirement l).stock = l.stock := by
  induction rs generalizing l with
  | nil => rfl
  | cons r rs ih => rw [List.foldl_cons, ih, stock_afterRetirement]

@[simp] theorem stock_drained (l : Layer) : l.drained.stock = l.stock :=
  stock_afterRetirements l.pending _

/-- What is entered is in stock, and was not before. -/
theorem stock_entered (enters : l.Allocates hook device memory info) :
    l.stock device memory = none ∧ (l.step hook).stock device memory = some (device, info) := by
  obtain ⟨rfl, session, hs, running, _, answers⟩ := enters
  have found : l.sessionFor (.allocateMemory device memory info) = .ok (device, session) :=
    deviceSession_eq_ok_iff.mpr ⟨rfl, hs⟩
  obtain ⟨new, view⟩ := (Trackers.stock_allocateMemory session.trackers device device memory
    info).good_of_ok answers
  refine ⟨(stock_of_session hs memory).trans new, ?_⟩
  rw [step_eq]
  show (l.afterRecord _).stock device memory = _
  rw [afterRecord_entered found (by simp [running]), stock_drained]
  show (l.ran _ device session _).stock device memory = _
  rw [stock_ran, if_pos rfl, view, if_pos rfl]

/-- What is freed is in stock no more. -/
theorem stock_freed (frees : l.Frees hook device memory) :
    (l.step hook).stock device memory = none := by
  obtain ⟨rfl, session, hs, running, _, answers⟩ := frees
  have found : l.drained.sessionFor (.freeMemory device memory) = .ok (device, session) :=
    deviceSession_eq_ok_iff.mpr ⟨rfl, hs⟩
  have view := (Trackers.stock_freeMemory session.trackers l.drained.owners device device
    memory).good_of_ok answers
  rw [step_eq]
  show (l.drained.afterValidation _).stock device memory = _
  rw [afterValidation_running found (by simp [running])]
  show (l.drained.ran _ device session _).stock device memory = _
  rw [stock_ran, if_pos rfl, view, if_pos rfl]

theorem stock_afterValidation (chained : l.Holds fun _ _ t => t.resources.Chained)
    (kept : ∀ session, l.sessions[device]? = some session → session.halted = false →
      call = .freeMemory device memory →
      ¬(Trackers.validate l.owners device call).Answers session.trackers) :
    (l.afterValidation call).stock device memory = l.stock device memory := by
  rcases l.afterValidation_cases call with same | ⟨d, session, found, running, ran⟩
  · rw [same]
  rw [ran, stock_ran]
  split
  next here =>
    subst here
    obtain ⟨hs, -⟩ := session_of_call found
    rw [stock_of_session hs]
    by_cases frees : ∃ d m, call = .freeMemory d m
    · obtain ⟨d, m, rfl⟩ := frees
      obtain ⟨rfl, -⟩ := deviceSession_eq_ok_iff.mp found
      have ends := Trackers.stock_freeMemory session.trackers l.owners d d m
      cases hv : ((Trackers.validate l.owners d (.freeMemory d m)).on session.trackers).value with
      | ok released =>
          have other : memory ≠ m := fun here =>
            kept session hs (by simpa using running) (here ▸ rfl) ⟨released, hv⟩
          rw [ends.good_of_ok hv, if_neg other]
      | error v => rw [ends.bad_of_error hv]
    · have other : ∀ d m, call ≠ .freeMemory d m := fun d m he => frees ⟨d, m, he⟩
      rw [Trackers.stock_validate (chained.books device session hs) l.owners device other]
  next => rfl

theorem stock_afterRecord (kept : ∀ session info, l.sessions[device]? = some session →
      session.halted = false → call = .allocateMemory device memory info →
      ¬(Trackers.recordCreation device call).Answers session.trackers) :
    (l.afterRecord call).stock device memory = l.stock device memory := by
  rcases l.afterRecord_cases call with same | ⟨d, session, found, running, ran⟩
  · rw [same]
  rw [ran, stock_drained]
  show (l.ran _ d session _).stock device memory = _
  rw [stock_ran]
  split
  next here =>
    subst here
    obtain ⟨hs, -⟩ := session_of_call found
    rw [stock_of_session hs]
    by_cases allocates : ∃ d m info, call = .allocateMemory d m info
    · obtain ⟨d, m, info, rfl⟩ := allocates
      obtain ⟨rfl, -⟩ := deviceSession_eq_ok_iff.mp found
      have ends := Trackers.stock_allocateMemory session.trackers d d m info
      cases hv : ((Trackers.recordCreation d (.allocateMemory d m info)).on
          session.trackers).value with
      | ok gained =>
          have other : memory ≠ m := fun here =>
            kept session info hs (by simpa using running) (here ▸ rfl) ⟨gained, hv⟩
          rw [(ends.good_of_ok hv).2, if_neg other]
      | error v => rw [ends.bad_of_error hv]
    · have other : ∀ d m info, call ≠ .allocateMemory d m info := fun d m info he =>
        allocates ⟨d, m, info, he⟩
      rw [Trackers.stock_recordCreation session.trackers device other]
  next => rfl

/-- A device is created with nothing in stock. -/
theorem stock_afterCreate (l : Layer) (d device memory : Handle) :
    (l.afterCreate d).stock device memory = l.stock device memory := by
  unfold afterCreate
  split
  next new =>
    rw [stock, stock, getElem?_put]
    split
    next here =>
      rw [here, new_of_checkNewDevice new]
      simp [Trackers.stock, Trackers.empty, MemoryTracker.empty]
    next => rfl
  next => rfl

/-- Nothing else changes what is in stock, as long as the device has a session. -/
theorem stock_kept (chained : l.Holds fun _ _ t => t.resources.Chained)
    (enters : ∀ info, ¬l.Allocates hook device memory info) (frees : ¬l.Frees hook device memory)
    (tracked : (l.step hook).sessions[device]? ≠ none) :
    (l.step hook).stock device memory = l.stock device memory := by
  rw [step_eq] at tracked ⊢
  cases hook with
  | pre call =>
      have validated : (l.drained.afterValidation call).stock device memory =
          l.stock device memory := by
        rw [stock_afterValidation (chained.drained chained_invariant.toRetirementInvariant)
          fun session hs running he answers => frees ⟨he ▸ rfl, session, hs, running, he ▸ answers⟩,
          stock_drained]
      cases call with
      | createDevice d => exact congrFun (congrFun (stock_drained l) device) memory
      | destroyDevice d =>
          have tracked : (l.drained.afterDestroy d).sessions[device]? ≠ none := tracked
          show (l.drained.afterDestroy d).stock device memory = _
          rw [getElem?_afterDestroy] at tracked
          rw [stock, getElem?_afterDestroy]
          split
          next here => exact absurd (if_pos here) tracked
          next => exact congrFun (congrFun (stock_drained l) device) memory
      | _ => exact validated
  | post call result =>
      have entered : result = .success →
          (l.afterRecord call).stock device memory = l.stock device memory := fun success =>
        stock_afterRecord fun session info hs running he answers =>
          enters info ⟨he ▸ success ▸ rfl, session, hs, running, he ▸ answers⟩
      show (l.afterAnswer call result).stock device memory = _
      cases result with
      | notReady => cases call <;> rfl
      | failure => cases call <;> rfl
      | success =>
          cases call with
          | createDevice d =>
              exact stock_afterCreate l d device memory
          | destroyDevice d => rfl
          | _ => exact entered rfl
  | report completion => rfl
  | process => exact congrFun (congrFun (stock_drained l) device) memory
  | retire r => exact congrFun (congrFun (stock_afterRetirement l r) device) memory
  | fenceStatus d fence => exact congrFun (congrFun (stock_drained l) device) memory

/-! ## Runs -/

/-- A hook after which an allocation stays: the session goes on, and the allocation is not
freed. -/
def Retains (device memory : Handle) (l : Layer) (hook : Hook) : Prop :=
  ¬l.Frees hook device memory ∧ (l.step hook).sessions[device]? ≠ none

/-- An allocation has been entered on a device since its session has begun, and was not freed
afterwards. -/
def Outstanding (config : Config) (hooks : List Hook) (device memory : Handle)
    (info : AllocationInfo) : Prop :=
  ∃ before hook after, hooks = before ++ hook :: after ∧
    ((start config).run before).Allocates hook device memory info ∧
    Allows (Retains device memory) ((start config).run (before ++ [hook])) after

variable {hooks : List Hook}

theorem allows_concat {allowed : Layer → Hook → Prop} {hook : Hook} :
    ∀ {hooks : List Hook} {l : Layer}, Allows allowed l (hooks ++ [hook]) ↔
      Allows allowed l hooks ∧ allowed (l.run hooks) hook
  | [], l => by simp [Allows, run]
  | k :: hooks, l => by
      rw [List.cons_append, Allows, Allows, allows_concat, and_assoc]
      rfl

/-- What is outstanding has just been entered, or was outstanding and is retained. -/
theorem outstanding_concat : Outstanding config (hooks ++ [hook]) device memory info ↔
    ((start config).run hooks).Allocates hook device memory info ∨
      Outstanding config hooks device memory info ∧
        Retains device memory ((start config).run hooks) hook := by
  constructor
  · rintro ⟨before, k, after, parts, enters, retained⟩
    rcases List.eq_nil_or_concat after with rfl | ⟨rest, last, rfl⟩
    · obtain ⟨rfl, he⟩ := List.append_inj' parts rfl
      cases he
      exact .inl enters
    · rw [List.concat_eq_append, ← List.cons_append, ← List.append_assoc] at parts
      obtain ⟨rfl, he⟩ := List.append_inj' parts rfl
      cases he
      rw [List.concat_eq_append, allows_concat, ← run_append, List.append_assoc] at retained
      exact .inr ⟨⟨before, k, rest, rfl, enters, retained.1⟩, retained.2⟩
  · rintro (enters | ⟨⟨before, k, after, rfl, enters, retained⟩, retains⟩)
    · exact ⟨hooks, hook, [], rfl, enters, trivial⟩
    · refine ⟨before, k, after ++ [hook], by simp, enters, ?_⟩
      rw [allows_concat, ← run_append, List.append_assoc]
      exact ⟨retained, retains⟩

/-- What is in stock in a session is what is outstanding, and it is of the device. -/
theorem stock_iff (config : Config) (hooks : List Hook) (device memory : Handle)
    (x : Handle × AllocationInfo) : ((start config).run hooks).stock device memory = some x ↔
      x.1 = device ∧ Outstanding config hooks device memory x.2 := by
  induction hooks using List.reverseRecOn generalizing x with
  | nil =>
      have none : ((start config).run []).stock device memory = none := by
        show (start config).stock device memory = none
        rw [stock, start, Std.ExtTreeMap.getElem?_empty]
        rfl
      rw [none]
      refine ⟨fun h => (nomatch h), fun ⟨_, before, k, after, parts, _⟩ => ?_⟩
      exact absurd parts.symm (List.append_ne_nil_of_right_ne_nil _ (List.cons_ne_nil _ _))
  | append_singleton hooks hook ih =>
      have reached : Reached (fun _ _ => True) config ((start config).run hooks) :=
        Reached.start.run (allows_any hooks _)
      have step : (start config).run (hooks ++ [hook]) = ((start config).run hooks).step hook :=
        run_append _ _
      rw [outstanding_concat, step]
      generalize (start config).run hooks = l at ih reached
      by_cases enters : ∃ info, l.Allocates hook device memory info
      · obtain ⟨info, enters⟩ := enters
        obtain ⟨new, entered⟩ := stock_entered enters
        have fresh : ¬Outstanding config hooks device memory x.2 := fun old => by
          have held := (ih (device, x.2)).mpr ⟨rfl, old⟩
          rw [new] at held
          cases held
        rw [entered]
        constructor
        · rintro ⟨⟩
          exact ⟨rfl, .inl enters⟩
        · rintro ⟨rfl, again | old⟩
          · cases enters.1.symm.trans again.1
            rfl
          · exact absurd old.1 fresh
      have entered : ∀ info, ¬l.Allocates hook device memory info := fun info he => enters ⟨info, he⟩
      by_cases frees : l.Frees hook device memory
      · rw [stock_freed frees]
        refine ⟨fun h => (nomatch h), fun ⟨_, again⟩ => ?_⟩
        exact again.elim (fun he => absurd he (entered _)) fun old => absurd frees old.2.1
      by_cases tracked : (l.step hook).sessions[device]? = none
      · rw [stock, tracked]
        refine ⟨fun h => (nomatch h), fun ⟨_, again⟩ => ?_⟩
        exact again.elim (fun he => absurd he (entered _)) fun old => absurd tracked old.2.2
      rw [stock_kept (chained_of_reached reached) entered frees tracked, ih]
      refine and_congr_right fun _ => ⟨fun old => .inr ⟨old, frees, tracked⟩, fun again => ?_⟩
      exact again.elim (fun he => absurd he (entered _)) And.left

/-! ## The end of a device -/

/-- The warning of an allocation that is left on a device. -/
def leakOn (device memory : Handle) (info : AllocationInfo) : Diagnostic :=
  ⟨.memoryLeak, .warning, [memory, device], (Violation.memoryLeak memory device info.size).message⟩

end Layer

/-- What is left on a device is struck out and reported, in the order of the handles, and the
allocations of other devices stay. -/
structure MemoryTracker.ReportsLeaks (t : MemoryTracker) (device : Handle)
    (left : List (Handle × MemoryObject)) (vs : List Violation) (u : MemoryTracker) : Prop where
  /-- Exactly what is left on the device is listed. -/
  listed : ∀ memory m, (memory, m) ∈ left ↔ t.objects.find? memory = some m ∧ m.device = device
  /-- It is listed in ascending order, so each once. -/
  ascending : left.Pairwise (·.1.raw < ·.1.raw)
  /-- It is reported so. -/
  reported : vs.map (·.toDiagnostic) = left.map fun (memory, m) => Layer.leakOn device memory m.info
  /-- It is gone, and the rest stays. -/
  rest : ∀ g, u.objects.find? g = (t.objects.find? g).filter fun m => m.device ≠ device

theorem MemoryTracker.leaks_report (t : MemoryTracker) (device : Handle) :
    (leaks device).Ends t (fun vs u => ∃ left, t.ReportsLeaks device left vs u)
      fun _ _ => False := by
  refine (t.leaks_strikes device).mono (fun vs u hu => ?_) fun _ _ hf => hf
  obtain ⟨rfl, rest⟩ := hu
  refine ⟨(t.objects.drain fun m => m.device = device).1, fun memory m => ?_, ?_, ?_, rest⟩
  · rw [Registry.mem_drain, decide_eq_true_iff]
  · exact t.objects.ascending_entries.filter _
  · rw [List.map_map]
    rfl

namespace Layer

variable {l : Layer} {device : Handle} {session : Session}

theorem destroyDevice_value (hs : l.sessions[device]? = some session)
    (running : session.halted = false) {vs : List Violation}
    (hv : ((MemoryTracker.leaks device).on session.trackers.memory).value = .ok vs) :
    ((destroyDevice device).run l).value =
      l.config.validation.verdict (vs.map (·.toDiagnostic)) := by
  unfold destroyDevice
  simp only [Logged.run_bind, Logged.run_get, deviceSession_eq_ok_iff.mpr ⟨rfl, hs⟩, running,
    Bool.false_eq_true, if_false]
  show l.config.validation.verdict ((((MemoryTracker.leaks device).on
    session.trackers.memory).value.toOption.getD []).map (·.toDiagnostic)) = _
  rw [hv]
  rfl

/-- Leaks are warnings, so the call is not skipped. -/
theorem verdict_of_leaks (choices : ValidationConfig) (device : Handle)
    (left : List (Handle × MemoryObject)) :
    choices.verdict (left.map fun (memory, m) => leakOn device memory m.info) =
      ⟨left.map fun (memory, m) => leakOn device memory m.info, false⟩ := by
  have mild : (left.map fun (memory, m) => leakOn device memory m.info).any (·.isError) = false := by
    rw [List.any_map, List.any_eq_false]
    exact fun _ _ he => nomatch he
  rw [ValidationConfig.verdict, mild, Bool.and_false]

theorem owners_afterDestroy (hs : l.sessions[device]? = some session) (g : Handle) :
    (l.afterDestroy device).owners[g]? = (l.owners[g]?).filter fun owner => owner ≠ device := by
  unfold afterDestroy
  rw [hs]
  exact Std.ExtTreeMap.getElem?_filter'

/-- What the end of a device reports and leaves, after a run that has allocated and freed. -/
structure EndsWith (config : Config) (hooks : List Hook) (device : Handle)
    (left : List (Handle × AllocationInfo)) (verdict : Verdict) (k : Layer) : Prop where
  /-- Exactly what is outstanding is left. -/
  listed : ∀ memory info, (memory, info) ∈ left ↔ Outstanding config hooks device memory info
  /-- It is listed in ascending order, so each once. -/
  ascending : left.Pairwise (·.1.raw < ·.1.raw)
  /-- It is reported by warnings, there is nothing else, and the call is not skipped. -/
  verdict : verdict = ⟨left.map fun (memory, info) => leakOn device memory info, false⟩
  /-- The device has no session. -/
  ended : k.sessions[device]? = none
  /-- Other devices have the sessions that they had. -/
  others : ∀ d ≠ device, k.sessions[d]? = ((start config).run hooks).sessions[d]?
  /-- Nothing is owned by the device. -/
  disowned : ∀ g : Handle, k.owners[g]? ≠ some device
  /-- Other devices own what they did. -/
  owners : ∀ (g : Handle), ∀ d ≠ device,
    k.owners[g]? = some d ↔ ((start config).run hooks).owners[g]? = some d

/-- The end of a device that is tracked and not halted, when no completion is waiting, reports
exactly the allocations that have been entered since its session has begun and that no later
call has freed, each by one warning and in the order of their handles, and nothing else; then
the device is gone and other devices are as they were.  The books of memory report and strike
out what is left on one device, whatever they hold. -/
theorem leaks_exactly (config : Config) (hooks : List Hook)
    (hs : ((start config).run hooks).sessions[device]? = some session)
    (running : session.halted = false) (idle : ((start config).run hooks).pending = []) :
    (∃ left, EndsWith config hooks device left
      ((preCall (.destroyDevice device)).run ((start config).run hooks)).value
      (((start config).run hooks).step (.pre (.destroyDevice device)))) ∧
    ∀ (t : MemoryTracker) (d : Handle), (MemoryTracker.leaks d).Ends t
      (fun vs u => ∃ left, t.ReportsLeaks d left vs u) fun _ _ => False := by
  refine ⟨?_, MemoryTracker.leaks_report⟩
  obtain ⟨vs, hv, left, exact, ascending, reported, -⟩ :=
    (session.trackers.memory.leaks_report device).answers
  have stock : ∀ memory, ((start config).run hooks).stock device memory =
      session.trackers.stock memory := stock_of_session hs
  -- Every record of the session is of the device, so all of them are left.
  have held : ∀ memory info, (memory, info) ∈ left.map (fun e => (e.1, e.2.info)) ↔
      Outstanding config hooks device memory info := by
    intro memory info
    have known := stock_iff config hooks device memory
    constructor
    · intro listed
      obtain ⟨⟨g, m⟩, hm, he⟩ := List.mem_map.mp listed
      cases he
      obtain ⟨found, own⟩ := (exact g m).mp hm
      refine ((known (m.device, m.info)).mp ?_).2
      rw [stock, Trackers.stock, found]
      rfl
    · intro out
      have some := (known (device, info)).mpr ⟨rfl, out⟩
      rw [stock] at some
      obtain ⟨m, found, parts⟩ := Option.map_eq_some_iff.mp some
      cases parts
      exact List.mem_map.mpr ⟨(memory, m), (exact memory m).mpr ⟨found, rfl⟩, rfl⟩
  have step : ((start config).run hooks).step (.pre (.destroyDevice device)) =
      ((start config).run hooks).afterDestroy device := by
    rw [step_eq]
    show ((start config).run hooks).drained.afterDestroy device = _
    rw [drained_idle idle]
  refine ⟨left.map fun e => (e.1, e.2.info), held, ?_, ?_, ?_, ?_, ?_, ?_⟩
  · exact List.pairwise_map.mpr ascending
  · rw [preCall_idle idle]
    show ((destroyDevice device).run _).value = _
    rw [destroyDevice_value hs running hv, reported, List.map_map]
    exact verdict_of_leaks _ device left
  · rw [step, getElem?_afterDestroy, if_pos rfl]
  · intro d other
    rw [step, getElem?_afterDestroy, if_neg other]
  · intro g
    rw [step, owners_afterDestroy hs, Ne, Option.filter_eq_some_iff]
    simp
  · intro g d other
    rw [step, owners_afterDestroy hs, Option.filter_eq_some_iff]
    simp [other]

/-- Of three allocations, the largest handle first, one has been freed and another one was
refused to be entered twice. -/
def allocatedThrice : List Hook :=
  [.post (.createDevice ⟨1, .device⟩) .success,
   .post (.allocateMemory ⟨1, .device⟩ ⟨5, .deviceMemory⟩ { size := 4096 }) .success,
   .post (.allocateMemory ⟨1, .device⟩ ⟨3, .deviceMemory⟩ { size := 512 }) .success,
   .post (.allocateMemory ⟨1, .device⟩ ⟨4, .deviceMemory⟩ { size := 256 }) .success,
   .post (.allocateMemory ⟨1, .device⟩ ⟨3, .deviceMemory⟩ { size := 1024 }) .success,
   .pre (.freeMemory ⟨1, .device⟩ ⟨4, .deviceMemory⟩)]

/-- The other two are left, the smaller handle first. -/
theorem leaks_of_allocatedThrice : ∃ left, EndsWith {} allocatedThrice ⟨1, .device⟩ left
    ((preCall (.destroyDevice ⟨1, .device⟩)).run ((start {}).run allocatedThrice)).value
    (((start {}).run allocatedThrice).step (.pre (.destroyDevice ⟨1, .device⟩))) ∧
    left.map (·.1) = [⟨3, .deviceMemory⟩, ⟨5, .deviceMemory⟩] := by
  have found : ∃ session ∈ ((start {}).run allocatedThrice).sessions[(⟨1, .device⟩ : Handle)]?,
      session.halted = false := by decide +kernel
  have told : ((preCall (.destroyDevice ⟨1, .device⟩)).run
      ((start {}).run allocatedThrice)).value.diagnostics.map (·.objects) =
      [[⟨3, .deviceMemory⟩, ⟨1, .device⟩], [⟨5, .deviceMemory⟩, ⟨1, .device⟩]] := by decide +kernel
  obtain ⟨session, hs, running⟩ := found
  obtain ⟨left, ends⟩ := (leaks_exactly {} allocatedThrice hs running (by decide +kernel)).1
  refine ⟨left, ends, ?_⟩
  rw [ends.verdict, List.map_map] at told
  have heads := congrArg (List.filterMap List.head?) told
  rw [List.filterMap_map] at heads
  have fst : left.filterMap (some ∘ Prod.fst) = left.map Prod.fst := by rw [List.filterMap_eq_map]
  exact fst.symm.trans heads

end Layer

end GpuAudit
