import GpuAudit.Proofs.Naming
import GpuAudit.Proofs.Ownership

/-!
# Owners lead where they belong

Since what a device tracks it owns, a completion reaches the session that tracks its queue, and
so does a call that finds its device through a queue or a command buffer.  A handle that nobody
tracks leads nowhere, and that is reported.

A call on a device may name what the device does not track.  Then it is refused, and what it
names is said to be missing unless an earlier check hides it (`Trackers.Hides`).  A session
that is halted says nothing.
-/

namespace GpuAudit

/-- There is no such object, the verdict says. -/
def Verdict.Misses (verdict : Verdict) (h : Handle) : Prop :=
  ∃ v : Violation, v.Misses h ∧ v.toDiagnostic ∈ verdict.diagnostics

theorem Verdict.Misses.has {verdict : Verdict} {h : Handle} (misses : verdict.Misses h) :
    verdict.has .invalidObject = true := by
  obtain ⟨v, hv, found⟩ := misses
  exact Verdict.has_of_mem found hv.kind

namespace Layer

open MemoryObject (maxRefCount)

variable {l : Layer} {config : Config} {device d h : Handle} {session : Session} {call : Call}
  {owners : Owners} {sure : Handle → Prop} {allowed : Layer → Event → Prop}

/-! ## Reports -/

/-- What is found last is in the verdict. -/
theorem mem_verdict (c : ValidationConfig) (warnings : List Diagnostic) (v : Violation) :
    v.toDiagnostic ∈ (c.verdict (warnings ++ [v.toDiagnostic])).diagnostics :=
  List.mem_append_right _ (List.mem_singleton_self _)

/-- A call without a session is reported. -/
theorem validateCall_unrouted {v : Violation} (h : l.sessionFor call = .error v) :
    v.toDiagnostic ∈ ((validateCall call).run l).value.diagnostics := by
  unfold validateCall
  simp only [Logged.run_bind, Logged.run_get, h, conclude_error_value]
  exact mem_verdict _ [] v

/-- What stops a call is reported. -/
theorem validateCall_stopped {v : Violation} (hs : l.sessionFor call = .ok (device, session))
    (running : session.halted = false)
    (hv : ((Trackers.validate l.owners device call).on session.trackers).value = .error v) :
    v.toDiagnostic ∈ ((validateCall call).run l).value.diagnostics := by
  unfold validateCall
  simp only [Logged.run_bind, Logged.run_get, hs, running, Bool.false_eq_true, if_false,
    runOn_value, runOn_state, hv]
  refine (congrArg (v.toDiagnostic ∈ ·.diagnostics)
    (conclude_error_value (some device) v _)).mpr ?_
  exact mem_verdict _ _ v

/-- A call that names a queue, an allocation or a command buffer is validated. -/
theorem own_of_mentions (named : h ∈ call.mentions) : own call = validateCall call := by
  cases call with
  | createDevice | destroyDevice => cases named
  | _ => rfl

/-- What is found about a call itself is in the verdict before the call. -/
theorem mem_preCall {found : Diagnostic} (named : h ∈ call.mentions)
    (hd : found ∈ ((validateCall call).run l.drained).value.diagnostics) :
    found ∈ ((preCall call).run l).value.diagnostics := by
  rw [preCall_eq, own_of_mentions named]
  rw [← processCompletions_state] at hd
  exact List.mem_append_right _ hd

/-- A halted session has nothing to say about a call. -/
theorem preCall_halted (named : h ∈ call.mentions)
    (hs : l.drained.sessionFor call = .ok (device, session)) (halted : session.halted = true) :
    ((preCall call).run l).value = (processCompletions.run l).value := by
  rw [preCall_eq, own_of_mentions named]
  show ((processCompletions.run l).value).merge
    ((validateCall call).run (processCompletions.run l).state).value = _
  rw [processCompletions_state, validateCall_halted hs halted]
  exact Verdict.merge_pass _

/-- An object through which a call finds its device is named by the call. -/
theorem mentions_of_scope (scope : call.scope = .owner h) : h ∈ call.mentions := by
  cases call with
  | queueSubmit | queueBindSparse | queueWaitIdle | beginCommandBuffer | endCommandBuffer
  | resetCommandBuffer | recordCommand =>
      cases scope
      exact List.mem_cons_self
  | _ => cases scope

/-- No check of a call comes before that of such an object. -/
theorem not_hides_of_scope {t : Trackers} (scope : call.scope = .owner h) :
    ¬t.Hides owners device h call := by
  cases call with
  | queueSubmit | queueBindSparse =>
      cases scope
      exact fun hides => hides.1 rfl
  | queueWaitIdle | beginCommandBuffer | endCommandBuffer | resetCommandBuffer | recordCommand =>
      exact id
  | _ => cases scope

/-- No session tracks a handle. -/
def Lacks (l : Layer) (h : Handle) : Prop :=
  ∀ (d : Handle) (session : Session), l.sessions[d]? = some session → ¬session.trackers.Tracks h

instance (l : Layer) (h : Handle) : Decidable (l.Lacks h) :=
  l.decidableSessions fun _ session => ¬session.trackers.Tracks h

theorem Lacks.drained (lacks : l.Lacks h) : l.drained.Lacks h := fun d session hs tracked => by
  obtain ⟨before, hb, old⟩ := (shrinks_drained l).tracked d session hs h tracked
  exact lacks d before hb old

/-- If the handle of a command buffer leads to a session, it is not halted. -/
def Listens (l : Layer) (h : Handle) : Prop := h.kind = .commandBuffer →
  ∀ (d : Handle) (session : Session), l.owningSession h = .ok (d, session) →
    session.halted = false

/-- A call that names what its session does not track is refused and reported. -/
theorem preCall_missed (named : h ∈ call.mentions)
    (hs : l.drained.sessionFor call = .ok (d, session)) (running : session.halted = false)
    (gone : ¬session.trackers.Tracks h) : ∃ v : Violation,
      ((Trackers.validate l.owners d call).on session.trackers).value = .error v ∧
      v.toDiagnostic ∈ ((preCall call).run l).value.diagnostics ∧
      (v.Misses h ∨ session.trackers.Hides l.owners d h call) := by
  obtain ⟨v, hv, why⟩ := (Trackers.validate_missed named gone l.owners d).stops
  refine ⟨v, hv, mem_preCall named (validateCall_stopped hs running ?_), why⟩
  rw [owners_drained]
  exact hv

/-- A handle that no session tracks leads to none, but for a command buffer. -/
theorem Owned.lacking (owned : l.Owned (·.kind ≠ .commandBuffer)) (lacks : l.Lacks h) :
    (∃ v, l.owningSession h = .error v ∧ v.Misses h) ∨
      h.kind = .commandBuffer ∧ ∃ d session, l.owningSession h = .ok (d, session) := by
  cases ho : l.owners[h]? with
  | none =>
      refine .inl ⟨.invalidObject h "not owned by any tracked device", ?_, _, rfl⟩
      unfold owningSession
      rw [ho]
  | some d =>
      obtain ⟨session, hs, tracked⟩ := owned.tracker h d ho
      refine .inr ⟨?_, d, session, owningSession_eq_ok_iff.mpr ⟨ho, hs⟩⟩
      by_contra other
      exact lacks d session hs (tracked other)

/-- A call through a handle that no session tracks is reported. -/
theorem Owned.preCall_lacking (owned : l.Owned (·.kind ≠ .commandBuffer))
    (scope : call.scope = .owner h) (lacks : l.Lacks h) (listens : l.drained.Listens h) :
    ((preCall call).run l).value.Misses h := by
  have routed : l.drained.sessionFor call = l.drained.owningSession h := by
    unfold sessionFor
    rw [scope]
  rcases owned.drained.lacking lacks.drained with ⟨v, hv, misses⟩ | ⟨kind, d, session, found⟩
  · exact ⟨v, misses, mem_preCall (mentions_of_scope scope) (validateCall_unrouted (routed ▸ hv))⟩
  · obtain ⟨-, hs⟩ := owningSession_eq_ok_iff.mp found
    obtain ⟨v, -, reported, why⟩ := preCall_missed (mentions_of_scope scope) (routed ▸ found)
      (listens kind d session found) (lacks.drained d session hs)
    exact ⟨v, why.resolve_right (not_hides_of_scope scope), reported⟩

/-- So is a completion. -/
theorem Owned.completion_lacking (owned : l.Owned (·.kind ≠ .commandBuffer)) {r : Retirement}
    (lacks : l.Lacks r.queue) (listens : l.Listens r.queue) :
    ((applyRetirement r).run l).value.Misses r.queue ∧
      ∃ v, ((retireUpTo r).run l).value = .error v ∧ v.Misses r.queue := by
  rcases owned.lacking lacks with ⟨v, hv, misses⟩ | ⟨kind, d, session, found⟩
  · refine ⟨⟨v, misses, ?_⟩, v, ?_, misses⟩
    · unfold applyRetirement
      simp only [Logged.run_bind, Logged.run_get, hv, conclude_error_value]
      exact mem_verdict _ [] v
    · unfold retireUpTo
      simp only [Logged.run_bind, Logged.run_get, hv]
      rfl
  · obtain ⟨-, hs⟩ := owningSession_eq_ok_iff.mp found
    have running := listens kind d session found
    obtain ⟨noQueue, -, -⟩ := Trackers.not_tracks_iff.mp (lacks d session hs)
    obtain ⟨v, hv, misses⟩ := (Trackers.retireUpTo_missed noQueue).stops
    refine ⟨⟨v, misses, ?_⟩, v, ?_, misses⟩
    · rw [applyRetirement_error found running hv]
      exact mem_verdict _ [] v
    · unfold retireUpTo
      simp only [Logged.run_bind, Logged.run_get, found, running, Bool.false_eq_true, if_false,
        runOn_value, hv]
      rfl

/-! ## Routes -/

/-- The owners lead calls and completions where they belong. -/
structure Routes (l : Layer) : Prop where
  /-- What a session tracks its device owns. -/
  owner : ∀ (object d : Handle) (session : Session), l.sessions[d]? = some session →
    session.trackers.Tracks object → l.owners[object]? = some d
  /-- An owner has a session, which tracks the queues and the allocations that it owns. -/
  tracker : ∀ object d : Handle, l.owners[object]? = some d → ∃ session,
    l.sessions[d]? = some session ∧ (object.kind ≠ .commandBuffer → session.trackers.Tracks object)
  /-- A completion, or a call, through an object reaches the session that tracks it. -/
  reaches : ∀ (object d : Handle) (session : Session), l.sessions[d]? = some session →
    session.trackers.Tracks object → l.owningSession object = .ok (d, session) ∧
      ∀ call, call.scope = .owner object → l.sessionFor call = .ok (d, session)
  /-- A completion of a queue that no session tracks is reported, and retires nothing. -/
  completion : ∀ r, l.Lacks r.queue → l.Listens r.queue →
    ((applyRetirement r).run l).value.Misses r.queue ∧
      ∃ v, ((retireUpTo r).run l).value = .error v ∧ v.Misses r.queue
  /-- A call through an object that no session tracks is reported. -/
  lacking : ∀ object call, call.scope = .owner object → l.Lacks object →
    l.drained.Listens object → ((preCall call).run l).value.Misses object
  /-- A call that names what its session does not track is refused and reported; what it names
  is said to be missing, unless an earlier check hides that. -/
  missed : ∀ (call : Call) (object d : Handle) (session : Session), object ∈ call.mentions →
    l.drained.sessionFor call = .ok (d, session) → session.halted = false →
    ¬session.trackers.Tracks object → ∃ v : Violation,
      ((Trackers.validate l.owners d call).on session.trackers).value = .error v ∧
      v.toDiagnostic ∈ ((preCall call).run l).value.diagnostics ∧
      (v.Misses object ∨ session.trackers.Hides l.owners d object call)
  /-- A halted session has nothing to say about a call. -/
  silent : ∀ (call : Call) (object d : Handle) (session : Session), object ∈ call.mentions →
    l.drained.sessionFor call = .ok (d, session) → session.halted = true →
    ((preCall call).run l).value = (processCompletions.run l).value
  /-- After its end a device owns nothing. -/
  ended : ∀ object d : Handle, (l.step (.pre (.destroyDevice d))).owners[object]? ≠ some d

theorem Owned.reaches {object : Handle} (owned : l.Owned sure)
    (hs : l.sessions[d]? = some session) (tracked : session.trackers.Tracks object) :
    l.owningSession object = .ok (d, session) :=
  owningSession_eq_ok_iff.mpr ⟨owned.owner d session hs object tracked, hs⟩

/-- A device owns nothing after its end. -/
theorem Owned.ended (owned : l.Owned sure) (object d : Handle) :
    (l.step (.pre (.destroyDevice d))).owners[object]? ≠ some d := fun owner => by
  rw [step_eq] at owner
  obtain ⟨session, hs, -⟩ := (owned.drained.afterDestroy d).tracker object d owner
  rw [getElem?_afterDestroy, if_pos rfl] at hs
  cases hs

theorem Owned.routes (owned : l.Owned (·.kind ≠ .commandBuffer)) : l.Routes where
  owner object d session hs := owned.owner d session hs object
  tracker := owned.tracker
  reaches object d session hs tracked := by
    refine ⟨owned.reaches hs tracked, fun call scope => ?_⟩
    unfold sessionFor
    rw [scope]
    exact owned.reaches hs tracked
  completion _ := owned.completion_lacking
  lacking _ _ := owned.preCall_lacking
  missed _ _ _ _ := preCall_missed
  silent _ _ _ _ := preCall_halted
  ended := owned.ended

/-- Whatever has happened, where errors skip calls and no call creates what another device
tracks, the owners lead calls and completions where they belong.  As long as links are counted
or internal errors halt the session, the owner of any handle is the device that tracks it, and
what the pools of a running session list is tracked. -/
theorem routes_of_passed (suppress : config.validation.suppressOnError = true)
    (fair : ∀ k event, allowed k event → k.Fair event) (h : Passed allowed config l) :
    l.Routes ∧ ((∀ k event, allowed k event → k.Guarded event) →
      l.Exact ∧ ∀ (d : Handle) (session : Session), l.sessions[d]? = some session →
        session.halted = false → ∀ pool p, session.trackers.commands.pools.find? pool = some p →
          ∀ c ∈ p.buffers, session.trackers.Tracks c) := by
  refine ⟨(owned_of_passed suppress fair (.inr fun _ => id) h).routes, fun guarded => ?_⟩
  refine ⟨(owned_of_passed suppress fair (.inl guarded) h).exact,
    fun d session hs running pool p hp c hc => ?_⟩
  have books := obeys_of_sheltered (runningBooks_law _) (h.reached guarded)
  have sound := (books.law d session hs (by simp [running])).sound
  obtain ⟨b, hb⟩ := sound.live_of_listed hp hc
  exact Trackers.tracks_of_find hb

/-- Two devices have queues and memory; one frees its memory and a command buffer, and the
other ends. -/
def twoDevices : List Event :=
  [.call (.createDevice ⟨1, .device⟩) .success,
   .call (.createDevice ⟨2, .device⟩) .success,
   .call (.getDeviceQueue ⟨1, .device⟩ ⟨3, .queue⟩) .success,
   .call (.getDeviceQueue ⟨2, .device⟩ ⟨4, .queue⟩) .success,
   .call (.allocateMemory ⟨1, .device⟩ ⟨5, .deviceMemory⟩ { size := 4096 }) .success,
   .call (.allocateMemory ⟨2, .device⟩ ⟨6, .deviceMemory⟩ { size := 4096 }) .success,
   .call (.createCommandPool ⟨1, .device⟩ ⟨7, .commandPool⟩ .empty) .success,
   .call (.allocateCommandBuffers ⟨1, .device⟩ ⟨7, .commandPool⟩
     [⟨8, .commandBuffer⟩, ⟨9, .commandBuffer⟩]) .success,
   .call (.freeCommandBuffers ⟨1, .device⟩ ⟨7, .commandPool⟩ [⟨8, .commandBuffer⟩]) .success,
   .call (.freeMemory ⟨1, .device⟩ ⟨5, .deviceMemory⟩) .success,
   .report ⟨⟨3, .queue⟩, 0⟩, .process,
   .call (.destroyDevice ⟨2, .device⟩) .success]

/-- What is left has its owner, and what is gone is missed. -/
theorem routes_of_twoDevices :
    ((start {}).pass twoDevices).owners[(⟨9, .commandBuffer⟩ : Handle)]? = some ⟨1, .device⟩ ∧
    ((preCall (.endCommandBuffer ⟨8, .commandBuffer⟩)).run
      ((start {}).pass twoDevices)).value.Misses ⟨8, .commandBuffer⟩ ∧
    ((preCall (.queueWaitIdle ⟨4, .queue⟩)).run
      ((start {}).pass twoDevices)).value.Misses ⟨4, .queue⟩ ∧
    ((preCall (.freeMemory ⟨1, .device⟩ ⟨5, .deviceMemory⟩)).run
      ((start {}).pass twoDevices)).value.Misses ⟨5, .deviceMemory⟩ := by
  have passed : Passed (fun k event => k.Fair event ∧ k.Guarded event) {}
      ((start {}).pass twoDevices) := Passed.start.pass (by decide +kernel)
  obtain ⟨routes, guarded⟩ := routes_of_passed rfl (fun _ _ => And.left) passed
  obtain ⟨exact, -⟩ := guarded fun _ _ => And.right
  have tracked : ∃ session ∈ ((start {}).pass twoDevices).sessions[(⟨1, .device⟩ : Handle)]?,
      session.trackers.Tracks ⟨9, .commandBuffer⟩ := by decide +kernel
  have gone : ∀ object ∈ ([⟨8, .commandBuffer⟩, ⟨4, .queue⟩] : List Handle),
      ((start {}).pass twoDevices).Lacks object ∧
        ((start {}).pass twoDevices).drained.owners[object]? = none := by decide +kernel
  have listens {object : Handle} (none : ((start {}).pass twoDevices).drained.owners[object]? =
      none) : ((start {}).pass twoDevices).drained.Listens object := fun _ d session found => by
    rw [(owningSession_eq_ok_iff.mp found).1] at none
    cases none
  have left : ∃ session ∈ ((start {}).pass twoDevices).drained.sessions[(⟨1, .device⟩ : Handle)]?,
      session.halted = false ∧ ¬session.trackers.Tracks ⟨5, .deviceMemory⟩ := by decide +kernel
  obtain ⟨session, hs, running, freed⟩ := left
  obtain ⟨buffer, unbuffered⟩ := gone ⟨8, .commandBuffer⟩ (by simp)
  obtain ⟨queue, unqueued⟩ := gone ⟨4, .queue⟩ (by simp)
  obtain ⟨v, -, reported, why⟩ := routes.missed (.freeMemory ⟨1, .device⟩ ⟨5, .deviceMemory⟩) _ _
    session (List.mem_singleton_self _) (deviceSession_eq_ok_iff.mpr ⟨rfl, hs⟩) running freed
  exact ⟨(exact _ _).mpr tracked, routes.lacking _ _ rfl buffer (listens unbuffered),
    routes.lacking _ _ rfl queue (listens unqueued), v, why.resolve_right id, reported⟩

/-- A device frees its memory and a command buffer, and another device has memory. -/
def frees : List Event :=
  [.call (.createDevice ⟨1, .device⟩) .success,
   .call (.createDevice ⟨2, .device⟩) .success,
   .call (.getDeviceQueue ⟨1, .device⟩ ⟨3, .queue⟩) .success,
   .call (.allocateMemory ⟨1, .device⟩ ⟨4, .deviceMemory⟩ { size := 4096 }) .success,
   .call (.allocateMemory ⟨2, .device⟩ ⟨5, .deviceMemory⟩ { size := 4096 }) .success,
   .call (.createCommandPool ⟨1, .device⟩ ⟨6, .commandPool⟩ .empty) .success,
   .call (.allocateCommandBuffers ⟨1, .device⟩ ⟨6, .commandPool⟩
     [⟨7, .commandBuffer⟩, ⟨8, .commandBuffer⟩]) .success,
   .call (.freeCommandBuffers ⟨1, .device⟩ ⟨6, .commandPool⟩ [⟨8, .commandBuffer⟩]) .success,
   .call (.freeMemory ⟨1, .device⟩ ⟨4, .deviceMemory⟩) .success]

/-- The device is halted by a completion of work that was not submitted. -/
def freesAndHalts : List Event := frees ++ [.report ⟨⟨3, .queue⟩, 5⟩, .process]

/-- A command buffer gets a link that is not counted; the counted ones are released, and the
command buffer is freed. -/
def stranding : List Event :=
  beforeCrowd ++ ((crowdEvents ++
    [.call (.recordCommand ⟨6, .commandBuffer⟩ (.fillBuffer ⟨100, .buffer⟩)) .success,
     .call (.recordCommand ⟨6, .commandBuffer⟩ (.fillBuffer ⟨100, .buffer⟩)) .success]) ++
    (crowd.map (emptying ⟨1, .device⟩) ++
    [.call (.freeCommandBuffers ⟨1, .device⟩ ⟨5, .commandPool⟩ [⟨6, .commandBuffer⟩]) .success]))

/-- An event is fair whose call creates nothing. -/
theorem fair_of_idle {result : CallResult} (idle : call.creates = []) :
    l.Fair (.call call result) := fun _ _ _ g hg => by
  rw [idle] at hg
  cases hg

/-- The command records of the device after the two recordings. -/
def overlinked : CommandTracker := booksBefore.commands.change ⟨6, .commandBuffer⟩ fun b =>
  { b with memoryRefs := b.memoryRefs.insert ⟨3, .deviceMemory⟩ }

/-- A command that touches one resource touches the allocation that it is bound to. -/
theorem memoriesOf_fillBuffer {t : Trackers} {b memory : Handle} {info : BufferCreateInfo}
    (bound : t.resources.find? b = some ⟨.buffer info, .memory memory 0⟩) :
    t.memoriesOf (.fillBuffer b) = [memory] := by
  unfold Trackers.memoriesOf Trackers.resourcesOf
  simp [Command.uses, ResourceTracker.toOption_lookup, bound, Resource.memory?]

/-- The command buffer gets its link by the second recording. -/
theorem recordings_lead : ∃ u m, (u.queues = booksBefore.queues ∧ u.commands = overlinked ∧
      u.memory.objects.find? ⟨3, .deviceMemory⟩ = some m ∧ m.refCount = maxRefCount ∧
      ∀ b ∈ crowd, u.resources.find? b = some ⟨.buffer crowdInfo, .memory ⟨3, .deviceMemory⟩ 0⟩ ∧
        b ∈ m.bindings) ∧
    Leads unhalting ownersBefore ⟨1, .device⟩ booksBefore (crowdEvents ++
      [.call (.recordCommand ⟨6, .commandBuffer⟩ (.fillBuffer ⟨100, .buffer⟩)) .success,
       .call (.recordCommand ⟨6, .commandBuffer⟩ (.fillBuffer ⟨100, .buffer⟩)) .success]) u := by
  obtain ⟨t, shift, crowding⟩ := crowdEvents_lead
  have owner : ownersBefore[(⟨6, .commandBuffer⟩ : Handle)]? = some ⟨1, .device⟩ := by
    decide +kernel
  have records : ∃ b ∈ booksBefore.commands.buffers.find? ⟨6, .commandBuffer⟩,
      b.state = .recording := by decide +kernel
  have touched : (⟨100, .buffer⟩ : Handle) ∈ crowd :=
    mem_crowd_iff.mpr ⟨0, by decide, rfl⟩
  have bound (b : Handle) (hb : b ∈ crowd) : t.resources.find? b =
      some ⟨.buffer crowdInfo, .memory ⟨3, .deviceMemory⟩ 0⟩ := (shift.resources b).trans (if_pos hb)
  have may {u : Trackers} (commands : u.commands = booksBefore.commands)
      (resources : u.resources = t.resources) :
      u.MayRecord ⟨6, .commandBuffer⟩ (.fillBuffer ⟨100, .buffer⟩) := by
    refine ⟨commands ▸ records, fun use hu => ?_⟩
    cases List.mem_singleton.mp hu
    refine ⟨_, resources ▸ bound _ touched, ?_⟩
    show crowdInfo.usage.contains BufferUsage.transferDst = true
    decide
  have unlisted : (⟨6, .commandBuffer⟩ : Handle) ∉ crowded.commandBuffers := by
    rw [commandBuffers_crowded]
    decide
  obtain ⟨s, ⟨resources, queues, commands, hm⟩, first⟩ := listed_alone lenient_unhalting rfl owner
    (may shift.commands rfl) (memoriesOf_fillBuffer (bound _ touched))
    (shift.allocation _ hasRoom_before.live) unlisted (Nat.le_of_eq refCount_crowded.symm)
  obtain ⟨u, ⟨resources', queues', memory, commands'⟩, second⟩ := linked_alone lenient_unhalting
    owner (may (commands.trans shift.commands) resources)
    (memoriesOf_fillBuffer (resources ▸ bound _ touched)) hm (MemoryObject.mem_overlist _)
  refine ⟨u, crowded.overlist ⟨6, .commandBuffer⟩, ⟨?_, ?_, memory ▸ hm, ?_, fun b hb => ⟨?_, ?_⟩⟩,
    crowding.append (first.append second)⟩
  · rw [queues', queues, shift.queues]
  · rw [commands', commands, shift.commands]
    rfl
  · rw [MemoryObject.refCount_overlist, refCount_crowded]
  · rw [resources', resources, bound b hb]
  · rw [MemoryObject.bindings_overlist]
    exact mem_bindings_crowded.mpr hb

/-- The command buffer is struck out, and keeps its owner. -/
theorem pass_stranding : ∃ u, u.commands.buffers.find? ⟨6, .commandBuffer⟩ = none ∧
    (start unhalting).pass stranding = alone unhalting ownersBefore ⟨1, .device⟩ u ∧
    (start unhalting).Admits Fair stranding := by
  obtain ⟨t, m, ⟨queues, commands, hm, counted, bound⟩, recorded⟩ := recordings_lead
  obtain ⟨s, shift, emptied⟩ := empties_of_listed lenient_unhalting nodup_crowd bound hm
    (Nat.le_of_eq (length_crowd.trans counted.symm))
  have spent : (crowd.foldl (fun m b => m.detach b) m).refCount = 0 := by
    rw [MemoryObject.refCount_foldl_detach, length_crowd, counted]
    exact Nat.sub_self _
  have listed : ∃ p ∈ overlinked.pools.find? ⟨5, .commandPool⟩, ⟨6, .commandBuffer⟩ ∈ p.buffers ∧
      overlinked.isInFlight booksBefore.queues ⟨6, .commandBuffer⟩ = false := by decide +kernel
  have linked : ∃ b ∈ overlinked.buffers.find? ⟨6, .commandBuffer⟩,
      b.memoryRefs.toList = [⟨3, .deviceMemory⟩] := by decide +kernel
  obtain ⟨p, hp, own, retired⟩ := listed
  obtain ⟨b, hb, refs⟩ := linked
  rw [← commands, ← shift.commands] at hp hb retired
  rw [← queues, ← shift.queues] at retired
  have may : s.MayFree ⟨5, .commandPool⟩ [⟨6, .commandBuffer⟩] :=
    ⟨p, hp, by simpa using own, List.nodup_singleton _, by simpa using retired⟩
  obtain ⟨u, gone, freed⟩ :=
    unfreed_alone lenient_unhalting rfl may hb refs (shift.allocation _ hm) spent
  have leads := recorded.append (emptied.append freed)
  refine ⟨u, gone, ?_, admits_append.mpr ⟨by decide +kernel, alone_before ▸ leads.admits ?_⟩⟩
  · unfold stranding
    rw [pass_append, alone_before, leads.pass]
  · have idle : ∀ event ∈ crowdEvents, ∃ call, event = .call call .success ∧ call.creates = [] := by
      intro event he
      obtain ⟨b, -, made⟩ := List.mem_flatMap.mp he
      simp only [crowding, List.mem_cons, List.not_mem_nil, or_false] at made
      rcases made with rfl | rfl
      · exact ⟨_, rfl, rfl⟩
      · exact ⟨_, rfl, rfl⟩
    intro event he k
    simp only [List.mem_append, List.mem_map, List.mem_cons, List.not_mem_nil, or_false] at he
    rcases he with (crowding | rfl | rfl) | ⟨b, -, rfl⟩ | rfl
    · obtain ⟨call, rfl, idle⟩ := idle event crowding
      exact fair_of_idle idle
    · exact fair_of_idle rfl
    · exact fair_of_idle rfl
    · exact fair_of_idle rfl
    · exact fair_of_idle rfl

/-- In fair runs, a device that is halted says nothing about memory that was freed; nor does a
submission that is refused for another command buffer say that one was freed; a call on one
device that names memory of another does not reach the session that tracks it; and after an
internal error that does not halt, a command buffer may keep its owner though it is gone. -/
theorem untold_of_frees :
    ((start {}).Admits Fair freesAndHalts ∧
      ((start {}).pass freesAndHalts).Lacks ⟨4, .deviceMemory⟩ ∧
      ((preCall (.freeMemory ⟨1, .device⟩ ⟨4, .deviceMemory⟩)).run
        ((start {}).pass freesAndHalts)).value = .pass) ∧
    ((start {}).Admits Fair frees ∧ ((start {}).pass frees).Lacks ⟨8, .commandBuffer⟩ ∧
      ¬((preCall (.queueSubmit ⟨3, .queue⟩
          [{ commandBuffers := [⟨7, .commandBuffer⟩, ⟨8, .commandBuffer⟩] }] none)).run
        ((start {}).pass frees)).value.Misses ⟨8, .commandBuffer⟩) ∧
    (∃ session ∈ ((start {}).pass frees).sessions[(⟨1, .device⟩ : Handle)]?,
      ((start {}).pass frees).sessionFor (.freeMemory ⟨1, .device⟩ ⟨5, .deviceMemory⟩) =
        .ok (⟨1, .device⟩, session) ∧ ¬session.trackers.Tracks ⟨5, .deviceMemory⟩ ∧
      ∃ other ∈ ((start {}).pass frees).sessions[(⟨2, .device⟩ : Handle)]?,
        other.trackers.Tracks ⟨5, .deviceMemory⟩) ∧
    unhalting.validation.suppressOnError = true ∧ (start unhalting).Admits Fair stranding ∧
      ((start unhalting).pass stranding).owners[(⟨6, .commandBuffer⟩ : Handle)]? =
        some ⟨1, .device⟩ ∧
      ((start unhalting).pass stranding).Lacks ⟨6, .commandBuffer⟩ := by
  refine ⟨by decide +kernel, ⟨by decide +kernel, by decide +kernel, fun misses => ?_⟩,
    by decide +kernel, ?_⟩
  · exact absurd misses.has (by decide +kernel)
  obtain ⟨u, gone, passed, fair⟩ := pass_stranding
  have owner : ownersBefore[(⟨6, .commandBuffer⟩ : Handle)]? = some ⟨1, .device⟩ := by
    decide +kernel
  rw [passed]
  refine ⟨rfl, fair, owner, fun d session hs => ?_⟩
  rw [getElem?_alone] at hs
  split at hs
  · cases hs
    rw [Trackers.tracks_commandBuffer rfl, gone]
    exact Bool.false_ne_true
  · cases hs

end Layer

end GpuAudit
