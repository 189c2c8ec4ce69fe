import GpuAudit.Proofs.Forwarding
import GpuAudit.Proofs.Tracking

/-!
# Checks before a creation

A creation is checked before it is forwarded, and entered after the driver has succeeded.
Entering has rules of its own: a handle must be of its kind, name something and not be live
yet, and a list must not name one twice.  The check asks for all of them when it is about
buffers, images and command buffers, and queues may be entered again.  It has gaps for the
other creations: nobody asks what an allocation is named by, and nobody asks whether a
fence, a semaphore, a pool, a swapchain or an image of a swapchain is live already.

A creation that passes its check is entered, and all it names is live then, exactly if the
books leave it no gap (`creates_iff`).
-/

namespace GpuAudit

open Track (Strict)

/-! ## Registration -/

namespace Registry

variable {kind : ObjectKind} {α σ : Type} {view : σ → Registry kind α}
  {put : σ → Registry kind α → σ} {record : α} {h : Handle} {s : σ}

theorem kind_of_contains {r : Registry kind α} (live : r.contains h = true) : h.kind = kind := by
  rw [contains_eq_isSome] at live
  exact kind_of_find (Option.eq_some_of_isSome live)

theorem contains_entered {r r' : Registry kind α} {entered : Handle → Prop} [DecidablePred entered]
    (views : ∀ g, r'.find? g = if entered g then some record else r.find? g) (here : entered h) :
    r'.contains h = true := by
  rw [contains_eq_isSome, views, if_pos here]
  rfl

/-- An object is entered, and shows in the books. -/
theorem enter_shows {shows : σ → Prop}
    (live : ∀ r : Registry kind α, h.kind = kind → r.contains h = true → shows (put s r)) :
    (Track.update fun s => (view s).register h record >>= fun r => pure (put s r)).Ends s
      (fun _ u => (view s).Admits h ∧ shows u)
      fun v _ => v.toDiagnostic.isError = true ∧ ¬(view s).Admits h := by
  refine enter_ends.mono (fun _ u hu => ?_) fun _ _ hv => ⟨Violation.isError_of_error hv.1, hv.2.1⟩
  obtain ⟨admits, r, rfl, entered⟩ := hu
  exact ⟨admits, live r admits.1.1 (contains_entered entered rfl)⟩

end Registry

/-! ## Creations -/

/-- What a creation names besides its device.  Other calls create nothing on a device. -/
def Call.created? : Call → Option (List Handle)
  | .getDeviceQueue _ queue => some [queue]
  | .allocateMemory _ memory _ => some [memory]
  | .createBuffer _ buffer _ => some [buffer]
  | .createImage _ image _ => some [image]
  | .createSwapchain _ swapchain images _ => some (swapchain :: images)
  | .createCommandPool _ pool _ => some [pool]
  | .allocateCommandBuffers _ pool cbs => some (pool :: cbs)
  | .createFence _ fence _ => some [fence]
  | .createSemaphore _ semaphore => some [semaphore]
  | _ => none

namespace Trackers

variable {t : Trackers} {device : Handle} {call : Call}

/-- Whether a handle is live in the books of a device. -/
def has (t : Trackers) (h : Handle) : Bool :=
  match h.kind with
  | .device => false
  | .deviceMemory => t.memory.contains h
  | .buffer | .image => t.resources.contains h
  | .commandBuffer => t.commands.contains h
  | .commandPool => t.commands.pools.contains h
  | .queue => t.queues.queues.contains h
  | .fence => t.queues.fences.contains h
  | .semaphore => t.queues.semaphores.contains h
  | .swapchain => t.resources.swapchains.contains h

/-- What the check of a creation asks for. -/
def Asked (t : Trackers) : Call → Prop
  | .getDeviceQueue _ queue => queue.Names .queue
  | .allocateMemory _ memory _ => t.memory.objects.find? memory = none
  | .createBuffer _ buffer _ => t.resources.buffers.Admits buffer
  | .createImage _ image _ => t.resources.images.Admits image
  | .createSwapchain _ swapchain _ _ => swapchain.Names .swapchain
  | .createCommandPool _ pool _ => pool.Names .commandPool
  | .allocateCommandBuffers _ pool cbs =>
      (∃ p, t.commands.pools.find? pool = some p) ∧ t.commands.buffers.AdmitsAll cbs
  | .createFence _ fence _ => fence.Names .fence
  | .createSemaphore _ semaphore => semaphore.Names .semaphore
  | _ => False

/-- What entering a creation asks for. -/
def Enterable (t : Trackers) : Call → Prop
  | .getDeviceQueue _ queue => queue.Names .queue ∨ t.queues.queues.contains queue = true
  | .allocateMemory _ memory _ => t.memory.objects.Admits memory
  | .createBuffer _ buffer _ => t.resources.buffers.Admits buffer
  | .createImage _ image _ => t.resources.images.Admits image
  | .createSwapchain _ swapchain images _ =>
      t.resources.swapchains.Admits swapchain ∧ t.resources.images.AdmitsAll images
  | .createCommandPool _ pool _ => t.commands.pools.Admits pool
  | .allocateCommandBuffers _ pool cbs =>
      (∃ p, t.commands.pools.find? pool = some p) ∧ t.commands.buffers.AdmitsAll cbs
  | .createFence _ fence _ => t.queues.fences.Admits fence
  | .createSemaphore _ semaphore => t.queues.semaphores.Admits semaphore
  | _ => False

/-- The check of a creation leaves no gap: what may pass it may be entered. -/
def Covered (t : Trackers) : Call → Prop
  | .allocateMemory _ memory _ =>
      t.memory.objects.find? memory = none → memory.Names .deviceMemory
  | .createSwapchain _ swapchain images _ => swapchain.Names .swapchain →
      t.resources.swapchains.find? swapchain = none ∧ t.resources.images.AdmitsAll images
  | .createCommandPool _ pool _ =>
      pool.Names .commandPool → t.commands.pools.find? pool = none
  | .createFence _ fence _ => fence.Names .fence → t.queues.fences.find? fence = none
  | .createSemaphore _ semaphore =>
      semaphore.Names .semaphore → t.queues.semaphores.find? semaphore = none
  | _ => True

theorem covered_iff : t.Covered call ↔ (t.Asked call → t.Enterable call) := by
  have keeps {P Q : Prop} : (P → Q) ↔ (P → P ∧ Q) := ⟨fun h p => ⟨p, h p⟩, fun h p => (h p).2⟩
  cases call with
  | getDeviceQueue _ queue => exact iff_of_true trivial Or.inl
  | allocateMemory _ memory _ => exact ⟨fun h new => ⟨h new, new⟩, fun h new => (h new).1⟩
  | createSwapchain _ swapchain images _ =>
      exact keeps.trans (by rw [← and_assoc]; exact Iff.rfl)
  | createCommandPool | createFence | createSemaphore => exact keeps
  | createBuffer | createImage | allocateCommandBuffers => exact iff_of_true trivial id
  | _ => exact iff_of_true trivial False.elim

/-! ## The check -/

/-- A rule passes or raises an error, and the books stay. -/
theorem ends_rule {rule : Except Violation Unit} {P : Prop} (strict : Strict rule)
    (passes : rule = .ok () ↔ P) :
    (validate.nothing (Track.ofExcept rule)).Ends t (fun _ u => u = t ∧ P)
      fun v _ => v.toDiagnostic.isError = true ∧ ¬P := by
  refine ends_nothing.mpr (Track.ends_ofExcept.mpr ⟨fun _ hr => ⟨rfl, passes.mp hr⟩, fun v hv => ?_⟩)
  refine ⟨strict.isError v hv, fun p => ?_⟩
  rw [passes.mpr p] at hv
  cases hv

/-- The same of a rule that asks the books. -/
theorem ends_question {question : Trackers → Except Violation Unit} {P : Prop}
    (strict : Strict (question t)) (passes : question t = .ok () ↔ P) :
    (validate.nothing (Track.query question)).Ends t (fun _ u => u = t ∧ P)
      fun v _ => v.toDiagnostic.isError = true ∧ ¬P :=
  ends_nothing.mpr (Track.ends_query.mpr (ends_nothing.mp (ends_rule strict passes)))

theorem resource_new_iff {resource : Handle} : t.resources.contains resource = false ↔
    t.resources.buffers.find? resource = none ∧ t.resources.images.find? resource = none := by
  simp [ResourceTracker.contains, Registry.contains_eq_isSome]

theorem newResource_eq_ok_iff {resource : Handle} {kind : ObjectKind} :
    validate.newResource resource kind t = .ok () ↔
      resource.Names kind ∧ t.resources.contains resource = false := by
  unfold validate.newResource
  simp only [bind_eq_ok_iff, expectKind_eq_ok_iff, expectNew_eq_ok_iff, exists_const]
  exact Iff.rfl

/-- A creation passes its check, or the check raises an error; the books stay. -/
theorem validate_creation_ends (t : Trackers) (owners : Owners) (device : Handle) {call : Call}
    {objects : List Handle} (creates : call.created? = some objects) :
    (validate owners device call).Ends t (fun _ u => u = t ∧ t.Asked call)
      fun v _ => v.toDiagnostic.isError = true ∧ ¬t.Asked call := by
  have named (h : Handle) (kind : ObjectKind) := ends_rule (t := t) (strict_expectKind h kind)
    (P := h.Names kind) expectKind_eq_ok_iff
  cases call with
  | getDeviceQueue _ queue => exact named queue .queue
  | createSwapchain _ swapchain _ _ => exact named swapchain .swapchain
  | createCommandPool _ pool _ => exact named pool .commandPool
  | createFence _ fence _ => exact named fence .fence
  | createSemaphore _ semaphore => exact named semaphore .semaphore
  | allocateMemory _ memory _ =>
      refine ends_question (strict_expectNew _ _) (expectNew_eq_ok_iff.trans ?_)
      show t.memory.objects.contains memory = false ↔ _
      rw [Registry.contains_eq_isSome, Option.isSome_eq_false_iff, Option.isNone_iff_eq_none]
      exact Iff.rfl
  | createBuffer _ buffer _ =>
      refine ends_question (strict_newResource _ _ t) (newResource_eq_ok_iff.trans ?_)
      refine and_congr_right fun names => resource_new_iff.trans (and_iff_left ?_)
      exact Registry.find?_eq_none_of_kind (by simp [names.1])
  | createImage _ image _ =>
      refine ends_question (strict_newResource _ _ t) (newResource_eq_ok_iff.trans ?_)
      refine and_congr_right fun names => resource_new_iff.trans (and_iff_right ?_)
      exact Registry.find?_eq_none_of_kind (by simp [names.1])
  | allocateCommandBuffers _ pool cbs =>
      exact ends_question (strict_newCommandBuffers _ _ t) newCommandBuffers_eq_ok_iff
  | _ => cases creates

/-! ## The entry -/

theorem ends_entering {α : Type} {x : Track Trackers α} {good : List Handle → Trackers → Prop}
    {bad : Violation → Trackers → Prop} :
    (recordCreation.nothing x).Ends t good bad ↔ x.Ends t (fun _ => good []) bad := by
  unfold recordCreation.nothing
  rw [Track.ends_bind, Track.ends_discard]
  exact Iff.rfl

/-- A creation is entered, and all it names is live then, or an error is raised. -/
def Makes (t : Trackers) (device : Handle) (call : Call) (objects : List Handle) : Prop :=
  (recordCreation device call).Ends t
    (fun _ u => t.Enterable call ∧ ∀ h ∈ objects, u.has h = true)
    fun v _ => v.toDiagnostic.isError = true ∧ ¬t.Enterable call

theorem makes_memory (d memory : Handle) (info : AllocationInfo) :
    t.Makes device (.allocateMemory d memory info) [memory] := by
  show (onMemory (MemoryTracker.allocate memory device info) >>= fun _ => pure [memory]).Ends t _ _
  unfold onMemory MemoryTracker.allocate
  rw [Track.ends_bind, Track.ends_within, Track.ends_bind]
  refine Registry.enter_shows fun objects kind live => List.forall_mem_singleton.mpr ?_
  rw [has, kind]
  exact live

theorem makes_buffer (d buffer : Handle) (info : BufferCreateInfo) :
    t.Makes device (.createBuffer d buffer info) [buffer] := by
  refine ends_entering.mpr ?_
  unfold onResources ResourceTracker.createBuffer
  rw [Track.ends_within, Track.ends_bind]
  refine Registry.enter_shows fun buffers kind live => List.forall_mem_singleton.mpr ?_
  rw [has, kind]
  exact Bool.or_eq_true_iff.mpr (.inl live)

theorem makes_image (d image : Handle) (info : ImageCreateInfo) :
    t.Makes device (.createImage d image info) [image] := by
  refine ends_entering.mpr ?_
  unfold onResources ResourceTracker.createImage
  rw [Track.ends_within, Track.ends_bind]
  refine Registry.enter_shows fun images kind live => List.forall_mem_singleton.mpr ?_
  rw [has, kind]
  exact Bool.or_eq_true_iff.mpr (.inr live)

theorem makes_pool (d pool : Handle) (flags : CommandPoolFlags) :
    t.Makes device (.createCommandPool d pool flags) [pool] := by
  refine ends_entering.mpr ?_
  unfold onCommands CommandTracker.createPool
  rw [Track.ends_within, Track.ends_bind]
  refine Registry.enter_shows fun pools kind live => List.forall_mem_singleton.mpr ?_
  rw [has, kind]
  exact live

theorem makes_fence (d fence : Handle) (signaled : Bool) :
    t.Makes device (.createFence d fence signaled) [fence] := by
  refine ends_entering.mpr ?_
  unfold onQueues QueueTracker.createFence
  rw [Track.ends_within, Track.ends_bind]
  refine Registry.enter_shows fun fences kind live => List.forall_mem_singleton.mpr ?_
  rw [has, kind]
  exact live

theorem makes_semaphore (d semaphore : Handle) :
    t.Makes device (.createSemaphore d semaphore) [semaphore] := by
  refine ends_entering.mpr ?_
  unfold onQueues QueueTracker.createSemaphore
  rw [Track.ends_within]
  refine Registry.enter_shows fun semaphores kind live => List.forall_mem_singleton.mpr ?_
  rw [has, kind]
  exact live

/-- A queue may be entered again. -/
theorem makes_queue (d queue : Handle) : t.Makes device (.getDeviceQueue d queue) [queue] := by
  show (onQueues (QueueTracker.addQueue queue) >>= fun added =>
    pure (if added then [queue] else [])).Ends t _ _
  unfold onQueues QueueTracker.addQueue
  rw [Track.ends_bind, Track.ends_within, Track.ends_bind, Track.ends_get]
  by_cases known : t.queues.queues.contains queue = true
  · simp only [if_pos known]
    refine ⟨.inr known, List.forall_mem_singleton.mpr ?_⟩
    rw [has, Registry.kind_of_contains known]
    exact known
  · simp only [if_neg known]
    rw [Track.ends_bind]
    have new : t.queues.queues.find? queue = none := by
      rwa [Registry.contains_eq_isSome, Option.not_isSome_iff_eq_none] at known
    refine (Registry.enter_ends (σ := QueueTracker)).mono (fun _ q hq => ?_) fun v _ hv => ?_
    · obtain ⟨admits, queues, rfl, entered⟩ := hq
      refine ⟨.inl admits.1, List.forall_mem_singleton.mpr ?_⟩
      rw [has, admits.1.1]
      exact Registry.contains_entered entered rfl
    · exact ⟨Violation.isError_of_error hv.1, fun enterable =>
        enterable.elim (fun names => hv.2.1 ⟨names, new⟩) known⟩

/-- A swapchain is entered with all its images, and they are live then, or an error is
raised. -/
theorem makes_swapchain (d swapchain : Handle) (images : List Handle) (usage : ImageUsage) :
    t.Makes device (.createSwapchain d swapchain images usage) (swapchain :: images) := by
  refine ends_entering.mpr ?_
  unfold onResources
  rw [Track.ends_within]
  refine (t.resources.createSwapchain_enters swapchain images usage).mono
    (fun _ r hr => ⟨hr.1, ?_⟩) fun v r hv =>
      ⟨Violation.isError_of_error hv.1, fun enterable => ?_⟩
  · obtain ⟨⟨admits, all⟩, enters⟩ := hr
    refine List.forall_mem_cons.mpr ⟨?_, fun image hi => ?_⟩
    · rw [has, admits.1.1]
      exact Registry.contains_entered enters.swapchains (List.mem_singleton_self _)
    · rw [has, (all.2 image hi).1.1]
      exact Bool.or_eq_true_iff.mpr (.inr (Registry.contains_entered enters.images hi))
  · rcases hv.2 with ⟨-, unready⟩ | ⟨-, stopped⟩
    · exact unready ⟨enterable.1, fun image hi =>
        ⟨(enterable.2.2 image hi).1.1, (enterable.2.2 image hi).2⟩⟩
    · exact stopped.images.not_admitsAll enterable.2

/-- Command buffers are entered, and live then, or an error is raised. -/
theorem makes_commandBuffers (d pool : Handle) (cbs : List Handle) :
    t.Makes device (.allocateCommandBuffers d pool cbs) (pool :: cbs) := by
  show (onCommands (CommandTracker.allocate pool cbs) >>= fun _ => pure cbs).Ends t _ _
  unfold onCommands
  rw [Track.ends_bind, Track.ends_within]
  refine (t.commands.allocate_enters pool cbs).mono (fun _ c hc => ?_) fun v c hv =>
    ⟨Violation.isError_of_error hv.1, fun enterable => ?_⟩
  · obtain ⟨⟨expects, all⟩, buffers, entered, rfl⟩ := hc
    obtain ⟨p, hp⟩ := expects.live
    refine ⟨⟨⟨p, hp⟩, all⟩, List.forall_mem_cons.mpr ⟨?_, fun cb hc => ?_⟩⟩
    · rw [has, Registry.kind_of_find hp]
      show (t.commands.pools.modify pool _).contains pool = true
      rw [Registry.contains_eq_isSome, Registry.find?_modify, if_pos rfl, hp]
      rfl
    · rw [has, (all.2 cb hc).1.1]
      exact Registry.contains_entered entered hc
  · rcases hv.2 with ⟨-, unexpected⟩ | ⟨-, _, stopped, -⟩
    · exact unexpected (CommandTracker.expects_of_admitsAll enterable.1 enterable.2)
    · exact stopped.not_admitsAll enterable.2

/-- A creation is entered, and all it names is live then, or an error is raised. -/
theorem recordCreation_makes (t : Trackers) (device : Handle) {objects : List Handle}
    (creates : call.created? = some objects) : t.Makes device call objects := by
  cases call <;> cases creates
  case getDeviceQueue => exact makes_queue ..
  case allocateMemory => exact makes_memory ..
  case createBuffer => exact makes_buffer ..
  case createImage => exact makes_image ..
  case createSwapchain => exact makes_swapchain ..
  case createCommandPool => exact makes_pool ..
  case allocateCommandBuffers => exact makes_commandBuffers ..
  case createFence => exact makes_fence ..
  case createSemaphore => exact makes_semaphore ..

end Trackers

/-! ## The hooks -/

namespace Verdict

theorem passed_merge (v w : Verdict) : (v.merge w).passed = (v.passed && w.passed) := by
  simp [passed, merge]

end Verdict

/-- A verdict on mild findings passes, and one on an error does not. -/
theorem ValidationConfig.passed_verdict {c : ValidationConfig} {ds : List Diagnostic} :
    (c.verdict ds).passed = true ↔ ∀ d ∈ ds, d.isError = false := by
  simp [Verdict.passed, verdict]

namespace Layer

variable {l : Layer} {device : Handle} {session : Session} {call : Call} {P : Prop}

theorem processCompletions_idle_value (idle : l.pending = []) :
    (processCompletions.run l).value = .pass := by
  unfold processCompletions
  simp only [Logged.run_bind, Logged.run_get, idle]
  rfl

/-- What stops a hook makes its verdict fail, if it is an error. -/
theorem conclude_fails {device : Option Handle} {v : Violation} {warnings : List Diagnostic}
    (error : v.toDiagnostic.isError = true) :
    ((conclude device (.error v) warnings).run l).value.passed = false := by
  rw [conclude_error_value, ← Bool.not_eq_true, ValidationConfig.passed_verdict]
  intro mild
  rw [mild _ (List.mem_append_right _ (List.mem_singleton_self _))] at error
  cases error

/-- The verdict on a call about a running session passes exactly if the books pass the call. -/
theorem validateCall_passed_iff (hs : l.sessionFor call = .ok (device, session))
    (running : session.halted = false)
    (ends : (Trackers.validate l.owners device call).Ends session.trackers
      (fun _ u => u = session.trackers ∧ P) fun v _ => v.toDiagnostic.isError = true ∧ ¬P) :
    ((validateCall call).run l).value.passed = true ↔ P := by
  unfold validateCall
  cases ho : ((Trackers.validate l.owners device call).on session.trackers).value with
  | ok released =>
      simp only [Logged.run_bind, Logged.run_get, hs, running, Bool.false_eq_true, if_false,
        runOn_value, ho]
      refine iff_of_true (ValidationConfig.passed_verdict.mpr fun d hd => ?_)
        (ends.good_of_ok ho).2
      obtain ⟨n, hn, he⟩ := List.mem_filterMap.mp hd
      exact (Trackers.gentle_validate l.owners device call session.trackers n hn).2 d he
  | error v =>
      obtain ⟨error, fails⟩ := ends.bad_of_error ho
      simp only [Logged.run_bind, Logged.run_get, hs, running, Bool.false_eq_true, if_false,
        runOn_value, ho]
      refine iff_of_false (fun passed => ?_) fails
      exact Bool.false_ne_true ((conclude_fails error).symm.trans passed)

/-- The verdict on what a call has created passes exactly if it is entered, where no work is
reported or implied. -/
theorem recordCall_passed_iff {good : Trackers → Prop}
    (hs : l.sessionFor call = .ok (device, session)) (running : session.halted = false)
    (idle : l.pending = []) (quiet : session.trackers.impliedRetirements call = [])
    (ends : (Trackers.recordCreation device call).Ends session.trackers
      (fun _ u => P ∧ good u) fun v _ => v.toDiagnostic.isError = true ∧ ¬P) :
    ((recordCall call).run l).value.passed = true ↔ P := by
  unfold recordCall
  cases ho : ((Trackers.recordCreation device call).on session.trackers).value with
  | ok gained =>
      simp only [Logged.run_bind, Logged.run_get, hs, running, Bool.false_eq_true, if_false,
        runOn_value, quiet, List.append_nil, ho, Logged.run_pure, Verdict.passed_merge]
      rw [processCompletions_idle_value (by exact idle)]
      exact iff_of_true rfl (ends.good_of_ok ho).1
  | error v =>
      obtain ⟨error, fails⟩ := ends.bad_of_error ho
      simp only [Logged.run_bind, Logged.run_get, hs, running, Bool.false_eq_true, if_false,
        runOn_value, quiet, List.append_nil, ho, Logged.run_pure, Verdict.passed_merge,
        Bool.and_eq_true]
      refine iff_of_false (fun passed => ?_) fails
      exact Bool.false_ne_true ((conclude_fails error).symm.trans passed.1)

theorem own_of_creation {objects : List Handle} (creates : call.created? = some objects) :
    own call = validateCall call := by
  cases call <;> first | rfl | cases creates

theorem postCall_of_creation {objects : List Handle} (creates : call.created? = some objects) :
    postCall call .success = recordCall call := by
  cases call <;> first | rfl | cases creates

theorem quiet_of_creation {objects : List Handle} (creates : call.created? = some objects)
    (t : Trackers) : t.impliedRetirements call = [] := by
  cases call <;> first | rfl | cases creates

/-- A creation is entered, and all it names is live after the hooks, if it passes its check. -/
def CreatesChecked (l : Layer) (device : Handle) (call : Call) (objects : List Handle) : Prop :=
  let before := (preCall call).run l
  let after := (postCall call .success).run before.state
  before.value.passed = true → after.value.passed = true ∧
    ∃ session ∈ after.state.sessions[device]?, ∀ h ∈ objects, session.trackers.has h = true

instance (l : Layer) (device : Handle) (call : Call) (objects : List Handle) :
    Decidable (l.CreatesChecked device call objects) :=
  inferInstanceAs (Decidable (_ → _ ∧ _))

section Creation

variable {objects : List Handle} (hs : l.sessionFor call = .ok (device, session))
  (running : session.halted = false) (idle : l.pending = [])
  (creates : call.created? = some objects)

include hs running idle creates

/-- The verdict before a creation passes exactly if the books have what its check asks for. -/
theorem preCall_passed_iff :
    ((preCall call).run l).value.passed = true ↔ session.trackers.Asked call := by
  rw [preCall_idle idle, own_of_creation creates]
  exact validateCall_passed_iff hs running
    (Trackers.validate_creation_ends session.trackers l.owners device creates)

/-- A check that passes leaves the books as they are. -/
theorem preCall_state_of_asked (asked : session.trackers.Asked call) :
    ((preCall call).run l).state.pending = [] ∧
      ((preCall call).run l).state.sessions[device]? = some session := by
  have ends := Trackers.validate_creation_ends session.trackers l.owners device creates
  rw [preCall_state, drained_idle idle, ← own_state, own_of_creation creates,
    validateCall_state, afterValidation_running hs (by simp [running])]
  cases ho : ((Trackers.validate l.owners device call).on session.trackers).value with
  | ok released =>
      simp only [ho]
      refine ⟨idle, (getElem?_put _ device).trans ?_⟩
      rw [if_pos rfl, (ends.good_of_ok ho).1]
  | error v => exact absurd asked (ends.bad_of_error ho).2

/-- The verdict after a creation passes exactly if it can be entered. -/
theorem postCall_passed_iff :
    ((postCall call .success).run l).value.passed = true ↔ session.trackers.Enterable call := by
  rw [postCall_of_creation creates]
  exact recordCall_passed_iff hs running idle (quiet_of_creation creates _)
    (Trackers.recordCreation_makes session.trackers device creates)

/-- A creation that can be entered leaves all it names live. -/
theorem postCall_state_of_enterable (enterable : session.trackers.Enterable call) :
    ∃ after ∈ ((postCall call .success).run l).state.sessions[device]?,
      ∀ h ∈ objects, after.trackers.has h = true := by
  have makes := Trackers.recordCreation_makes session.trackers device creates
  rw [postCall_of_creation creates, recordCall_state, afterRecord_entered hs (by simp [running]),
    quiet_of_creation creates, List.append_nil, drained_idle (by exact idle)]
  refine ⟨_, (getElem?_ran ..).trans (if_pos rfl), ?_⟩
  cases ho : ((Trackers.recordCreation device call).on session.trackers).value with
  | ok gained => exact (makes.good_of_ok ho).2
  | error v => exact absurd enterable (makes.bad_of_error ho).2

end Creation

/-- A creation that passes its check is entered, and all it names is live then, exactly if
the check leaves no gap. -/
theorem creates_iff {objects : List Handle} (hs : l.sessions[device]? = some session)
    (running : session.halted = false) (idle : l.pending = [])
    (about : call.scope = .device device) (creates : call.created? = some objects) :
    l.CreatesChecked device call objects ↔ session.trackers.Covered call := by
  have sessionFor {k : Layer} (found : k.sessions[device]? = some session) :
      k.sessionFor call = .ok (device, session) := by
    unfold Layer.sessionFor
    rw [about]
    exact deviceSession_eq_ok_iff.mpr ⟨rfl, found⟩
  rw [Trackers.covered_iff, ← preCall_passed_iff (sessionFor hs) running idle creates]
  refine forall_congr' fun passed => ?_
  have asked := (preCall_passed_iff (sessionFor hs) running idle creates).mp passed
  obtain ⟨idle', hs'⟩ := preCall_state_of_asked (sessionFor hs) running idle creates asked
  rw [postCall_passed_iff (sessionFor hs') running idle' creates]
  exact and_iff_left_of_imp
    (postCall_state_of_enterable (sessionFor hs') running idle' creates)

/-- A device with a fence. -/
def oneFence : List Hook :=
  [.post (.createDevice ⟨1, .device⟩) .success,
    .post (.createFence ⟨1, .device⟩ ⟨2, .fence⟩ false) .success]

/-- A swapchain with two images that are new is created. -/
theorem createsChecked_of_newImages :
    ((start {}).run oneFence).CreatesChecked ⟨1, .device⟩
      (.createSwapchain ⟨1, .device⟩ ⟨3, .swapchain⟩ [⟨4, .image⟩, ⟨5, .image⟩] .empty)
      [⟨3, .swapchain⟩, ⟨4, .image⟩, ⟨5, .image⟩] := by
  have found : ∃ session ∈ ((start {}).run oneFence).sessions[(⟨1, .device⟩ : Handle)]?,
      session.halted = false ∧
      session.trackers.resources.swapchains.find? ⟨3, .swapchain⟩ = none ∧
      ∀ i ∈ [(⟨4, .image⟩ : Handle), ⟨5, .image⟩],
        i.Names .image ∧ session.trackers.resources.images.find? i = none := by decide +kernel
  obtain ⟨session, hs, running, new, images⟩ := found
  exact (creates_iff hs running (by decide +kernel) rfl rfl).mpr fun _ =>
    ⟨new, by decide, images⟩

/-- The hooks of a fence that is live already: nothing is found before the call, and an error
after it. -/
theorem created_twice_of_oneFence :
    Reached Tame {} ((start {}).run oneFence) ∧
      ((start {}).run oneFence).pending = [] ∧
      (∃ session ∈ ((start {}).run oneFence).sessions[(⟨1, .device⟩ : Handle)]?,
        session.halted = false) ∧
      ((preCall (.createFence ⟨1, .device⟩ ⟨2, .fence⟩ false)).run
        ((start {}).run oneFence)).value = .pass ∧
      ¬((start {}).run oneFence).CreatesChecked ⟨1, .device⟩
        (.createFence ⟨1, .device⟩ ⟨2, .fence⟩ false) [⟨2, .fence⟩] :=
  ⟨Reached.start.run (by decide +kernel), by decide +kernel, by decide +kernel,
    by decide +kernel, by decide +kernel⟩

end Layer

end GpuAudit
