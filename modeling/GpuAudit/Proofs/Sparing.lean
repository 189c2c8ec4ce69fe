import GpuAudit.Proofs.Footprint
import GpuAudit.Proofs.Recycling

/-!
# What spares work in flight

`Spares` says that the queues stay, and with them the record of every command buffer
whose last submission has not retired.  It is a preorder that confines every call but
submissions and new queues, whatever the books are and wherever the call stops: so
unlike the protection of work in flight it needs no links to agree.

Most of it is footprints.  An operation that recycles a command buffer is `Limited` to
its record, and comes after a check that the record may change.
-/

namespace GpuAudit

open Track (Confined Refused confined_pure confined_throw confined_ofExcept confined_query
  confined_get confined_debug confined_modify confined_update)

/-! ## Executable command buffers -/

namespace CommandTracker

variable {t u : CommandTracker} {cb : Handle}

/-- Every executable command buffer stays as it is. -/
def Leaves (t u : CommandTracker) : Prop :=
  ∀ c b, t.buffers.find? c = some b → b.state = .executable → u.buffers.find? c = some b

instance : IsPreorder CommandTracker Leaves where
  refl _ _ _ hb _ := hb
  trans _ _ _ h k c b hb ready := k c b (h c b hb ready) ready

theorem leaves_of_buffers (h : u.buffers = t.buffers) : t.Leaves u := fun _ _ hb _ => h ▸ hb

theorem leaves_change {f : CommandBuffer → CommandBuffer} {old : CommandBuffer}
    (found : t.buffers.find? cb = some old) (idle : old.state ≠ .executable) :
    t.Leaves (t.change cb f) := by
  intro c b hb ready
  rw [find?_change, if_neg fun here => ?_]
  · exact hb
  · rw [here, found, Option.some.injEq] at hb
    exact idle (hb ▸ ready)

theorem createPool_leaves (pool : Handle) (flags : CommandPoolFlags) :
    (createPool pool flags).Confined Leaves :=
  confined_createPool fun _ _ _ => leaves_of_buffers rfl

theorem allocate_leaves (pool : Handle) (cbs : List Handle) :
    (allocate pool cbs).Confined Leaves := by
  refine confined_allocate (fun c _ t buffers entered => ?_) fun _ => leaves_of_buffers rfl
  intro g b hb _
  obtain ⟨-, -, new, -⟩ := Registry.register_eq_ok_iff.mp entered
  show buffers.find? g = _
  rw [Registry.find?_register entered, if_neg fun here => ?_]
  · exact hb
  · rw [here, new] at hb
    cases hb

theorem finish_leaves (cb : Handle) : (finish cb).Confined Leaves := by
  refine confined_finish fun t b hb recording => leaves_change hb fun ready => ?_
  rw [recording] at ready
  cases ready

/-- Whether a command buffer is in flight depends on its record and the queues. -/
theorem isInFlight_congr {queues queues' : QueueTracker} {c : Handle}
    (same : u.buffers.find? c = t.buffers.find? c) (still : queues'.queues = queues.queues) :
    u.isInFlight queues' c = t.isInFlight queues c := by
  unfold isInFlight QueueTracker.isRetired QueueTracker.queue
  rw [same, still]

end CommandTracker

namespace Trackers

variable {α : Type} {t u : Trackers} {cb : Handle}

/-! ## One command buffer -/

/-- The queues stay, and so does every command buffer but one. -/
structure Limited (cb : Handle) (t u : Trackers) : Prop where
  /-- The queues stay. -/
  queues : u.queues = t.queues
  /-- The other command buffers stay. -/
  others : ∀ c, c ≠ cb → u.commands.buffers.find? c = t.commands.buffers.find? c

instance : IsPreorder Trackers (Limited cb) where
  refl _ := ⟨rfl, fun _ _ => rfl⟩
  trans _ _ _ h k := ⟨k.queues.trans h.queues, fun c hc => (k.others c hc).trans (h.others c hc)⟩

theorem limited_of_eq (t u : Trackers) (hq : u.queues = t.queues) (hc : u.commands = t.commands) :
    Limited cb t u := ⟨hq, fun _ _ => by rw [hc]⟩

theorem change_limited (cb : Handle) (f : CommandBuffer → CommandBuffer) :
    (modify fun t => { t with commands := t.commands.change cb f } :
      Track Trackers PUnit).Confined (Limited cb) :=
  confined_modify fun _ => ⟨rfl, fun _ hc => (CommandTracker.find?_change f _).trans (if_neg hc)⟩

theorem releaseAll_limited (cb : Handle) : (releaseAll cb).Confined (Limited cb) :=
  (confined_query _).bind fun _ => Confined.bind (change_limited cb _) fun _ =>
    confined_releaseLinks limited_of_eq cb _

theorem clear_limited (cb : Handle) : (clear cb).Confined (Limited cb) :=
  (releaseAll_limited cb).bind fun _ => change_limited cb _

/-! ## Command buffers in flight -/

/-- The queues stay, and so does every executable command buffer in flight. -/
structure Spares (t u : Trackers) : Prop where
  /-- The queues stay. -/
  queues : u.queues.queues = t.queues.queues
  /-- What is in flight stays. -/
  buffers : ∀ c b, t.commands.buffers.find? c = some b → b.state = .executable →
    t.commands.isInFlight t.queues c = true → u.commands.buffers.find? c = some b

instance : IsPreorder Trackers Spares where
  refl _ := ⟨rfl, fun _ _ hb _ _ => hb⟩
  trans _ _ _ h k := by
    refine ⟨k.queues.trans h.queues, fun c b hb ready flies => ?_⟩
    have same := h.buffers c b hb ready flies
    exact k.buffers c b same ready
      ((CommandTracker.isInFlight_congr (same.trans hb.symm) h.queues).trans flies)

theorem spares_of_leaves (hq : u.queues.queues = t.queues.queues)
    (hc : t.commands.Leaves u.commands) : Spares t u :=
  ⟨hq, fun c b hb ready _ => hc c b hb ready⟩

theorem spares_of_eq (t u : Trackers) (hq : u.queues = t.queues) (hc : u.commands = t.commands) :
    Spares t u :=
  spares_of_leaves (by rw [hq]) (CommandTracker.leaves_of_buffers (by rw [hc]))

/-- A command buffer that may be recycled may change in any way. -/
theorem spares_of_limited (idle : t.commands.Idle t.queues cb) (h : Limited cb t u) :
    Spares t u := by
  refine ⟨by rw [h.queues], fun c b hb ready flies => (h.others c fun here => ?_).trans hb⟩
  subst here
  rw [idle b hb ready] at flies
  cases flies

theorem onCommands_spares {x : Track CommandTracker α} (hx : x.Confined CommandTracker.Leaves) :
    (onCommands x).Confined Spares :=
  hx.within fun t commands h => spares_of_leaves (u := { t with commands }) rfl h

/-- Fences and semaphores may change in any way. -/
theorem onQueues_spares {x : Track QueueTracker α} {good : QueueTracker → α → QueueTracker → Prop}
    (hx : ∀ t, x.Ends t (good t) (Refused t)) (same : ∀ t a q, good t a q → q.queues = t.queues) :
    (onQueues x).Confined Spares := by
  intro t
  unfold onQueues
  rw [Track.ends_within]
  refine (hx t.queues).mono (fun a q hq => ?_) fun _ q hq => ?_
  · exact spares_of_leaves (same t.queues a q hq) (refl_of CommandTracker.Leaves _)
  · rw [hq.2]
    exact refl_of Spares t

/-- An operation on one command buffer may follow a check that this may be recycled. -/
theorem confined_checked {check : Trackers → Except Violation Unit} {x : Unit → Track Trackers α}
    (idle : ∀ t, check t = .ok () → t.commands.Idle t.queues cb)
    (hx : (x ()).Confined (Limited cb)) : (Track.query check >>= x).Confined Spares := by
  intro t
  rw [Track.ends_bind, Track.ends_query, Track.ends_ofExcept]
  refine ⟨fun _ checked => ?_, fun _ _ => refl_of Spares t⟩
  have spared := fun u => spares_of_limited (u := u) (idle t checked)
  exact (hx t).mono (fun _ => spared) fun _ => spared

theorem begin_spares (cb : Handle) (usage : CommandBufferUsage) :
    (begin cb usage).Confined Spares :=
  confined_checked (fun _ checked => (CommandTracker.checkBegin_idle checked).1)
    ((releaseAll_limited cb).bind fun _ => Confined.bind (change_limited cb _) fun _ =>
      confined_debug _)

theorem reset_spares (cb : Handle) : (reset cb).Confined Spares :=
  (confined_query _).discard.bind fun _ =>
    confined_checked (fun _ checked => CommandTracker.idle_of_retired
      (CommandTracker.ensureRetired_eq_ok_iff.mp checked cb List.mem_cons_self))
      ((clear_limited cb).bind fun _ => confined_debug _)

theorem destroyCommandBuffer_spares (cb : Handle) : (destroyCommandBuffer cb).Confined Spares :=
  confined_destroyCommandBuffer
    (fun t _ retired view => spares_of_limited (t := t) (CommandTracker.idle_of_retired retired)
      ⟨rfl, fun c hc => (view c).trans (if_neg hc)⟩)
    (confined_releaseLinks spares_of_eq cb)
    fun _ _ => spares_of_leaves rfl (CommandTracker.leaves_of_buffers rfl)

/-- A link is entered only while the command buffer records. -/
theorem recordLink_spares (cb memory : Handle) : (recordLink cb memory).Confined Spares := by
  intro t
  unfold recordLink
  rw [Track.ends_bind, Track.ends_query, Track.ends_ofExcept]
  refine ⟨fun _ checked => ?_, fun _ _ => refl_of Spares t⟩
  obtain ⟨b, hb, recording⟩ := CommandTracker.checkRecording_eq_ok_iff.mp checked
  rw [Track.ends_bind, Track.ends_discard, onMemory, Track.ends_within]
  refine Track.ends_iff.mpr ⟨fun _ _ => ?_, fun _ _ => spares_of_eq t _ rfl rfl⟩
  rw [Track.ends_modify]
  refine spares_of_leaves rfl (CommandTracker.leaves_change hb fun ready => ?_)
  rw [recording] at ready
  cases ready

/-! ## Calls -/

/-- Every call but a submission spares work in flight when it is validated. -/
theorem validate_spares (owners : Owners) (device : Handle) {call : Call}
    (other : ∀ queue submits fence, call ≠ .queueSubmit queue submits fence) :
    (validate owners device call).Confined Spares := by
  by_cases schedules : Schedules call
  · cases call with
    | queueSubmit queue submits fence => exact absurd rfl (other queue submits fence)
    | destroyFence _ fence =>
        exact confined_nothing (onQueues_spares (fun t => t.destroyFence_ends fence)
          fun _ _ _ h => h.2.1)
    | resetFences _ fences =>
        exact confined_nothing (onQueues_spares (fun t => t.resetFences_ends fences)
          fun _ _ _ h => h.2.1)
    | destroySemaphore _ semaphore =>
        exact confined_nothing (onQueues_spares (fun t => t.destroySemaphore_ends semaphore)
          fun _ _ _ h => h.1)
    | _ => exact schedules.elim
  · exact confined_validate spares_of_eq begin_spares
      (fun cb => onCommands_spares (CommandTracker.finish_leaves cb)) reset_spares
      recordLink_spares destroyCommandBuffer_spares
      (fun _ _ _ _ _ => spares_of_leaves rfl (CommandTracker.leaves_of_buffers rfl))
      owners device schedules

/-- Every call but the first mention of a queue spares work in flight when what it has
created is entered. -/
theorem recordCreation_spares (device : Handle) {call : Call}
    (other : ∀ d queue, call ≠ .getDeviceQueue d queue) :
    (recordCreation device call).Confined Spares := by
  have nothing : ∀ {β : Type} {x : Track Trackers β}, x.Confined Spares →
      (recordCreation.nothing x).Confined Spares := fun hx =>
    hx.discard.bind fun _ => confined_pure _
  by_cases equips : Equips call
  · cases call with
    | getDeviceQueue d queue => exact absurd rfl (other d queue)
    | createFence _ fence signaled =>
        exact nothing (onQueues_spares (fun t => t.createFence_ends fence signaled)
          fun _ _ _ h => h.2.1)
    | createSemaphore _ semaphore =>
        exact nothing (onQueues_spares (fun t => t.createSemaphore_ends semaphore)
          fun _ _ _ h => h.1)
    | _ => exact equips.elim
  · exact confined_recordCreation spares_of_eq
      (fun pool flags => onCommands_spares (CommandTracker.createPool_leaves pool flags))
      (fun pool cbs => onCommands_spares (CommandTracker.allocate_leaves pool cbs)) device equips

end Trackers

end GpuAudit
