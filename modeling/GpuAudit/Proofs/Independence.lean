import GpuAudit.Proofs.View

/-!
# Devices validate independently

Requests to several devices come in turns.  A request to another device leaves a device what
it has: it `Shares` that with the layer before.  So the view of the device stays what it is,
and a request to the device itself gets the same reply in the layer and in its view.  The
replies to a device are those of a layer that nobody else uses.

All of this asks that requests are `Apart`, and by that the sides stay `Separate`.  Drivers may
give equal handles to objects of both sides by which the layer finds no device, and may reuse
what the other side has given up.  They may not give both sides the same memory: it would be
foreign to the device that got it first.
-/

namespace GpuAudit

namespace Call

/-- The objects that a call names, besides a device. -/
def names : Call → List Handle
  | createDevice _ | destroyDevice _ | deviceWaitIdle _ => []
  | getDeviceQueue _ object | allocateMemory _ object _ | freeMemory _ object
  | mapMemory _ object .. | unmapMemory _ object | createBuffer _ object _
  | createImage _ object _ | destroyBuffer _ object | destroyImage _ object
  | unbindMemory _ object | destroySwapchain _ object | createCommandPool _ object _
  | destroyCommandPool _ object | resetCommandPool _ object | beginCommandBuffer object _
  | endCommandBuffer object | resetCommandBuffer object | createFence _ object _
  | destroyFence _ object | getFenceStatus _ object | createSemaphore _ object
  | destroySemaphore _ object | queueWaitIdle object => [object]
  | bindBufferMemory _ resource memory _ | bindImageMemory _ resource memory _ =>
      [resource, memory]
  | queueBindSparse queue binds => queue :: binds.flatMap fun b => b.resource :: b.memory.toList
  | createSwapchain _ swapchain images _ => swapchain :: images
  | allocateCommandBuffers _ pool cbs | freeCommandBuffers _ pool cbs => pool :: cbs
  | recordCommand cb command => cb :: command.uses.map (·.resource)
  | resetFences _ fences | waitForFences _ fences _ => fences
  | queueSubmit queue submits fence => queue :: fence.toList ++ submits.flatMap fun s =>
      s.waitSemaphores ++ s.commandBuffers ++ s.signalSemaphores

/-- The objects that a call creates. -/
def makes : Call → List Handle
  | getDeviceQueue _ object | allocateMemory _ object _ | createBuffer _ object _
  | createImage _ object _ | createCommandPool _ object _ | createFence _ object _
  | createSemaphore _ object => [object]
  | createSwapchain _ swapchain images _ => swapchain :: images
  | allocateCommandBuffers _ _ cbs => cbs
  | _ => []

end Call

namespace Layer

variable {l k m : Layer} {device d : Handle} {session : Session} {call : Call} {q : Request}
  {owners : Owners} {rs : List Retirement} {r : Retirement}

/-! ## Requests to other devices -/

/-- What a device has is the same in both layers. -/
structure Shares (device : Handle) (l k : Layer) : Prop where
  /-- The choices of the user. -/
  config : k.config = l.config
  /-- Its session. -/
  sessions : k.sessions[device]? = l.sessions[device]?
  /-- What it owns. -/
  owned : ∀ g : Handle, k.owners[g]? = some device ↔ l.owners[g]? = some device
  /-- The reported retirements. -/
  pending : k.pending = l.pending

theorem shares_refl (device : Handle) (l : Layer) : Shares device l l :=
  ⟨rfl, rfl, fun _ => Iff.rfl, rfl⟩

theorem Shares.trans (h : Shares device l k) (h' : Shares device k m) : Shares device l m :=
  ⟨h'.config.trans h.config, h'.sessions.trans h.sessions,
    fun g => (h'.owned g).trans (h.owned g), h'.pending.trans h.pending⟩

theorem shares_ran {α : Type} (away : d ≠ device) {o : Outcome Trackers (Except Violation α)}
    (owned : ∀ g : Handle, owners[g]? = some device ↔ l.owners[g]? = some device) :
    Shares device l (l.ran owners d session o) where
  config := config_ran ..
  sessions := by rw [getElem?_ran, if_neg away.symm]
  owned g := by rw [owners_ran, owned]
  pending := pending_ran ..

theorem shares_afterRetirement (away : ∀ owner ∈ l.owners[r.queue]?, owner ≠ device) :
    Shares device l (l.afterRetirement r) := by
  rcases l.afterRetirement_cases r with same | ⟨d, session, found, -, ran⟩
  · rw [same]
    exact shares_refl device l
  · rw [ran]
    exact shares_ran (away d (owningSession_eq_ok_iff.mp found).1) fun _ => Iff.rfl

theorem shares_afterRetirements : ∀ {rs : List Retirement} {l : Layer},
    (∀ r ∈ rs, ∀ owner ∈ l.owners[r.queue]?, owner ≠ device) →
    Shares device l (rs.foldl afterRetirement l)
  | [], l, _ => shares_refl device l
  | r :: rs, l, away => by
      obtain ⟨here, rest⟩ := List.forall_mem_cons.mp away
      refine (shares_afterRetirement here).trans (shares_afterRetirements fun r' hr' => ?_)
      rw [owners_afterRetirement]
      exact rest r' hr'

/-- Retirements on queues of other devices are applied. -/
theorem Shares.retired (h : Shares device l k) (idle : l.pending = [])
    (away : ∀ r ∈ rs, ∀ owner ∈ l.owners[r.queue]?, owner ≠ device) :
    Shares device l (drained { k with pending := l.pending ++ rs }) := by
  have waiting : Shares device l { k with pending := [] } :=
    ⟨h.config, h.sessions, h.owned, idle.symm⟩
  rw [idle]
  refine waiting.trans (shares_afterRetirements fun r hr owner ho here => ?_)
  subst here
  exact away r hr owner ((h.owned r.queue).mp ho) rfl

theorem shares_afterDestroy (away : d ≠ device) : Shares device l (l.afterDestroy d) := by
  unfold afterDestroy
  split
  · exact shares_refl device l
  · refine ⟨rfl, (Handle.getElem?_erase ..).trans (if_neg away.symm), fun g => ?_, rfl⟩
    show (l.owners.filter fun _ owner => owner ≠ d)[g]? = some device ↔ _
    rw [Std.ExtTreeMap.getElem?_filter', Option.filter_eq_some_iff]
    simp [away.symm]

theorem shares_afterCreate (away : d ≠ device) : Shares device l (l.afterCreate d) := by
  unfold afterCreate
  split
  · exact ⟨rfl, (getElem?_put _ _).trans (if_neg away.symm), fun _ => Iff.rfl, rfl⟩
  · exact shares_refl device l

/-- What a call gives up was tracked, so it is not another device's. -/
theorem shares_afterValidation (separate : l.Separate device) (addresses : l.Addresses q)
    (away : q.device ≠ device) : Shares device l (l.afterValidation q.call) := by
  rcases l.afterValidation_cases q.call with same | ⟨d, session, found, -, ran⟩
  · rw [same]
    exact shares_refl device l
  · obtain ⟨hs, -⟩ := session_of_call found
    obtain rfl := addresses.about found
    have releases := Trackers.validate_releases session.trackers l.owners q.device q.call
    rw [ran]
    refine shares_ran away fun g => getElem?_givenUp.trans (and_iff_left_of_imp ?_)
    intro ho released hx gone
    have tracked := (releases.good_of_ok hx g gone).1
    exact away ((separate q.device session hs g tracked device ho).mp rfl)

/-- What a call creates is free, so it is not another device's; nor are the queues that
it retires. -/
theorem shares_afterRecord (separate : l.Separate device)
    (scheduled : ∀ (d : Handle) (session : Session), l.sessions[d]? = some session →
      session.trackers.Scheduled) (idle : l.pending = []) (addresses : l.Addresses q)
    (free : Free device l q.device q.call.creates) (away : q.device ≠ device) :
    Shares device l (l.afterRecord q.call) := by
  rcases l.afterRecord_cases q.call with same | ⟨d, session, found, -, ran⟩
  · rw [same]
    exact shares_refl device l
  · obtain ⟨hs, -⟩ := session_of_call found
    obtain rfl := addresses.about found
    have creates := Trackers.recordCreation_creates session.trackers q.device q.call
    have entered : Shares device l (l.ran (gainedBy l.owners q.device
        ((Trackers.recordCreation q.device q.call).on session.trackers).value) q.device session
          ((Trackers.recordCreation q.device q.call).on session.trackers)) := by
      refine shares_ran away fun g => getElem?_gainedBy_iff.trans
        ((or_iff_right fun made => away made.1.symm).trans (and_iff_left_of_imp ?_))
      intro ho gained hx new
      exact away (((free g (creates.good_of_ok hx g new)).1 device ho).mp rfl)
    rw [ran]
    refine entered.retired idle fun r hr owner ho here => ?_
    have tracked := (scheduled q.device session hs).tracks_implied hr
    exact away ((separate q.device session hs r.queue tracked owner ho).mp here)

theorem shares_before (separate : l.Separate device) (idle : l.pending = [])
    (addresses : l.Addresses q) (away : q.device ≠ device) :
    Shares device l (l.step (.pre q.call)) := by
  have validated := shares_afterValidation separate addresses away
  rw [step_eq]
  show Shares device l (l.drained.afterOwn q.call)
  rw [drained_idle idle]
  obtain ⟨d, call⟩ := q
  cases call with
  | createDevice => exact shares_refl device l
  | destroyDevice d' =>
      obtain rfl : d' = d := addresses
      exact shares_afterDestroy away
  | _ => exact validated

/-- A request to another device that is apart leaves a device what it has. -/
theorem shares_served {config : Config} (h : Reached (fun _ _ => True) config l)
    (separate : l.Separate device) (idle : l.pending = []) (apart : Apart device l q)
    (away : q.device ≠ device) : Shares device l (l.served q) := by
  have before := shares_before separate idle apart.addresses away
  have shrinks := shrinks_before (chained_of_reached h) q.call
  have addresses := apart.addresses.shrinks shrinks
  have recorded := shares_afterRecord (separate.shrinks shrinks)
    (fun _ _ hs => scheduled_of_reached (h.step (.pre q.call) trivial) hs)
    (before.pending.trans idle) addresses (apart.creates.shrinks shrinks) away
  rw [served_eq]
  split
  · exact before
  · refine before.trans ?_
    rw [step_eq (l.step (.pre q.call))]
    obtain ⟨d, call⟩ := q
    cases call with
    | createDevice d' =>
        obtain rfl : d' = d := addresses
        exact shares_afterCreate away
    | destroyDevice => exact shares_refl device _
    | _ => exact recorded

/-- The view stays what it is where the device has the same. -/
theorem View.beside (h : View device [] l k) (same : Shares device l m) : View device [] m k where
  config := h.config.trans same.config.symm
  sessions d := by
    rw [h.sessions]
    split
    next here => rw [here, same.sessions]
    next => rfl
  owned g d := by
    rw [h.owned]
    constructor
    · rintro ⟨ho, rfl⟩
      exact ⟨(same.owned g).mpr ho, rfl⟩
    · rintro ⟨ho, rfl⟩
      exact ⟨(same.owned g).mp ho, rfl⟩
  pending := h.pending.trans same.pending.symm
  ahead r hr := h.ahead r (same.pending ▸ hr)
  routed := fun _ hr => nomatch hr

/-! ## Replies -/

/-- What a client learns from a request, and the session that it leaves. -/
structure Reply where
  /-- The verdict before the call. -/
  before : Verdict
  /-- The verdict after it, if it was not skipped. -/
  after : Option Verdict
  /-- The session of the device, if it has one. -/
  session : Option Session
deriving DecidableEq

/-- The reply to a request; the driver succeeds, unless the call is skipped. -/
def reply (l : Layer) (q : Request) : Reply where
  before := ((Layer.preCall q.call).run l).value
  after :=
    if l.skips q.call then none
    else some ((Layer.postCall q.call .success).run (l.step (.pre q.call))).value
  session := (l.served q).sessions[q.device]?

/-- The replies to the requests that are addressed to a device. -/
def replies (device : Handle) : Layer → List Request → List Reply
  | _, [] => []
  | l, q :: qs =>
      if q.device = device then l.reply q :: replies device (l.served q) qs
      else replies device (l.served q) qs

/-- Requests that are apart where they come. -/
def AllApart (device : Handle) : Layer → List Request → Prop
  | _, [] => True
  | l, q :: qs => Apart device l q ∧ AllApart device (l.served q) qs

instance decidableAllApart (device : Handle) : ∀ (l : Layer) (qs : List Request),
    Decidable (AllApart device l qs)
  | _, [] => isTrue trivial
  | l, q :: qs =>
      have : Decidable (AllApart device (l.served q) qs) := decidableAllApart device (l.served q) qs
      inferInstanceAs (Decidable (Apart device l q ∧ AllApart device (l.served q) qs))

section Replies

variable {config : Config}

theorem Reached.served (h : Reached (fun _ _ => True) config l) (q : Request) :
    Reached (fun _ _ => True) config (l.served q) := by
  rw [served_eq]
  split
  · exact h.step _ trivial
  · exact (h.step _ trivial).step _ trivial

/-- A request to the device gets the same reply in both layers. -/
theorem View.request (h : View device [] l k) (reached : Reached (fun _ _ => True) config l)
    (separate : l.Separate device) (apart : Apart device l ⟨device, call⟩) :
    l.reply ⟨device, call⟩ = k.reply ⟨device, call⟩ ∧
      View device [] (l.served ⟨device, call⟩) (k.served ⟨device, call⟩) := by
  have before := h.preCall apart.addresses (apart.binds rfl)
  have shrinks := shrinks_before (chained_of_reached reached) call
  have view : View device [] (l.step (.pre call)) (k.step (.pre call)) := before.view
  have after := view.postCall (apart.addresses.shrinks shrinks) fun session hs r hr owner ho =>
    have scheduled := scheduled_of_reached (reached.step (.pre call) trivial) hs
    have tracked := scheduled.tracks_implied hr
    (separate.shrinks shrinks device session hs r.queue tracked owner ho).mpr rfl
  have skips : k.skips call = l.skips call := congrArg (·.skipCall) before.value.symm
  have served : View device [] (l.served ⟨device, call⟩) (k.served ⟨device, call⟩) := by
    rw [served_eq, served_eq]
    show View device [] _ (if k.skips call then _ else _)
    rw [skips]
    split
    · exact view
    · exact after.view
  refine ⟨?_, served⟩
  unfold reply
  simp only [skips, before.value, served.sessions, if_true]
  rw [after.value]

/-- In every layer and its view the device gets the same replies. -/
theorem View.replies_eq : ∀ {qs : List Request} {l k : Layer}, View device [] l k →
    Reached (fun _ _ => True) config l → l.Separate device → AllApart device l qs →
    replies device l qs = replies device k (qs.filter (·.device = device))
  | [], _, _, _, _, _, _ => rfl
  | ⟨d, call⟩ :: qs, l, k, h, reached, separate, ⟨apart, rest⟩ => by
      have kept := separate.served (chained_of_reached reached) apart
      -- The view takes the step too if the request is to the device, and stays if it is not.
      show (if d = device then l.reply ⟨d, call⟩ :: replies device (l.served ⟨d, call⟩) qs
        else replies device (l.served ⟨d, call⟩) qs) = _
      by_cases here : d = device
      · obtain rfl := here.symm
        obtain ⟨same, view⟩ := h.request reached separate apart
        have later := view.replies_eq (Reached.served reached _) kept rest
        rw [if_pos rfl, List.filter_cons_of_pos (by simp), same, later]
        exact (if_pos rfl).symm
      · have same := shares_served reached separate h.idle.1 apart here
        rw [if_neg here, List.filter_cons_of_neg (by simpa using here)]
        exact (h.beside same).replies_eq (Reached.served reached _) kept rest

/-- A device gets the replies that it would get in a layer that nobody else uses, whatever the
requests to other devices are that are apart. -/
theorem replies_alone {requests : List Request}
    (apart : AllApart device (start config) requests) : replies device (start config) requests =
      replies device (start config) (requests.filter (·.device = device)) :=
  (view_start config).replies_eq .start (separate_start config) apart

/-- Two devices give equal values to their buffers and fences.  The second gets the memory that
the first has freed, and ends while the first goes on. -/
def sideBySide : List Request :=
  [⟨⟨1, .device⟩, .createDevice ⟨1, .device⟩⟩,
   ⟨⟨2, .device⟩, .createDevice ⟨2, .device⟩⟩,
   ⟨⟨1, .device⟩, .getDeviceQueue ⟨1, .device⟩ ⟨3, .queue⟩⟩,
   ⟨⟨2, .device⟩, .getDeviceQueue ⟨2, .device⟩ ⟨4, .queue⟩⟩,
   ⟨⟨1, .device⟩, .allocateMemory ⟨1, .device⟩ ⟨5, .deviceMemory⟩ { size := 4096 }⟩,
   ⟨⟨1, .device⟩, .createBuffer ⟨1, .device⟩ ⟨6, .buffer⟩ ⟨256, BufferUsage.transferSrc, false⟩⟩,
   ⟨⟨2, .device⟩, .createBuffer ⟨2, .device⟩ ⟨6, .buffer⟩ ⟨512, BufferUsage.transferDst, false⟩⟩,
   ⟨⟨1, .device⟩, .createFence ⟨1, .device⟩ ⟨7, .fence⟩ false⟩,
   ⟨⟨2, .device⟩, .createFence ⟨2, .device⟩ ⟨7, .fence⟩ false⟩,
   ⟨⟨1, .device⟩, .freeMemory ⟨1, .device⟩ ⟨5, .deviceMemory⟩⟩,
   ⟨⟨2, .device⟩, .allocateMemory ⟨2, .device⟩ ⟨5, .deviceMemory⟩ { size := 1024 }⟩,
   ⟨⟨2, .device⟩, .bindBufferMemory ⟨2, .device⟩ ⟨6, .buffer⟩ ⟨5, .deviceMemory⟩ 0⟩,
   ⟨⟨2, .device⟩, .queueSubmit ⟨4, .queue⟩ [] (some ⟨7, .fence⟩)⟩,
   ⟨⟨1, .device⟩, .queueSubmit ⟨3, .queue⟩ [] (some ⟨7, .fence⟩)⟩,
   ⟨⟨2, .device⟩, .destroyDevice ⟨2, .device⟩⟩,
   ⟨⟨1, .device⟩, .waitForFences ⟨1, .device⟩ [⟨7, .fence⟩] true⟩,
   ⟨⟨1, .device⟩, .allocateMemory ⟨1, .device⟩ ⟨8, .deviceMemory⟩ { size := 4096 }⟩,
   ⟨⟨1, .device⟩, .bindBufferMemory ⟨1, .device⟩ ⟨6, .buffer⟩ ⟨8, .deviceMemory⟩ 0⟩]

/-- The first device gets its replies as if it were alone, and so does the second. -/
theorem replies_of_sideBySide :
    (AllApart ⟨1, .device⟩ (start {}) sideBySide ∧
      replies ⟨1, .device⟩ (start {}) sideBySide =
        replies ⟨1, .device⟩ (start {}) (sideBySide.filter (·.device = ⟨1, .device⟩))) ∧
    AllApart ⟨2, .device⟩ (start {}) sideBySide ∧
      replies ⟨2, .device⟩ (start {}) sideBySide =
        replies ⟨2, .device⟩ (start {}) (sideBySide.filter (·.device = ⟨2, .device⟩)) := by
  have first : AllApart ⟨1, .device⟩ (start {}) sideBySide := by decide +kernel
  have second : AllApart ⟨2, .device⟩ (start {}) sideBySide := by decide +kernel
  exact ⟨⟨first, replies_alone first⟩, second, replies_alone second⟩

/-- Requests to a device name only what they create, or others to it have created before. -/
def OwnNames (device : Handle) (requests : List Request) : Prop :=
  ∀ i : Fin requests.length, (requests.get i).device = device → ∀ g ∈ (requests.get i).call.names,
    ∃ q ∈ requests.take (i + 1), q.device = device ∧ g ∈ q.call.makes

instance (device : Handle) (requests : List Request) : Decidable (OwnNames device requests) :=
  inferInstanceAs (Decidable (∀ _ : Fin requests.length, _))

/-- The drivers of two devices give out the same memory handle, before the first device binds
a buffer to its memory. -/
def sameMemory : List Request :=
  [⟨⟨1, .device⟩, .createDevice ⟨1, .device⟩⟩,
   ⟨⟨2, .device⟩, .createDevice ⟨2, .device⟩⟩,
   ⟨⟨1, .device⟩, .allocateMemory ⟨1, .device⟩ ⟨5, .deviceMemory⟩ { size := 4096 }⟩,
   ⟨⟨1, .device⟩, .createBuffer ⟨1, .device⟩ ⟨6, .buffer⟩ ⟨256, BufferUsage.transferSrc, false⟩⟩,
   ⟨⟨2, .device⟩, .allocateMemory ⟨2, .device⟩ ⟨5, .deviceMemory⟩ { size := 4096 }⟩,
   ⟨⟨1, .device⟩, .bindBufferMemory ⟨1, .device⟩ ⟨6, .buffer⟩ ⟨5, .deviceMemory⟩ 0⟩]

/-- The memory counts as the second device's, so the first may not bind to it, as it may
when it is alone. -/
theorem replies_of_sameMemory :
    OwnNames ⟨1, .device⟩ sameMemory ∧
    replies ⟨1, .device⟩ (start {}) sameMemory ≠
      replies ⟨1, .device⟩ (start {}) (sameMemory.filter (·.device = ⟨1, .device⟩)) := by
  refine ⟨by decide +kernel, fun same => ?_⟩
  exact absurd (congrArg (List.map (·.before.has .bindingError)) same) (by decide +kernel)

end Replies

end Layer

end GpuAudit
