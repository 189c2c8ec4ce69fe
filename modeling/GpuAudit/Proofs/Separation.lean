import GpuAudit.Proofs.Fitting
import GpuAudit.Proofs.Ownership
import GpuAudit.Proofs.Returns

/-!
# Sides that stay separate

Every call runs on one session.  A session of its own is not enough for a device: the layer
finds devices by handles alone, in the owners, and there a handle has one device.

A request is `Apart` from a device if it is not about what the other side has.  The object
through which the layer finds the device of the call belongs to the device that the client
addresses, and what the call creates belongs to nobody on the other side.  Then the two
sides stay `Separate`: nothing that one tracks is owned by the other.  All that must be seen
for it is who gains what, since the sides stay separate where a layer only `Shrinks`.
-/

namespace GpuAudit

/-- The memory that a call binds resources to. -/
def Call.binds : Call → List Handle
  | .bindBufferMemory _ _ memory _ | .bindImageMemory _ _ memory _ => [memory]
  | .queueBindSparse _ binds => binds.filterMap (·.memory)
  | _ => []

/-- A call, and the device that the client addresses it to. -/
structure Request where
  /-- The device. -/
  device : Handle
  /-- The call. -/
  call : Call

/-! ## What a call implies -/

namespace Trackers

variable {t : Trackers}

theorem Scheduled.tracks_fenceRetirements (h : t.Scheduled) : ∀ {fs : List Handle} {r : Retirement},
    r ∈ fenceRetirements t.queues fs → t.Tracks r.queue
  | [], _, hr => nomatch hr
  | f :: fs, r, hr => by
      unfold fenceRetirements at hr
      cases known : t.queues.fenceRetirement f with
      | error v =>
          rw [known] at hr
          cases hr
      | ok implied =>
          rw [known] at hr
          rcases List.mem_append.mp hr with here | later
          · obtain ⟨x, hx, he⟩ := bind_eq_ok_iff.mp known
            cases he
            have hx := QueueTracker.fence_eq_ok_iff.mp hx
            cases x with
            | inUse queue s =>
                cases List.mem_singleton.mp here
                obtain ⟨q, hq, -⟩ := h.guarded.submitted hx
                exact tracks_iff.mpr (.inl (hq ▸ rfl))
            | unsignaled | signaled => cases here
          · exact h.tracks_fenceRetirements later

/-- What a call implies retires queues of its device. -/
theorem Scheduled.tracks_implied (h : t.Scheduled) {call : Call} {r : Retirement}
    (hr : r ∈ t.impliedRetirements call) : t.Tracks r.queue := by
  cases call with
  | getFenceStatus _ fence => exact h.tracks_fenceRetirements hr
  | waitForFences _ fences waitAll =>
      change r ∈ if waitAll ∨ fences.length = 1 then fenceRetirements t.queues fences
        else [] at hr
      split at hr
      · exact h.tracks_fenceRetirements hr
      · cases hr
  | queueWaitIdle queue =>
      change r ∈ (t.queues.idleRetirement queue).toOption.toList at hr
      cases known : t.queues.idleRetirement queue with
      | error v =>
          rw [known] at hr
          cases hr
      | ok idle =>
          rw [known] at hr
          cases List.mem_singleton.mp hr
          obtain ⟨q, hq, he⟩ := bind_eq_ok_iff.mp known
          cases he
          exact tracks_iff.mpr (.inl (QueueTracker.queue_eq_ok_iff.mp hq ▸ rfl))
  | deviceWaitIdle _ =>
      obtain ⟨⟨queue, q⟩, hq, rfl⟩ := List.mem_map.mp hr
      exact tracks_iff.mpr (.inl (Registry.mem_entries.mp hq ▸ rfl))
  | _ => cases hr

end Trackers

namespace Layer

variable {l k m : Layer} {device d : Handle} {session : Session} {call : Call} {q : Request}
  {owners : Owners} {new : List Handle}

/-! ## Sides -/

/-- Both handles are the device, or neither is. -/
def SameSide (device d d' : Handle) : Prop := d = device ↔ d' = device

instance (device d d' : Handle) : Decidable (SameSide device d d') :=
  inferInstanceAs (Decidable (_ ↔ _))

/-- Nobody on the other side than `d` owns or tracks what is new. -/
def Free (device : Handle) (l : Layer) (d : Handle) (new : List Handle) : Prop :=
  ∀ g ∈ new, (∀ owner ∈ l.owners[g]?, SameSide device owner d) ∧
    ∀ (d' : Handle) (session : Session), l.sessions[d']? = some session →
      session.trackers.Tracks g → SameSide device d' d

instance (device : Handle) (l : Layer) (d : Handle) (new : List Handle) :
    Decidable (Free device l d new) :=
  have (g : Handle) : Decidable (∀ (d' : Handle) (session : Session),
      l.sessions[d']? = some session → session.trackers.Tracks g → SameSide device d' d) :=
    l.decidableSessions fun d' session => session.trackers.Tracks g → SameSide device d' d
  inferInstanceAs (Decidable (∀ g ∈ new, _ ∧ _))

/-- Whether the layer finds the device of a call to be the one that is addressed, if any. -/
def Addresses (l : Layer) (q : Request) : Prop :=
  match q.call.scope with
  | .device d => d = q.device
  | .owner object => ∀ owner ∈ l.owners[object]?, owner = q.device

instance (l : Layer) (q : Request) : Decidable (l.Addresses q) := by
  unfold Addresses
  cases q.call.scope <;> exact inferInstance

/-- A request is not about what the other side of a device has. -/
structure Apart (device : Handle) (l : Layer) (q : Request) : Prop where
  /-- It reaches the device that it is addressed to. -/
  addresses : l.Addresses q
  /-- It binds resources of the device to no memory of another. -/
  binds : q.device = device → ∀ memory ∈ q.call.binds, ∀ owner ∈ l.owners[memory]?, owner = device
  /-- It creates nothing that the other side has. -/
  creates : Free device l q.device q.call.creates

instance (device : Handle) (l : Layer) (q : Request) : Decidable (Apart device l q) :=
  decidable_of_iff (l.Addresses q ∧ (q.device = device → ∀ memory ∈ q.call.binds,
      ∀ owner ∈ l.owners[memory]?, owner = device) ∧ Free device l q.device q.call.creates)
    ⟨fun ⟨addresses, binds, creates⟩ => ⟨addresses, binds, creates⟩,
     fun apart => ⟨apart.addresses, apart.binds, apart.creates⟩⟩

/-- The layer finds a device only where it is addressed. -/
theorem Addresses.about (h : l.Addresses q)
    (found : l.sessionFor q.call = .ok (d, session)) : d = q.device := by
  unfold Addresses at h
  cases scope : q.call.scope with
  | device d' =>
      rw [scope] at h
      unfold sessionFor at found
      rw [scope] at found
      exact (deviceSession_eq_ok_iff.mp found).1 ▸ h
  | owner object =>
      rw [scope] at h
      exact h d ((session_of_call found).2 object scope)

/-! ## What shrinks -/

theorem Free.shrinks (h : Free device l d new) (s : Shrinks l k) : Free device k d new :=
  fun g hg => ⟨fun owner ho => (h g hg).1 owner (s.owned g owner ho), fun d' after hs ht => by
    obtain ⟨before, hs, ht⟩ := s.tracked d' after hs g ht
    exact (h g hg).2 d' before hs ht⟩

theorem Addresses.shrinks (h : l.Addresses q) (s : Shrinks l k) : k.Addresses q := by
  unfold Addresses at h ⊢
  cases scope : q.call.scope with
  | device d =>
      rw [scope] at h
      exact h
  | owner object =>
      rw [scope] at h
      exact fun owner ho => h owner (s.owned object owner ho)

/-! ## Separate sides -/

/-- What one side tracks the other does not own. -/
def Separate (device : Handle) (l : Layer) : Prop :=
  ∀ (d : Handle) (session : Session), l.sessions[d]? = some session →
    ∀ g, session.trackers.Tracks g → ∀ owner ∈ l.owners[g]?, SameSide device owner d

theorem separate_start (config : Config) : Separate device (start config) := fun d session hs => by
  simp [start] at hs

theorem Separate.shrinks (h : l.Separate device) (s : Shrinks l k) : k.Separate device :=
  fun d after hs g ht owner ho => by
    obtain ⟨before, hs, ht⟩ := s.tracked d after hs g ht
    exact h d before hs g ht owner (s.owned g owner ho)

/-- A session is put in its place; what it gains by that nobody on the other side has. -/
theorem Separate.put (h : l.Separate device) {before after : Session}
    (hs : l.sessions[d]? = some before)
    (view : ∀ g : Handle, k.sessions[g]? = if g = d then some after else l.sessions[g]?)
    (owned : ∀ g owner : Handle, k.owners[g]? = some owner →
      l.owners[g]? = some owner ∨ owner = d ∧ g ∈ new)
    (tracked : ∀ g, after.trackers.Tracks g → before.trackers.Tracks g ∨ g ∈ new)
    (free : Free device l d new) : k.Separate device := by
  intro d' session hs' g ht owner ho
  -- Owner and tracker are each an old one or `d`, and what is new is free on both counts.
  have tracker : (∃ old, l.sessions[d']? = some old ∧ old.trackers.Tracks g) ∨
      d' = d ∧ g ∈ new := by
    rw [view] at hs'
    split at hs'
    next here =>
      cases hs'
      rw [here]
      exact (tracked g ht).imp (fun old => ⟨before, hs, old⟩) fun made => ⟨rfl, made⟩
    next => exact .inl ⟨session, hs', ht⟩
  rcases owned g owner ho, tracker with ⟨old | ⟨rfl, made⟩, ⟨s, hs', ht⟩ | ⟨rfl, made'⟩⟩
  · exact h d' s hs' g ht owner old
  · exact (free g made').1 owner old
  · exact ((free g made).2 d' s hs' ht).symm
  · exact Iff.rfl

theorem Separate.afterCreate (h : l.Separate device) (d : Handle) :
    (l.afterCreate d).Separate device := by
  unfold Layer.afterCreate
  split
  · intro d' session hs g ht owner ho
    rw [getElem?_put] at hs
    split at hs
    · cases hs
      exact absurd ht Trackers.not_tracks_empty
    · exact h d' session hs g ht owner ho
  · exact h

/-- What the driver has created nobody on the other side has. -/
theorem Separate.afterRecord (h : l.Separate device) (addresses : l.Addresses q)
    (free : Free device l q.device q.call.creates) : (l.afterRecord q.call).Separate device := by
  rcases l.afterRecord_cases q.call with same | ⟨d, session, found, -, ran⟩
  · rw [same]
    exact h
  · obtain ⟨hs, -⟩ := session_of_call found
    obtain rfl := addresses.about found
    have entry := (Trackers.recordCreation_entry session.trackers q.device q.call).state
    have creates := Trackers.recordCreation_creates session.trackers q.device q.call
    rw [ran]
    have entered : (l.ran (gainedBy l.owners q.device ((Trackers.recordCreation q.device q.call).on
        session.trackers).value) q.device session ((Trackers.recordCreation q.device q.call).on
          session.trackers)).Separate device := by
      refine h.put hs (l.getElem?_ran _ _ session _) (fun g owner ho => ?_)
        (fun g ht => entry.tracked ht) free
      rw [owners_ran] at ho
      rcases getElem?_gainedBy ho with old | ⟨rfl, gained, hx, hg⟩
      · exact .inl old
      · exact .inr ⟨rfl, creates.good_of_ok hx g hg⟩
    exact entered.shrinks ((shrinks_pending _ _).trans (shrinks_drained _))

/-- The layer after a request; the driver succeeds, unless the call is skipped. -/
def served (l : Layer) (q : Request) : Layer := l.run (l.hooks (.call q.call .success))

theorem served_eq (l : Layer) (q : Request) : l.served q =
    if l.skips q.call then l.step (.pre q.call)
    else (l.step (.pre q.call)).step (.post q.call .success) := by
  unfold served hooks
  show l.run (if l.skips q.call then _ else _) = _
  split <;> rfl

/-- Requests that are apart keep the sides separate. -/
theorem Separate.served (h : l.Separate device)
    (chained : l.Holds fun _ _ t => t.resources.Chained) (apart : Apart device l q) :
    (l.served q).Separate device := by
  have shrinks := shrinks_before chained q.call
  have before := h.shrinks shrinks
  have recorded :=
    before.afterRecord (apart.addresses.shrinks shrinks) (apart.creates.shrinks shrinks)
  rw [served_eq]
  split
  · exact before
  · rw [step_eq (l.step (.pre q.call))]
    show ((l.step (.pre q.call)).afterAnswer q.call .success).Separate device
    unfold afterAnswer
    split
    · exact before.afterCreate _
    · exact before
    · exact recorded
    · exact before

end Layer

end GpuAudit
