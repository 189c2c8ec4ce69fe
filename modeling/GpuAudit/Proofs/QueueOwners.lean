import GpuAudit.Proofs.Consistency
import GpuAudit.Proofs.Sparing
import GpuAudit.Proofs.Tracking

/-!
# Devices own the queues that they track

A completion finds its session by the owner of the queue.  As long as no device gets a queue
that another one has, every queue that a session tracks is owned by its device: only the
device itself can give the queue another owner, and it never gives a queue up.
-/

namespace GpuAudit

namespace Trackers

variable {t : Trackers}

/-- What a device gains is tracked then. -/
theorem recordCreation_tracks (t : Trackers) (device : Handle) (call : Call) :
    (recordCreation device call).Ends t (fun gained u => ∀ g ∈ gained, u.Tracks g)
      fun _ _ => True := by
  have nothing : ∀ {α : Type} (x : Track Trackers α), (recordCreation.nothing x).Ends t
      (fun gained u => ∀ g ∈ gained, u.Tracks g) fun _ _ => True := fun x => by
    unfold recordCreation.nothing
    rw [Track.ends_bind]
    exact Track.ends_iff.mpr ⟨fun _ _ _ hg => (nomatch hg), fun _ _ => trivial⟩
  cases call with
  | getDeviceQueue d queue =>
      exact (addQueue_gains t d queue).mono (fun _ _ h g hg => (h.tracks g).mpr (.inr hg))
        fun _ _ _ => trivial
  | allocateMemory d memory info =>
      exact (allocate_gains t device d memory info).mono
        (fun _ _ h g hg => (h.tracks g).mpr (.inr hg)) fun _ _ _ => trivial
  | allocateCommandBuffers _ pool cbs =>
      show (onCommands (CommandTracker.allocate pool cbs) >>= fun _ => pure cbs).Ends t _ _
      rw [Track.ends_bind]
      refine (allocateBuffers_ends [] t pool cbs).mono (fun _ u hu c hc => ?_) fun _ _ _ => trivial
      obtain ⟨b, -, hb, -⟩ := hu.2 c hc
      exact tracks_of_find hb
  | waitForFences _ fences waitAll =>
      show (if waitAll = true ∨ fences.length = 1 then _ else _ : Track _ _).Ends t _ _
      split
      · exact nothing _
      · exact fun _ hg => (nomatch hg)
  | createBuffer | createImage | createSwapchain | createCommandPool | createFence
  | createSemaphore | getFenceStatus | queueWaitIdle => exact nothing _
  | _ => exact fun _ hg => (nomatch hg)

section Queues

variable (device : Handle) {call : Call} {queue : Handle} (hk : queue.kind = .queue)
include hk

/-- A call that is not for a queue leaves the same queues tracked. -/
theorem tracks_recordCreation (other : ∀ d g, call ≠ .getDeviceQueue d g) :
    ((recordCreation device call).on t).state.Tracks queue ↔ t.Tracks queue := by
  rw [tracks_queue hk, tracks_queue hk, ((recordCreation_spares device other).state t).queues]

/-- A queue that a device gains is the one that the call is for, or was tracked before. -/
theorem gains_queue {gained : List Handle}
    (hx : ((recordCreation device call).on t).value = .ok gained) (new : queue ∈ gained) :
    (∃ d, call = .getDeviceQueue d queue) ∨ t.Tracks queue := by
  by_cases gets : ∃ d g, call = .getDeviceQueue d g
  · obtain ⟨d, g, rfl⟩ := gets
    have created := (recordCreation_creates t device (.getDeviceQueue d g)).good_of_ok hx queue new
    exact .inl ⟨d, by rw [List.mem_singleton.mp created]⟩
  · have tracked := (recordCreation_tracks t device call).good_of_ok hx queue new
    exact .inr ((tracks_recordCreation device hk fun d g he => gets ⟨d, g, he⟩).mp tracked)

/-- A queue that is tracked after a call was tracked before, or is gained. -/
theorem tracked_or_gained (tracked : ((recordCreation device call).on t).state.Tracks queue) :
    t.Tracks queue ∨ ∃ gained, ((recordCreation device call).on t).value = .ok gained ∧
      queue ∈ gained := by
  by_cases gets : ∃ d g, call = .getDeviceQueue d g
  · obtain ⟨d, g, rfl⟩ := gets
    have gains : (recordCreation device (.getDeviceQueue d g)).Ends t
        (Gains (.getDeviceQueue d g) t) fun _ => SameTracks t := addQueue_gains t d g
    cases hx : ((recordCreation device (.getDeviceQueue d g)).on t).value with
    | ok gained =>
        exact (((gains.good_of_ok hx).tracks queue).mp tracked).imp_right
          fun new => ⟨gained, rfl, new⟩
    | error v => exact .inl ((gains.bad_of_error hx queue).mp tracked)
  · exact .inl ((tracks_recordCreation device hk fun d g he => gets ⟨d, g, he⟩).mp tracked)

end Queues

end Trackers

namespace Layer

variable {l k : Layer} {device : Handle} {session : Session} {call : Call}

/-- Every queue that a session tracks is owned by its device. -/
def OwnsQueues (l : Layer) : Prop :=
  ∀ (d : Handle) (session : Session), l.sessions[d]? = some session →
    ∀ g : Handle, g.kind = .queue → session.trackers.Tracks g → l.owners[g]? = some d

/-- No device gets a queue that another one has. -/
def KeepsQueuesApart (l : Layer) : Hook → Prop
  | .post (.getDeviceQueue d queue) .success => ∀ (other : Handle) (session : Session),
      l.sessions[other]? = some session → session.trackers.Tracks queue → other = d
  | _ => True

instance (l : Layer) (hook : Hook) : Decidable (l.KeepsQueuesApart hook) := by
  unfold KeepsQueuesApart
  split
  · exact l.decidableSessions fun other session => session.trackers.Tracks _ → other = _
  · exact isTrue trivial

theorem ownsQueues_start (config : Config) : (start config).OwnsQueues := by
  intro d session hs
  simp [start] at hs

/-- Devices other than one keep the queues that they have. -/
def LeavesQueues (l : Layer) (device : Handle) (owners : Owners) : Prop :=
  ∀ (d : Handle) (session : Session), d ≠ device → l.sessions[d]? = some session →
    ∀ g : Handle, g.kind = .queue → session.trackers.Tracks g → l.owners[g]? = some d →
      owners[g]? = some d

/-- A session is put in its place, and the other devices keep their queues. -/
theorem OwnsQueues.put (h : l.OwnsQueues) {after : Session}
    (view : ∀ g : Handle, k.sessions[g]? = if g = device then some after else l.sessions[g]?)
    (other : l.LeavesQueues device k.owners)
    (own : ∀ g : Handle, g.kind = .queue → after.trackers.Tracks g → k.owners[g]? = some device) :
    k.OwnsQueues := by
  intro d session hs g hk tracked
  rw [view] at hs
  split at hs
  next here =>
    cases hs
    exact here ▸ own g hk tracked
  next away => exact other d session away hs g hk tracked (h d session hs g hk tracked)

theorem OwnsQueues.ran {α : Type} {owners : Owners} (h : l.OwnsQueues)
    {o : Outcome Trackers (Except Violation α)} (other : l.LeavesQueues device owners)
    (own : ∀ g : Handle, g.kind = .queue → o.state.Tracks g → owners[g]? = some device) :
    (l.ran owners device session o).OwnsQueues := by
  refine h.put (l.getElem?_ran owners device session o) ?_ ?_
  · rw [owners_ran]
    exact other
  · rw [owners_ran]
    exact own

theorem OwnsQueues.afterRetirement (h : l.OwnsQueues) (r : Retirement) :
    (l.afterRetirement r).OwnsQueues := by
  rcases l.afterRetirement_cases r with same | ⟨device, session, found, -, ran⟩
  · rw [same]
    exact h
  · rw [ran]
    refine h.ran (fun _ _ _ _ _ _ _ hg => hg) fun g hk tracked => ?_
    refine h device session (owningSession_eq_ok_iff.mp found).2 g hk ?_
    exact ((Trackers.keeps_retired session.trackers r).tracks id).mp tracked

theorem OwnsQueues.afterRetirements (h : l.OwnsQueues) (rs : List Retirement) :
    (rs.foldl Layer.afterRetirement l).OwnsQueues := by
  induction rs generalizing l with
  | nil => exact h
  | cons r rs ih => exact ih (h.afterRetirement r)

theorem OwnsQueues.pending (h : l.OwnsQueues) (pending : List Retirement) :
    ({ l with pending } : Layer).OwnsQueues := h

theorem OwnsQueues.drained (h : l.OwnsQueues) : l.drained.OwnsQueues :=
  (h.pending []).afterRetirements l.pending

theorem OwnsQueues.afterDestroy (h : l.OwnsQueues) (device : Handle) :
    (l.afterDestroy device).OwnsQueues := by
  unfold Layer.afterDestroy
  split
  · exact h
  · intro d session hs g hk tracked
    have hs : (l.sessions.erase device)[d]? = some session := hs
    rw [Handle.getElem?_erase] at hs
    split at hs
    · cases hs
    next away =>
      show (l.owners.filter fun _ owner => owner ≠ device)[g]? = some d
      rw [Std.ExtTreeMap.getElem?_filter', Option.filter_eq_some_iff]
      exact ⟨h d session hs g hk tracked, by simpa using away⟩

theorem OwnsQueues.afterCreate (h : l.OwnsQueues) (device : Handle) :
    (l.afterCreate device).OwnsQueues := by
  unfold Layer.afterCreate
  split
  · exact h.put (fun g => getElem?_put .empty g) (fun _ _ _ _ _ _ _ hg => hg) fun g _ tracked =>
      absurd tracked Trackers.not_tracks_empty
  · exact h

/-- A device gives up only what it has. -/
theorem OwnsQueues.afterValidation (h : l.OwnsQueues)
    (sound : ∀ (d : Handle) (session : Session), l.sessions[d]? = some session →
      session.trackers.Sound) (call : Call) : (l.afterValidation call).OwnsQueues := by
  rcases l.afterValidation_cases call with same | ⟨device, session, found, -, ran⟩
  · rw [same]
    exact h
  · obtain ⟨hs, -⟩ := session_of_call found
    have ends := Trackers.validate_givesUp (sound device session hs) l.owners device call
    have releases := Trackers.validate_releases session.trackers l.owners device call
    rw [ran]
    refine h.ran (fun d _ away _ g hk _ hg => getElem?_givenUp.mpr ⟨hg, fun released hx gone => ?_⟩)
      fun g hk tracked => getElem?_givenUp.mpr ?_
    · have owner := h device session hs g hk (releases.good_of_ok hx g gone).1
      exact away (Option.some.inj (hg.symm.trans owner))
    · cases hx : ((Trackers.validate l.owners device call).on session.trackers).value with
      | error v =>
          rw [ends.bad_of_error hx g] at tracked
          exact ⟨h device session hs g hk tracked, fun _ he => nomatch he⟩
      | ok released =>
          obtain ⟨old, kept⟩ := ((ends.good_of_ok hx).tracks g).mp tracked
          exact ⟨h device session hs g hk old, fun _ he => Except.ok.inj he ▸ kept⟩

/-- A device gains a queue that no other one has, or no queue. -/
theorem OwnsQueues.afterRecord (h : l.OwnsQueues) {call : Call}
    (apart : l.KeepsQueuesApart (.post call .success)) : (l.afterRecord call).OwnsQueues := by
  rcases l.afterRecord_cases call with same | ⟨device, session, found, -, ran⟩
  · rw [same]
    exact h
  · obtain ⟨hs, -⟩ := session_of_call found
    rw [ran]
    refine ((h.ran (fun d other away hd g hk tracked hg => ?_)
      fun g hk tracked => ?_).pending _).drained
    · refine getElem?_gainedBy_iff.mpr (.inr ⟨hg, fun gained hx new => ?_⟩)
      rcases Trackers.gains_queue device hk hx new with ⟨d', rfl⟩ | here
      · obtain ⟨rfl, -⟩ := deviceSession_eq_ok_iff.mp found
        exact away (apart d other hd tracked)
      · exact away (Option.some.inj (hg.symm.trans (h device session hs g hk here)))
    · rcases Trackers.tracked_or_gained device hk tracked with old | ⟨gained, hx, new⟩
      · have owner := h device session hs g hk old
        rw [getElem?_gainedBy_iff]
        by_cases again : ∃ gained,
            ((Trackers.recordCreation device call).on session.trackers).value = .ok gained ∧
              g ∈ gained
        · exact .inl ⟨rfl, again⟩
        · exact .inr ⟨owner, fun gained hx new => again ⟨gained, hx, new⟩⟩
      · exact getElem?_gainedBy_iff.mpr (.inl ⟨rfl, gained, hx, new⟩)

/-! ## Runs -/

/-- Every hook keeps the queues owned that gives no device the queue of another one. -/
theorem OwnsQueues.step (h : l.OwnsQueues) (books : l.Holds Trackers.Books) (hook : Hook)
    (apart : l.KeepsQueuesApart hook) : (l.step hook).OwnsQueues := by
  have sound : ∀ (d : Handle) (session : Session), l.drained.sessions[d]? = some session →
      session.trackers.Sound := fun d session hs =>
    ((books.drained books_invariant.toRetirementInvariant).books d session hs).sound
  rw [step_eq]
  cases hook with
  | pre call =>
      cases call with
      | createDevice device => exact h.drained
      | destroyDevice device => exact h.drained.afterDestroy device
      | _ => exact h.drained.afterValidation sound _
  | post call result =>
      show (l.afterAnswer call result).OwnsQueues
      unfold afterAnswer
      split
      · exact h.afterCreate _
      · exact h
      · exact h.afterRecord apart
      · exact h
  | report completion => exact h.pending _
  | process => exact h.drained
  | retire r => exact h.afterRetirement r
  | fenceStatus device fence => exact h.drained

theorem ownsQueues_of_reached {allowed : Layer → Hook → Prop} {config : Config}
    (tame : ∀ k hook, allowed k hook → Tame k hook)
    (apart : ∀ k hook, allowed k hook → k.KeepsQueuesApart hook)
    (h : Reached allowed config l) : l.OwnsQueues := by
  induction h with
  | start => exact ownsQueues_start config
  | step before hook ok ih =>
      exact ih.step (books_of_reached (before.mono tame)) hook (apart _ hook ok)

/-- A queue that a session tracks leads to it. -/
theorem OwnsQueues.owner (h : l.OwnsQueues) (hs : l.sessions[device]? = some session)
    {queue : Handle} {q : Queue} (hq : session.trackers.queues.queues.find? queue = some q) :
    l.owners[queue]? = some device := by
  have hk := Registry.kind_of_find hq
  refine h device session hs queue hk ((Trackers.tracks_queue hk).mpr ?_)
  rw [hq]
  rfl

end Layer

end GpuAudit
