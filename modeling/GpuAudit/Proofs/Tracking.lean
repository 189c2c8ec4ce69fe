import GpuAudit.Proofs.Effects

/-!
# What a device tracks

A device tracks the queues, allocations and command buffers in its books.  Of these the
layer keeps the owners beside the books, and changes them by what an operation answers.

The answers are exact.  What a call gives up was tracked and is no longer, and all else
stays as it was (`validate_givesUp`).  What the driver has created is tracked from then on
(`recordCreation_gains`), and nothing else is, if command buffers are checked before they
are allocated: an allocation that stops half way leaves some of them in the books.
-/

namespace GpuAudit

namespace Trackers

variable {t u v : Trackers} {call : Call} {h : Handle} {new gone : Handle → Prop}

/-- A handle names a queue, an allocation or a command buffer of the device. -/
def Tracks (t : Trackers) (h : Handle) : Prop :=
  t.queues.queues.contains h = true ∨ t.memory.contains h = true ∨ t.commands.contains h = true

instance (t : Trackers) (h : Handle) : Decidable (t.Tracks h) :=
  inferInstanceAs (Decidable (_ ∨ _))

/-- The same handles name queues, allocations and command buffers. -/
def SameTracks (t u : Trackers) : Prop := ∀ h, u.Tracks h ↔ t.Tracks h

theorem sameTracks_refl (t : Trackers) : SameTracks t t := fun _ => Iff.rfl

theorem tracks_iff : t.Tracks h ↔ (t.queues.queues.find? h).isSome ∨
    (t.memory.objects.find? h).isSome ∨ (t.commands.buffers.find? h).isSome := by
  unfold Tracks MemoryTracker.contains CommandTracker.contains
  simp only [Registry.contains_eq_isSome]

/-- What a handle names decides whether it is tracked. -/
theorem tracks_congr (queue : u.queues.queues.find? h = t.queues.queues.find? h)
    (memory : u.memory.objects.find? h = t.memory.objects.find? h)
    (buffer : u.commands.buffers.find? h = t.commands.buffers.find? h) :
    u.Tracks h ↔ t.Tracks h := by
  rw [tracks_iff, tracks_iff, queue, memory, buffer]

theorem not_tracks_empty : ¬empty.Tracks h := by
  simp [tracks_iff, empty, QueueTracker.empty, MemoryTracker.empty, CommandTracker.empty]

theorem tracks_queue (hk : h.kind = .queue) :
    t.Tracks h ↔ (t.queues.queues.find? h).isSome := by
  have allocation : t.memory.objects.find? h = none := Registry.find?_eq_none_of_kind (by simp [hk])
  have buffer : t.commands.buffers.find? h = none := Registry.find?_eq_none_of_kind (by simp [hk])
  simp [tracks_iff, allocation, buffer]

theorem tracks_memory (hk : h.kind = .deviceMemory) :
    t.Tracks h ↔ (t.memory.objects.find? h).isSome := by
  have queue : t.queues.queues.find? h = none := Registry.find?_eq_none_of_kind (by simp [hk])
  have buffer : t.commands.buffers.find? h = none := Registry.find?_eq_none_of_kind (by simp [hk])
  simp [tracks_iff, queue, buffer]

theorem tracks_commandBuffer (hk : h.kind = .commandBuffer) :
    t.Tracks h ↔ (t.commands.buffers.find? h).isSome := by
  have queue : t.queues.queues.find? h = none := Registry.find?_eq_none_of_kind (by simp [hk])
  have allocation : t.memory.objects.find? h = none := Registry.find?_eq_none_of_kind (by simp [hk])
  simp [tracks_iff, queue, allocation]

/-! ## Effects -/

/-- What is kept is tracked, unless it may be struck out. -/
theorem Keeps.tracks (keeps : Keeps gone t u) (kept : ¬gone h) : u.Tracks h ↔ t.Tracks h := by
  rw [tracks_iff, tracks_iff, keeps.queues, keeps.memory.isSome]
  have buffers : (u.commands.buffers.find? h).isSome ↔ (t.commands.buffers.find? h).isSome :=
    ⟨keeps.commands.fewer h, keeps.commands.stays h kept⟩
  rw [buffers]

/-- Only command buffers are struck out. -/
theorem Keeps.tracks_of_kind (keeps : Keeps gone t u) (hk : h.kind ≠ .commandBuffer) :
    u.Tracks h ↔ t.Tracks h := by
  have none : ∀ v : Trackers, v.commands.buffers.find? h = none := fun v =>
    Registry.find?_eq_none_of_kind hk
  rw [tracks_iff, tracks_iff, keeps.queues, keeps.memory.isSome, none, none]

theorem Keeps.tracked (keeps : Keeps gone t u) (tracked : u.Tracks h) : t.Tracks h := by
  rw [tracks_iff] at tracked ⊢
  rw [keeps.queues, keeps.memory.isSome] at tracked
  exact tracked.imp_right (.imp_right (keeps.commands.fewer h))

/-- What is not tracked is not tracked after a call has been validated. -/
theorem Effect.tracked (effect : Effect call t u) (tracked : u.Tracks h) : t.Tracks h := by
  cases effect with
  | kept keeps => exact keeps.tracked tracked
  | rebound rebinds =>
      rw [tracks_iff] at tracked ⊢
      rwa [rebinds.queues, rebinds.memory.isSome, rebinds.commands] at tracked
  | unchained => exact tracked
  | freed frees old unlinked view =>
      rw [tracks_iff] at tracked ⊢
      refine tracked.imp_right (.imp_left fun live => ?_)
      rw [view] at live
      split at live
      · cases live
      · exact live

/-- What is tracked stays tracked, unless the call frees it, or discards it as a command
buffer. -/
theorem Effect.tracks (effect : Effect call t u) (frees : ¬call.Frees h)
    (discards : h.kind = .commandBuffer → ¬call.Discards h) : u.Tracks h ↔ t.Tracks h := by
  refine ⟨effect.tracked, fun tracked => ?_⟩
  cases effect with
  | kept keeps =>
      by_cases hk : h.kind = .commandBuffer
      · exact (keeps.tracks (discards hk)).mpr tracked
      · exact (keeps.tracks_of_kind hk).mpr tracked
  | rebound rebinds =>
      rw [tracks_iff] at tracked ⊢
      rwa [rebinds.queues, rebinds.memory.isSome, rebinds.commands]
  | unchained => exact tracked
  | freed freed old unlinked view =>
      rw [tracks_iff] at tracked ⊢
      refine tracked.imp_right (.imp_left fun live => ?_)
      rw [view, if_neg]
      · exact live
      · rintro rfl
        exact frees freed

/-! ## What a call gives up -/

/-- What is given up was tracked and is no longer; nothing else changes. -/
structure GivesUp (t : Trackers) (released : List Handle) (u : Trackers) : Prop where
  /-- What is given up was tracked. -/
  old : ∀ g ∈ released, t.Tracks g
  /-- All else stays. -/
  tracks : ∀ g, u.Tracks g ↔ t.Tracks g ∧ g ∉ released

theorem givesUp_nil (same : SameTracks t u) : GivesUp t [] u :=
  ⟨fun _ h => (nomatch h), fun g => by rw [same g]; simp⟩

/-- A call that neither frees nor discards gives up nothing. -/
theorem nothing_givesUp {α : Type} {x : Track Trackers α}
    (effect : (validate.nothing x).Ends t (fun _ => Effect call t) fun _ => Effect call t)
    (idle : ∀ h, ¬call.Frees h ∧ ¬call.Discards h) :
    (validate.nothing x).Ends t (GivesUp t) fun _ => SameTracks t := by
  rw [ends_nothing] at effect ⊢
  have same : ∀ u, Effect call t u → SameTracks t u := fun _ e h =>
    e.tracks (idle h).1 fun _ => (idle h).2
  exact effect.mono (fun _ u e => givesUp_nil (same u e)) fun _ => same

/-- The allocation that is freed is given up. -/
theorem free_givesUp (t : Trackers) (memory : Handle) :
    (do discard (onMemory (MemoryTracker.free memory)); return [memory]).Ends t (GivesUp t)
      fun _ => SameTracks t := by
  rw [Track.ends_bind, Track.ends_discard, onMemory, Track.ends_within]
  refine (t.memory.free_strikes memory).mono (fun m a ha => ?_) fun _ _ ha => ?_
  · obtain ⟨old, -, view⟩ := ha
    have kind := Registry.kind_of_find old
    show GivesUp t [memory] { t with memory := a }
    refine ⟨fun g hg => ?_, fun g => ?_⟩
    · rw [List.mem_singleton.mp hg, tracks_memory kind, old]
      rfl
    · rw [List.mem_singleton]
      by_cases here : g = memory
      · rw [here, tracks_memory kind, view, if_pos rfl]
        simp
      · refine Iff.trans (tracks_congr (t := t) rfl ((view g).trans (if_neg here)) rfl) ?_
        simp [here]
  · rw [ha.1]
    exact sameTracks_refl t

/-- Command buffers that are struck out are given up. -/
theorem givesUp_of_struck {cbs : List Handle} (keeps : Keeps gone t u)
    (live : ∀ c ∈ cbs, ∃ b, t.commands.buffers.find? c = some b)
    (view : ∀ g, u.commands.buffers.find? g =
      if g ∈ cbs then none else t.commands.buffers.find? g) : GivesUp t cbs u := by
  refine ⟨fun c hc => ?_, fun g => ?_⟩
  · obtain ⟨b, hb⟩ := live c hc
    rw [tracks_commandBuffer (Registry.kind_of_find hb), hb]
    rfl
  · by_cases here : g ∈ cbs
    · obtain ⟨b, hb⟩ := live g here
      rw [tracks_commandBuffer (Registry.kind_of_find hb), view, if_pos here]
      simp [here]
    · rw [tracks_iff, view, if_neg here, keeps.queues, keeps.memory.isSome, ← tracks_iff]
      simp [here]

theorem sameTracks_of_refused {w : Violation} (refused : Track.Refused t w u) : SameTracks t u := by
  rw [refused.2]
  exact sameTracks_refl t

/-- A call gives up exactly what it answers. -/
theorem validate_givesUp (sound : t.Sound) (owners : Owners) (device : Handle) (call : Call) :
    (validate owners device call).Ends t (GivesUp t) fun _ => SameTracks t := by
  have effect := validate_effect sound.chained owners device call
  cases call with
  | createDevice | destroyDevice | deviceWaitIdle => exact givesUp_nil (sameTracks_refl t)
  | freeMemory _ memory => exact free_givesUp t memory
  | destroyCommandPool _ pool =>
      have keeps := destroyPool_keeps pool (fun _ : Handle => trivial) t
      exact ((destroyPool_ends sound pool).and keeps).mono
        (fun _ _ hu => givesUp_of_struck hu.2 (fun c hc => (hu.1.2.2.1 c hc).1) hu.1.2.2.2)
        fun _ _ hv => sameTracks_of_refused hv.1
  | freeCommandBuffers _ pool cbs =>
      have keeps := freeCommandBuffers_keeps pool (fun (c : Handle) (_ : c ∈ cbs) => trivial) t
      show (freeCommandBuffers pool cbs >>= fun _ => pure cbs).Ends t _ _
      rw [Track.ends_bind]
      exact ((freeCommandBuffers_ends sound pool cbs).and keeps).mono
        (fun _ _ hu => givesUp_of_struck hu.2 (fun c hc => (hu.1.1 c hc).1) hu.1.2.2)
        fun _ _ hv => sameTracks_of_refused hv.1
  | _ => exact nothing_givesUp effect fun _ => ⟨id, id⟩

/-- A command buffer that is destroyed was live and is no longer. -/
theorem destroyCommandBuffer_gone (t : Trackers) (c : Handle) : (destroyCommandBuffer c).Ends t
    (fun _ u => (t.commands.buffers.find? c).isSome ∧ u.commands.buffers.find? c = none)
    fun _ _ => True := by
  unfold destroyCommandBuffer
  rw [Track.ends_bind, Track.ends_discard, Track.ends_query, Track.ends_ofExcept]
  refine ⟨fun b hb => ?_, fun _ _ => trivial⟩
  rw [Track.ends_bind, Track.ends_query, Track.ends_ofExcept]
  refine ⟨fun _ _ => ?_, fun _ _ => trivial⟩
  rw [Track.ends_bind, Track.ends_get, Track.ends_bind, Track.ends_ofExcept]
  refine ⟨fun (record, buffers) struck => ?_, fun _ _ => trivial⟩
  rw [Track.ends_bind, Track.ends_set]
  -- It is struck out first, and does not come back when its links are released.
  have delists (t : Trackers) : Keeps (fun _ => True) t { t with commands := { t.commands with
      pools := t.commands.pools.modify record.pool fun p =>
        { p with buffers := p.buffers.erase c } } } :=
    keeps_commands (CommandTracker.thins_delist record.pool fun _ _ hc =>
      (Handle.mem_erase.mp hc).2)
  have rest := (releaseLinks_keeps c record.memoryRefs.toList).bind fun _ =>
    Track.Confined.bind (Track.confined_modify delists) fun _ =>
    Track.confined_debug s!"destroyed {c}"
  refine (rest _).mono (fun _ u keeps => ⟨?_, ?_⟩) fun _ _ _ => trivial
  · rw [CommandTracker.lookup_eq_ok_iff.mp hb]
    rfl
  · refine Option.not_isSome_iff_eq_none.mp fun back => ?_
    have struck := (Registry.find?_unregister struck c).trans (if_pos rfl)
    have back := keeps.commands.fewer c back
    rw [struck] at back
    cases back

/-- Command buffers that are destroyed one after another were live and are no longer. -/
theorem destroyAll_gone (t : Trackers) (cbs : List Handle) :
    (cbs.forM destroyCommandBuffer).Ends t
      (fun _ u => ∀ c ∈ cbs, (t.commands.buffers.find? c).isSome ∧
        u.commands.buffers.find? c = none) fun _ _ => True := by
  refine (Track.Ends.forM (fun front u => Keeps (fun _ => True) t u ∧
      ∀ c ∈ front, (t.commands.buffers.find? c).isSome ∧ u.commands.buffers.find? c = none)
    ⟨keeps_refl t, by simp⟩ fun front c _ u _ hu => ?_).mono (fun _ _ hu => hu.2) fun _ _ h => h
  have keeps : (destroyCommandBuffer c).Confined (Keeps fun _ => True) :=
    destroyCommandBuffer_keeps trivial
  refine ((keeps u).and (destroyCommandBuffer_gone u c)).mono (fun _ v hv => ?_)
    fun _ _ _ => trivial
  obtain ⟨keeps, live, none⟩ := hv
  refine ⟨trans_of (Keeps fun _ => True) hu.1 keeps, fun k hk => ?_⟩
  rcases List.mem_append.mp hk with hk | hk
  · refine ⟨(hu.2 k hk).1, Option.not_isSome_iff_eq_none.mp fun back => ?_⟩
    have back := keeps.commands.fewer k back
    rw [(hu.2 k hk).2] at back
    cases back
  · exact List.mem_singleton.mp hk ▸ ⟨hu.1.commands.fewer c live, none⟩

theorem asks_retiredBuffers (pool : Handle) : (retiredBuffers pool).Asks :=
  (Track.asks_query fun t => t.commands.mild_owned pool).bind fun owned =>
    (Track.asks_query fun t => t.commands.mild_ensureRetired t.queues owned).bind fun _ =>
      Track.asks_pure _

theorem freeCommandBuffers_gone (t : Trackers) (pool : Handle) (cbs : List Handle) :
    (freeCommandBuffers pool cbs).Ends t
      (fun _ u => ∀ c ∈ cbs, (t.commands.buffers.find? c).isSome ∧
        u.commands.buffers.find? c = none) fun _ _ => True := by
  unfold freeCommandBuffers
  refine (Track.asks_query fun t => t.commands.mild_pool pool).before (fun p _ => ?_)
    fun _ _ => trivial
  refine (Track.Asks.forM (fun c => ?_) cbs).before (fun _ _ => ?_) fun _ _ => trivial
  · split
    · exact Track.asks_throw rfl
    · exact Track.asks_pure _
  · refine (Track.asks_ofExcept (CommandTracker.mild_ensureDistinct cbs)).before (fun _ _ => ?_)
      fun _ _ => trivial
    refine (Track.asks_query fun t => t.commands.mild_ensureRetired t.queues cbs).before
      (fun _ _ => ?_) fun _ _ => trivial
    exact destroyAll_gone t cbs

theorem tracks_of_live {c : Handle} (live : (t.commands.buffers.find? c).isSome) : t.Tracks c :=
  tracks_iff.mpr (.inr (.inr live))

theorem tracks_of_find {c : Handle} {b : CommandBuffer}
    (hb : t.commands.buffers.find? c = some b) : t.Tracks c :=
  tracks_of_live (Option.isSome_of_eq_some hb)

theorem find_of_tracks {c : Handle} (hk : c.kind = .commandBuffer) (tracked : t.Tracks c) :
    ∃ b, t.commands.buffers.find? c = some b :=
  Option.isSome_iff_exists.mp ((tracks_commandBuffer hk).mp tracked)

/-- What a command buffer's handle names is gone with its record. -/
theorem left_of_gone {c : Handle} (live : (t.commands.buffers.find? c).isSome)
    (none : u.commands.buffers.find? c = none) : t.Tracks c ∧ ¬u.Tracks c := by
  obtain ⟨b, hb⟩ := Option.isSome_iff_exists.mp live
  refine ⟨tracks_of_live live, fun tracked => ?_⟩
  rw [tracks_commandBuffer (Registry.kind_of_find hb), none] at tracked
  cases tracked

/-- What a call gives up was tracked and is no longer, whatever the books are. -/
theorem validate_releases (t : Trackers) (owners : Owners) (device : Handle) (call : Call) :
    (validate owners device call).Ends t
      (fun released u => ∀ g ∈ released, t.Tracks g ∧ ¬u.Tracks g) fun _ _ => True := by
  have nothing : ∀ {α : Type} (x : Track Trackers α), (validate.nothing x).Ends t
      (fun released u => ∀ g ∈ released, t.Tracks g ∧ ¬u.Tracks g) fun _ _ => True := fun x =>
    ends_nothing.mpr (Track.ends_iff.mpr ⟨fun _ _ _ hg => (nomatch hg), fun _ _ => trivial⟩)
  cases call with
  | createDevice | destroyDevice | deviceWaitIdle => exact fun _ hg => (nomatch hg)
  | freeMemory _ memory =>
      exact (free_givesUp t memory).mono (fun _ _ h g hg => ⟨h.old g hg, fun tracked =>
        ((h.tracks g).mp tracked).2 hg⟩) fun _ _ _ => trivial
  | destroyCommandPool _ pool =>
      show (destroyPool pool).Ends t _ _
      unfold destroyPool
      refine (asks_retiredBuffers pool).before (fun owned _ => ?_) fun _ _ => trivial
      rw [Track.ends_bind]
      refine (destroyAll_gone t owned).mono (fun _ v gone => ?_) fun _ _ h => h
      rw [Track.ends_bind, Track.ends_update_bind]
      refine ⟨fun _ _ => ?_, fun _ _ => trivial⟩
      exact fun g hg => left_of_gone (gone g hg).1 (gone g hg).2
  | freeCommandBuffers _ pool cbs =>
      show (freeCommandBuffers pool cbs >>= fun _ => pure cbs).Ends t _ _
      rw [Track.ends_bind]
      refine (freeCommandBuffers_gone t pool cbs).mono (fun _ _ gone => ?_) fun _ _ h => h
      exact fun g hg => left_of_gone (gone g hg).1 (gone g hg).2
  | _ => exact nothing _

/-! ## What a call drops -/

/-- What is given up was tracked and is no longer, and nothing is gained.  The handles that are
`sure` are not lost either, unless they are given up. -/
structure Drops (sure : Handle → Prop) (t : Trackers) (released : List Handle) (u : Trackers) :
    Prop where
  /-- What is given up was tracked. -/
  old : ∀ g ∈ released, t.Tracks g
  /-- What is left was tracked, and is not given up. -/
  left : ∀ g, u.Tracks g → t.Tracks g ∧ g ∉ released
  /-- What is sure stays unless it is given up. -/
  stays : ∀ g, sure g → t.Tracks g → g ∉ released → u.Tracks g

/-- The handles that are sure to stay: all of them if the books agree, and in any case all but
the command buffers, which an operation that stops half way has struck out. -/
def Vouches (t : Trackers) (sure : Handle → Prop) : Prop :=
  t.Sound ∨ ∀ g, sure g → g.kind ≠ .commandBuffer

variable {sure : Handle → Prop}

theorem GivesUp.drops {released : List Handle} (h : GivesUp t released u) :
    Drops sure t released u :=
  ⟨h.old, fun g => (h.tracks g).mp, fun g _ tracked kept => (h.tracks g).mpr ⟨tracked, kept⟩⟩

theorem SameTracks.drops (h : SameTracks t u) : Drops sure t [] u := (givesUp_nil h).drops

/-- A call whose effect is known drops what it answers, unless it frees. -/
theorem Effect.drops {released : List Handle} (effect : Effect call t u)
    (spares : ∀ g, ¬call.Frees g) (buffers : ∀ g, sure g → g.kind ≠ .commandBuffer)
    (gone : ∀ g ∈ released, t.Tracks g ∧ ¬u.Tracks g) : Drops sure t released u :=
  ⟨fun g hg => (gone g hg).1, fun g hu => ⟨effect.tracked hu, fun hg => (gone g hg).2 hu⟩,
    fun g hs tracked _ => (effect.tracks (spares g) fun hk => absurd hk (buffers g hs)).mpr tracked⟩

/-- A call drops what it answers. -/
theorem validate_drops (chained : t.resources.Chained) (vouches : t.Vouches sure)
    (owners : Owners) (device : Handle) (call : Call) :
    (validate owners device call).Ends t (Drops sure t) fun _ => Drops sure t [] := by
  rcases vouches with sound | buffers
  · exact (validate_givesUp sound owners device call).mono (fun _ _ h => h.drops)
      fun _ _ h => h.drops
  · by_cases frees : ∃ g, call.Frees g
    · obtain ⟨g, frees⟩ := frees
      cases call with
      | freeMemory _ memory =>
          exact (free_givesUp t memory).mono (fun _ _ h => h.drops) fun _ _ h => h.drops
      | _ => exact frees.elim
    · have effect := validate_effect chained owners device call
      have releases := validate_releases t owners device call
      exact (effect.and releases).mono
        (fun _ _ h => h.1.drops (not_exists.mp frees) buffers h.2)
        fun _ _ h => h.1.drops (not_exists.mp frees) buffers fun _ hg => (nomatch hg)

/-! ## What a call gains -/

/-- What the call creates may be tracked, and nothing else is that was not. -/
theorem Entry.tracked (entry : Entry call t u) (tracked : u.Tracks h) :
    t.Tracks h ∨ h ∈ call.creates := by
  cases entry with
  | entered enters =>
      rw [tracks_iff] at tracked ⊢
      rcases tracked with queue | memory | buffer
      · rcases enters.queues h with same | ⟨-, new⟩
        · exact .inl (.inl (same ▸ queue))
        · exact .inr new
      · rcases enters.memory h with same | ⟨-, new⟩
        · exact .inl (.inr (.inl (same ▸ memory)))
        · exact .inr new
      · exact (enters.commands.fresh h buffer).imp_left fun old => .inr (.inr old)
  | resources adds => exact .inl tracked

theorem Entry.tracks (entry : Entry call t u) (tracked : t.Tracks h) : u.Tracks h := by
  cases entry with
  | entered enters =>
      rw [tracks_iff] at tracked ⊢
      refine tracked.imp (fun queue => ?_) (.imp (fun memory => ?_) (enters.commands.stays h))
      · rcases enters.queues h with same | ⟨none, -⟩
        · exact same ▸ queue
        · rw [none] at queue
          cases queue
      · rcases enters.memory h with same | ⟨none, -⟩
        · exact same ▸ memory
        · rw [none] at memory
          cases memory
  | resources adds => exact tracked

/-- What is gained is what the call creates, and it is tracked; nothing else changes. -/
structure Gains (call : Call) (t : Trackers) (gained : List Handle) (u : Trackers) : Prop where
  /-- The call creates it. -/
  created : ∀ g ∈ gained, g ∈ call.creates
  /-- All else stays. -/
  tracks : ∀ g, u.Tracks g ↔ t.Tracks g ∨ g ∈ gained

theorem gains_nil (same : SameTracks t u) : Gains call t [] u :=
  ⟨fun _ h => (nomatch h), fun g => by rw [same g]; simp⟩

/-- Command buffers that pass their check are all entered. -/
def Checked (t : Trackers) : Call → Prop
  | .allocateCommandBuffers _ pool cbs => validate.newCommandBuffers pool cbs t = .ok ()
  | _ => True

/-- The check of command buffers changes nothing. -/
theorem validate_allocation (t : Trackers) (owners : Owners) (device d pool : Handle)
    (cbs : List Handle) : (validate owners device (.allocateCommandBuffers d pool cbs)).Ends t
      (fun _ u => u = t ∧ validate.newCommandBuffers pool cbs t = .ok ())
      fun v _ => validate.newCommandBuffers pool cbs t = .error v :=
  ends_nothing.mpr (Track.ends_query.mpr (Track.ends_ofExcept.mpr
    ⟨fun _ passed => ⟨rfl, passed⟩, fun _ refused => refused⟩))

/-- A call that creates nothing that is tracked. -/
theorem nothing_gains {α : Type} {x : Track Trackers α}
    (entry : (recordCreation.nothing x).Ends t (fun _ => Entry call t) fun _ => Entry call t)
    (idle : call.creates = []) :
    (recordCreation.nothing x).Ends t (Gains call t) fun _ => SameTracks t := by
  have same : ∀ u, Entry call t u → SameTracks t u := fun u e h =>
    ⟨fun hu => (e.tracked hu).resolve_right (by simp [idle]), e.tracks⟩
  unfold recordCreation.nothing at entry ⊢
  rw [Track.ends_bind, Track.ends_discard] at entry ⊢
  exact entry.mono (fun _ u e => gains_nil (same u e)) fun _ => same

/-- A queue is gained when it is entered, and not when it is known already. -/
theorem addQueue_gains (t : Trackers) (device queue : Handle) :
    (do return if ← onQueues (QueueTracker.addQueue queue) then [queue] else []).Ends t
      (Gains (.getDeviceQueue device queue) t) fun _ => SameTracks t := by
  rw [Track.ends_bind, onQueues, Track.ends_within]
  refine (t.queues.addQueue_ends queue).mono (fun added q hq => ?_) fun _ q hq => ?_
  · rcases hq with ⟨rfl, rfl⟩ | ⟨rfl, kind, -, queues, rfl, view⟩
    · exact gains_nil (sameTracks_refl _)
    · show Gains _ t [queue] { t with queues := { t.queues with queues } }
      refine ⟨fun g hg => hg, fun g => ?_⟩
      rw [List.mem_singleton]
      by_cases here : g = queue
      · rw [here, tracks_queue kind, view, if_pos rfl]
        simp
      · refine Iff.trans (tracks_congr (t := t) ((view g).trans (if_neg here)) rfl rfl) ?_
        simp [here]
  · rw [hq.2]
    exact sameTracks_refl t

/-- An allocation is gained when it is entered. -/
theorem allocate_gains (t : Trackers) (device d memory : Handle) (info : AllocationInfo) :
    (do onMemory (MemoryTracker.allocate memory device info); return [memory]).Ends t
      (Gains (.allocateMemory d memory info) t) fun _ => SameTracks t := by
  rw [Track.ends_bind, onMemory, Track.ends_within]
  refine (t.memory.allocate_ends memory device info).mono (fun _ m hm => ?_) fun _ m hm => ?_
  · obtain ⟨kind, -, view⟩ := hm
    show Gains _ t [memory] { t with memory := m }
    refine ⟨fun g hg => hg, fun g => ?_⟩
    rw [List.mem_singleton]
    by_cases here : g = memory
    · rw [here, tracks_memory kind, view, if_pos rfl]
      simp
    · refine Iff.trans (tracks_congr (t := t) rfl ((view g).trans (if_neg here)) rfl) ?_
      simp [here]
  · rw [hm.2]
    exact sameTracks_refl t

/-- What a device gains the call creates, whatever the books are. -/
theorem recordCreation_creates (t : Trackers) (device : Handle) (call : Call) :
    (recordCreation device call).Ends t (fun gained _ => ∀ g ∈ gained, g ∈ call.creates)
      fun _ _ => True := by
  have nothing : ∀ {α : Type} (x : Track Trackers α), (recordCreation.nothing x).Ends t
      (fun gained _ => ∀ g ∈ gained, g ∈ call.creates) fun _ _ => True := fun x => by
    unfold recordCreation.nothing
    rw [Track.ends_bind]
    exact Track.ends_iff.mpr ⟨fun _ _ _ hg => (nomatch hg), fun _ _ => trivial⟩
  cases call with
  | getDeviceQueue d queue =>
      exact (addQueue_gains t d queue).mono (fun _ _ h => h.created) fun _ _ _ => trivial
  | allocateMemory d memory info =>
      exact (allocate_gains t device d memory info).mono (fun _ _ h => h.created)
        fun _ _ _ => trivial
  | allocateCommandBuffers _ pool cbs =>
      show (onCommands (CommandTracker.allocate pool cbs) >>= fun _ => pure cbs).Ends t _ _
      rw [Track.ends_bind]
      exact Track.ends_iff.mpr ⟨fun _ _ _ hg => hg, fun _ _ => trivial⟩
  | waitForFences _ fences waitAll =>
      show (if waitAll = true ∨ fences.length = 1 then _ else _ : Track _ _).Ends t _ _
      split
      · exact nothing _
      · exact fun _ hg => (nomatch hg)
  | createBuffer | createImage | createSwapchain | createCommandPool | createFence
  | createSemaphore | getFenceStatus | queueWaitIdle => exact nothing _
  | _ => exact fun _ hg => (nomatch hg)

/-- A device gains exactly what an operation answers that enters what the driver has
created. -/
theorem recordCreation_gains (t : Trackers) (device : Handle) {call : Call}
    (checked : t.Checked call) :
    (recordCreation device call).Ends t (Gains call t) fun _ => SameTracks t := by
  have entry := recordCreation_entry t device call
  cases call with
  | getDeviceQueue d queue => exact addQueue_gains t d queue
  | allocateMemory d memory info => exact allocate_gains t device d memory info
  | allocateCommandBuffers _ pool cbs =>
      show (onCommands (CommandTracker.allocate pool cbs) >>= fun _ => pure cbs).Ends t _ _
      change (onCommands (CommandTracker.allocate pool cbs) >>= fun _ => pure cbs).Ends t _ _
        at entry
      rw [Track.ends_bind] at entry ⊢
      have listed := (allocateBuffers_ends [] t pool cbs).and (allocateBuffers_answers checked)
      refine (listed.and entry).mono (fun _ u hu => ?_) fun _ _ hv => hv.1.2.elim
      obtain ⟨⟨⟨-, members⟩, -⟩, entered⟩ := hu
      have tracked : ∀ c ∈ cbs, u.Tracks c := fun c hc => by
        obtain ⟨b, -, hb, -⟩ := members c hc
        rw [tracks_commandBuffer (Registry.kind_of_find hb), hb]
        rfl
      exact ⟨fun _ hc => hc, fun g => ⟨entered.tracked, fun h => h.elim entered.tracks (tracked g)⟩⟩
  | waitForFences _ fences waitAll =>
      revert entry
      show (if waitAll = true ∨ fences.length = 1 then _ else _ : Track _ _).Ends t _ _ →
        (if waitAll = true ∨ fences.length = 1 then _ else _ : Track _ _).Ends t _ _
      split
      · exact fun entry => nothing_gains entry rfl
      · exact fun _ => gains_nil (sameTracks_refl t)
  | createBuffer | createImage | createSwapchain | createCommandPool | createFence
  | createSemaphore | getFenceStatus | queueWaitIdle => exact nothing_gains entry rfl
  | _ => exact gains_nil (sameTracks_refl t)

end Trackers

end GpuAudit
