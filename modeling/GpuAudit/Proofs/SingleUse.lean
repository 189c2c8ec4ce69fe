import GpuAudit.Proofs.Vouching

/-!
# Command buffers for one use at a time

A command buffer that was not begun for simultaneous use should occur at most once in
the batches in flight.  Where command buffers vouch for their batches, all occurrences of
it are in one batch, and while there is one every further submission of it is refused
(`SingleUse`).

Within one call nothing is refused.  A submission checks each command buffer that it
lists against the books before the call, so a command buffer may be listed twice, in one
unit of work or in several.  So it occurs at most once exactly if no call in flight lists
it twice.
-/

namespace GpuAudit

/-! ## Occurrences -/

namespace QueueTracker

variable {t : QueueTracker} {queue c : Handle} {q : Queue} {b : Batch}

/-- The batches in flight, each with its queue. -/
def flying (t : QueueTracker) : List (Handle × Batch) :=
  t.queues.entries.flatMap fun entry => entry.2.inFlight.map fun b => (entry.1, b)

/-- How often the batches in flight list a command buffer. -/
def occurrences (t : QueueTracker) (c : Handle) : Nat :=
  (t.flying.flatMap (·.2.commandBuffers)).count c

theorem mem_flying : (queue, b) ∈ t.flying ↔
    ∃ q, t.queues.find? queue = some q ∧ b ∈ q.inFlight := by
  unfold flying
  rw [List.mem_flatMap]
  constructor
  · rintro ⟨⟨g, q⟩, hq, hb⟩
    obtain ⟨b', hb', he⟩ := List.mem_map.mp hb
    cases he
    exact ⟨q, Registry.mem_entries.mp hq, hb'⟩
  · rintro ⟨q, hq, hb⟩
    exact ⟨(queue, q), Registry.mem_entries.mpr hq, List.mem_map_of_mem hb⟩

/-- No batch in flight is listed twice. -/
theorem Kept.nodup_flying (h : t.Kept) : t.flying.Nodup := by
  refine List.nodup_flatMap.mpr ⟨fun entry he => ?_, ?_⟩
  · have once : entry.2.inFlight.Nodup := by
      refine List.Nodup.of_map (·.sequence) ?_
      rw [(h entry.1 entry.2 (Registry.mem_entries.mp he)).ordered]
      exact List.nodup_range'
    exact once.map fun _ _ same => (Prod.mk.inj same).2
  · refine t.queues.pairwise_entries.imp fun apart x hx hx' => apart ?_
    obtain ⟨_, -, rfl⟩ := List.mem_map.mp hx
    obtain ⟨_, -, same⟩ := List.mem_map.mp hx'
    exact (Prod.mk.inj same).1.symm

theorem occurrences_pos_iff : 0 < t.occurrences c ↔ t.Busy c := by
  unfold occurrences
  rw [List.count_pos_iff, List.mem_flatMap]
  constructor
  · rintro ⟨⟨queue, b⟩, hb, hc⟩
    obtain ⟨q, hq, hb⟩ := mem_flying.mp hb
    exact ⟨queue, q, hq, b, hb, hc⟩
  · rintro ⟨queue, q, hq, b, hb, hc⟩
    exact ⟨(queue, b), mem_flying.mpr ⟨q, hq, hb⟩, hc⟩

/-- Where one batch alone lists a command buffer, the occurrences are those in that batch. -/
theorem Kept.occurrences_eq (h : t.Kept) (hq : t.queues.find? queue = some q)
    (hb : b ∈ q.inFlight)
    (alone : ∀ g q' b', t.queues.find? g = some q' → b' ∈ q'.inFlight → c ∈ b'.commandBuffers →
      g = queue ∧ b' = b) : t.occurrences c = b.commandBuffers.count c := by
  obtain ⟨front, back, parts⟩ := List.append_of_mem (mem_flying.mpr ⟨q, hq, hb⟩)
  have once := parts ▸ h.nodup_flying
  have absent : ∀ xs : List (Handle × Batch), (∀ x ∈ xs, x ∈ t.flying) → (queue, b) ∉ xs →
      (xs.flatMap (·.2.commandBuffers)).count c = 0 := by
    intro xs flies other
    refine List.count_eq_zero.mpr fun hc => ?_
    obtain ⟨⟨g, b'⟩, hx, hc⟩ := List.mem_flatMap.mp hc
    obtain ⟨q', hq', hb'⟩ := mem_flying.mp (flies _ hx)
    obtain ⟨rfl, rfl⟩ := alone g q' b' hq' hb' hc
    exact other hx
  have before := absent front (fun x hx => by simp [parts, hx]) (Track.not_mem_front once)
  have after := absent back (fun x hx => by simp [parts, hx])
    (List.nodup_cons.mp (List.nodup_append.mp once).2.1).1
  unfold occurrences
  rw [parts, List.flatMap_append, List.flatMap_cons, List.count_append, List.count_append, before,
    after, Nat.zero_add, Nat.add_zero]

end QueueTracker

/-! ## Submissions of one command buffer -/

/-- A command buffer for one use at a time is listed by one batch only. -/
theorem Vouched.alone {commands : CommandTracker} {queues : QueueTracker} {c : Handle}
    (h : Vouched commands queues) (kept : queues.Kept) {r : CommandBuffer}
    (hr : commands.buffers.find? c = some r)
    (single : r.usage.contains CommandBufferUsage.simultaneousUse = false)
    {queue queue' : Handle} {q q' : Queue} {b b' : Batch}
    (hq : queues.queues.find? queue = some q) (hb : b ∈ q.inFlight) (hc : c ∈ b.commandBuffers)
    (hq' : queues.queues.find? queue' = some q') (hb' : b' ∈ q'.inFlight)
    (hc' : c ∈ b'.commandBuffers) : queue' = queue ∧ b' = b := by
  have named : ∀ {g n}, commands.Vouches g n c → ∀ s ∈ r.lastSubmission,
      g = s.queue ∧ n = s.sequence := by
    rintro g n ⟨r', s', hr', -, hs', here, -, again | now⟩ s hs
    · rw [hr, Option.some.injEq] at hr'
      rw [hr', again] at single
      cases single
    · rw [hr, Option.some.injEq] at hr'
      rw [← hr', hs, Option.some.injEq] at hs'
      exact ⟨hs' ▸ here.symm, hs' ▸ now⟩
  have vouches := h queue q hq b hb c hc
  obtain ⟨r', s, hr', -, hs, -⟩ := id vouches
  rw [hr, Option.some.injEq] at hr'
  subst hr'
  obtain ⟨rfl, first⟩ := named vouches s hs
  obtain ⟨rfl, second⟩ := named (h queue' q' hq' b' hb' c hc') s hs
  rw [hq, Option.some.injEq] at hq'
  subst hq'
  exact ⟨rfl, (kept s.queue q hq).eq_of_sequence hb' hb (second.trans first.symm)⟩

/-- What the check of a submission holds against a command buffer that is live. -/
theorem CommandTracker.blames_checkSubmittable {t : CommandTracker} {queues : QueueTracker}
    {c : Handle} {r : CommandBuffer} (hr : t.buffers.find? c = some r) :
    Track.Raises (fun v => ∃ message, v = .invalidCommandBuffer c message)
      (t.checkSubmittable queues c) := by
  unfold checkSubmittable
  rw [lookup_eq_ok_iff.mpr hr]
  show Track.Raises _ (ite _ _ _)
  refine Track.Raises.ite (Track.raises_error ⟨_, rfl⟩) ?_
  split
  · exact Track.Raises.ite (Track.raises_error ⟨_, rfl⟩) (Track.raises_ok ())
  · exact Track.raises_ok ()

namespace Trackers

variable {t : Trackers} {queue c : Handle}

/-- The checks of command buffers that are live stop at one of them, if not all pass. -/
theorem checkSubmittables_stop {cbs : List Handle}
    (live : ∀ d ∈ cbs, ∃ x, t.commands.buffers.find? d = some x) (hc : c ∈ cbs)
    (unready : t.commands.checkSubmittable t.queues c ≠ .ok ()) :
    (cbs.forM fun cb => Track.query fun t : Trackers =>
      t.commands.checkSubmittable t.queues cb).Ends t (fun _ _ => False)
      fun v _ => ∃ d ∈ cbs, ∃ message, v = .invalidCommandBuffer d message := by
  refine (Track.Ends.forM (fun front u => u = t ∧
    ∀ d ∈ front, t.commands.checkSubmittable t.queues d = .ok ()) ⟨rfl, by simp⟩
    fun front d back u parts hu => ?_).mono (fun _ u hu => absurd (hu.2 c hc) unready)
    fun _ _ h => h
  obtain ⟨rfl, passed⟩ := hu
  have hd : d ∈ cbs := by simp [parts]
  rw [Track.ends_query, Track.ends_ofExcept]
  refine ⟨fun _ passes => ⟨rfl, fun d' hd' => ?_⟩, fun v hv => ?_⟩
  · rcases List.mem_append.mp hd' with earlier | last
    · exact passed d' earlier
    · exact List.mem_singleton.mp last ▸ passes
  · obtain ⟨x, hx⟩ := live d hd
    obtain ⟨message, rfl⟩ := CommandTracker.blames_checkSubmittable hx v hv
    exact ⟨d, hd, message, rfl⟩

/-- A submission is refused for one of the command buffers that it lists, if these are live
and nothing else is wrong before. -/
theorem submit_blames {submits : List SubmitBatch} {fence : Option Handle} {q : Queue}
    (hq : t.queues.queues.find? queue = some q)
    (free : ∀ f ∈ fence, t.queues.checkFenceSubmittable f = .ok ())
    (live : ∀ d ∈ submits.flatMap (·.commandBuffers), ∃ x, t.commands.buffers.find? d = some x)
    (hc : c ∈ submits.flatMap (·.commandBuffers))
    (unready : t.commands.checkSubmittable t.queues c ≠ .ok ()) :
    ∃ d ∈ submits.flatMap (·.commandBuffers), ∃ message,
      ((submit queue submits fence).on t).value = .error (.invalidCommandBuffer d message) := by
  suffices ends : (submit queue submits fence).Ends t (fun _ _ => False) fun v _ =>
      ∃ d ∈ submits.flatMap (·.commandBuffers), ∃ message, v = .invalidCommandBuffer d message by
    obtain ⟨v, hv, d, hd, message, rfl⟩ := ends.stops
    exact ⟨d, hd, message, hv⟩
  have stops := checkSubmittables_stop live hc unready
  unfold submit
  rw [Track.ends_bind, Track.ends_query, QueueTracker.queue_eq_ok_iff.mpr hq,
    Track.ends_ofExcept_ok]
  cases fence with
  | none => exact Track.ends_bind.mpr (stops.mono (fun _ _ h => h.elim) fun _ _ h => h)
  | some f =>
      dsimp only
      rw [Track.ends_bind, Track.ends_query, free f rfl, Track.ends_ofExcept_ok, Track.ends_bind]
      exact stops.mono (fun _ _ h => h.elim) fun _ _ h => h

/-- What becomes of a command buffer that was not begun for simultaneous use. -/
structure SingleUse (t : Trackers) (c : Handle) : Prop where
  /-- It occurs at most once exactly if no batch in flight lists it more than once. -/
  once : t.queues.occurrences c ≤ 1 ↔ ∀ queue q, t.queues.queues.find? queue = some q →
    ∀ b ∈ q.inFlight, b.commandBuffers.count c ≤ 1
  /-- While it is in flight, every submission that lists it is refused. -/
  refused : t.queues.Busy c → ∀ queue submits fence, c ∈ submits.flatMap (·.commandBuffers) →
    (submit queue submits fence).Refuses t
  /-- The refusal is for a command buffer, if all that the submission lists are live and the
  queue and the fence pass. -/
  blamed : t.queues.Busy c → ∀ queue submits fence, c ∈ submits.flatMap (·.commandBuffers) →
    (∃ q, t.queues.queues.find? queue = some q) →
    (∀ f ∈ fence, t.queues.checkFenceSubmittable f = .ok ()) →
    (∀ d ∈ submits.flatMap (·.commandBuffers), ∃ x, t.commands.buffers.find? d = some x) →
    ∃ d ∈ submits.flatMap (·.commandBuffers), ∃ message,
      ((submit queue submits fence).on t).value = .error (.invalidCommandBuffer d message)
  /-- After a submission that lists it and is accepted, it occurs as often as that lists it. -/
  entered : ∀ queue submits fence s, c ∈ submits.flatMap (·.commandBuffers) →
    ((submit queue submits fence).on t).value = .ok s →
    ((submit queue submits fence).on t).state.queues.occurrences c =
      (submits.flatMap (·.commandBuffers)).count c

/-- Where command buffers vouch for their batches, one that was not begun for simultaneous use
is used once at a time, apart from repeats in one call. -/
theorem Scheduled.singleUse (h : t.Scheduled) (vouched : Vouched t.commands t.queues)
    {r : CommandBuffer} (hr : t.commands.buffers.find? c = some r)
    (single : r.usage.contains CommandBufferUsage.simultaneousUse = false) : t.SingleUse c := by
  have kept := h.guarded.kept
  have unready : t.queues.Busy c → t.commands.checkSubmittable t.queues c ≠ .ok () := by
    rintro ⟨queue, q, hq, b, hb, hc⟩ ready
    obtain ⟨r', hr', -, again⟩ := CommandTracker.checkSubmittable_eq_ok_iff.mp ready
    rw [hr, Option.some.injEq] at hr'
    rw [hr', again ((vouched queue q hq b hb c hc).unretired kept hq hb)] at single
    cases single
  constructor
  case once =>
    constructor
    · intro most queue q hq b hb
      by_cases hc : c ∈ b.commandBuffers
      · rw [kept.occurrences_eq hq hb fun g q' b' hq' hb' hc' =>
          vouched.alone kept hr single hq hb hc hq' hb' hc'] at most
        exact most
      · rw [List.count_eq_zero.mpr hc]
        exact Nat.zero_le 1
    · intro each
      by_cases busy : t.queues.Busy c
      · obtain ⟨queue, q, hq, b, hb, hc⟩ := busy
        rw [kept.occurrences_eq hq hb fun g q' b' hq' hb' hc' =>
          vouched.alone kept hr single hq hb hc hq' hb' hc']
        exact each queue q hq b hb
      · rw [← QueueTracker.occurrences_pos_iff] at busy
        omega
  case refused =>
    intro busy queue submits fence hc
    refine (submit_ends t queue submits fence).refuses fun _ _ hu => ?_
    obtain ⟨-, -, -, ready, -⟩ := hu
    exact unready busy (ready c hc)
  case blamed =>
    rintro busy queue submits fence hc ⟨q, hq⟩ free live
    exact submit_blames hq free live hc (unready busy)
  case entered =>
    intro queue submits fence s hc done
    obtain ⟨q, hq, free, ready, hu, -⟩ := (submit_ends t queue submits fence).good_of_ok done
    rw [hu]
    have rest : ¬t.queues.Busy c := fun busy => unready busy (ready c hc)
    have still := (Move.submitted hq free ready).guarded h.guarded |>.kept
    have found : (t.withBatch queue submits (t.batchOf q submits fence)).queues.queues.find? queue =
        some (q.push (t.batchOf q submits fence)) :=
      (Registry.find?_modify ..).trans ((if_pos rfl).trans (by rw [hq, Option.map_some]))
    refine still.occurrences_eq found (List.mem_append_right _ (List.mem_singleton_self _))
      fun g q' b' hq' hb' hc' => ?_
    rcases Registry.found_after_modify hq hq' with ⟨rfl, rfl⟩ | ⟨-, hq'⟩
    · rcases List.mem_append.mp hb' with before | new
      · exact absurd ⟨g, q, hq, b', before, hc'⟩ rest
      · exact ⟨rfl, List.mem_singleton.mp new⟩
    · exact absurd ⟨g, q', hq', b', hb', hc'⟩ rest

end Trackers

/-! ## Runs -/

namespace Layer

variable {l : Layer} {config : Config} {device : Handle} {session : Session}

/-- In every run that submits no command buffer in flight on another queue, so in particular in
one that submits each to one queue only, a command buffer that was not begun for simultaneous
use occurs at most once in the batches in flight exactly if no call listed it twice; and while
it is in flight, every submission of it is refused. -/
theorem singleUse_of_reached (h : Reached (Unshared device) config l)
    (hs : l.sessions[device]? = some session) {c : Handle} {r : CommandBuffer}
    (hr : session.trackers.commands.buffers.find? c = some r)
    (single : r.usage.contains CommandBufferUsage.simultaneousUse = false) :
    session.trackers.SingleUse c := by
  have vouching := (vouching_of_reached h).books device session hs
  exact vouching.scheduled.singleUse (vouching.vouched rfl) hr single

/-- A command buffer that was not begun for simultaneous use has been recorded. -/
def recorded : List Hook :=
  [.post (.createDevice ⟨1, .device⟩) .success,
   .post (.getDeviceQueue ⟨1, .device⟩ ⟨2, .queue⟩) .success,
   .post (.createCommandPool ⟨1, .device⟩ ⟨4, .commandPool⟩ .empty) .success,
   .post (.allocateCommandBuffers ⟨1, .device⟩ ⟨4, .commandPool⟩ [⟨5, .commandBuffer⟩]) .success,
   .pre (.beginCommandBuffer ⟨5, .commandBuffer⟩ .empty),
   .pre (.endCommandBuffer ⟨5, .commandBuffer⟩)]

/-- Then it is submitted by one call, in several units of work. -/
def submitting (times : Nat) : List Hook :=
  recorded ++ [.pre (.queueSubmit ⟨2, .queue⟩
    (List.replicate times { commandBuffers := [⟨5, .commandBuffer⟩] }) none)]

/-- Once it has been submitted, another submission of it is refused. -/
theorem singleUse_of_submitting :
    ∃ session ∈ ((start {}).run (submitting 1)).sessions[(⟨1, .device⟩ : Handle)]?,
      session.trackers.queues.occurrences ⟨5, .commandBuffer⟩ = 1 ∧
      ∃ message, ((Trackers.submit ⟨2, .queue⟩ [{ commandBuffers := [⟨5, .commandBuffer⟩] }]
        none).on session.trackers).value =
          .error (.invalidCommandBuffer ⟨5, .commandBuffer⟩ message) := by
  have reached : Reached (fun _ hook => hook.KeepsHome fun _ => ⟨2, .queue⟩) {}
      ((start {}).run (submitting 1)) := Reached.start.run (by decide +kernel)
  have found : ∃ session ∈ ((start {}).run (submitting 1)).sessions[(⟨1, .device⟩ : Handle)]?,
      session.trackers.queues.occurrences ⟨5, .commandBuffer⟩ = 1 ∧
      (∃ q ∈ session.trackers.queues.queues.find? ⟨2, .queue⟩,
        ∃ b ∈ q.inFlight, (⟨5, .commandBuffer⟩ : Handle) ∈ b.commandBuffers) ∧
      ∃ r ∈ session.trackers.commands.buffers.find? ⟨5, .commandBuffer⟩,
        r.usage.contains CommandBufferUsage.simultaneousUse = false := by decide +kernel
  obtain ⟨session, hs, one, ⟨q, hq, b, hb, hc⟩, r, hr, single⟩ := found
  have use := singleUse_of_reached reached.unshared hs hr single
  obtain ⟨d, hd, message, refused⟩ := use.blamed ⟨_, q, hq, b, hb, hc⟩ ⟨2, .queue⟩
    [{ commandBuffers := [⟨5, .commandBuffer⟩] }] none List.mem_cons_self ⟨q, hq⟩
    (fun _ hf => nomatch hf) fun d hd => ⟨r, List.mem_singleton.mp hd ▸ hr⟩
  obtain rfl : d = ⟨5, .commandBuffer⟩ := List.mem_singleton.mp hd
  exact ⟨session, hs, one, message, refused⟩

/-- A call that lists it twice is accepted, and it is in flight twice then. -/
theorem occursTwice_of_submitting :
    ∃ session ∈ ((start {}).run (submitting 2)).sessions[(⟨1, .device⟩ : Handle)]?,
      Reached (fun _ hook => hook.KeepsHome fun _ => ⟨2, .queue⟩) {}
        ((start {}).run (submitting 2)) ∧
      session.halted = false ∧
      (∃ r, session.trackers.commands.buffers.find? ⟨5, .commandBuffer⟩ = some r ∧
        r.usage.contains CommandBufferUsage.simultaneousUse = false) ∧
      session.trackers.queues.occurrences ⟨5, .commandBuffer⟩ = 2 := by
  have reached : Reached (fun _ hook => hook.KeepsHome fun _ => ⟨2, .queue⟩) {}
      ((start {}).run (submitting 2)) := Reached.start.run (by decide +kernel)
  have found : ∃ session ∈ ((start {}).run (submitting 2)).sessions[(⟨1, .device⟩ : Handle)]?,
      session.halted = false ∧
      (∃ r ∈ session.trackers.commands.buffers.find? ⟨5, .commandBuffer⟩,
        r.usage.contains CommandBufferUsage.simultaneousUse = false) ∧
      session.trackers.queues.occurrences ⟨5, .commandBuffer⟩ = 2 := by decide +kernel
  obtain ⟨session, hs, runs, ⟨r, hr, single⟩, twice⟩ := found
  exact ⟨session, hs, reached, runs, ⟨r, hr, single⟩, twice⟩

end Layer

end GpuAudit
