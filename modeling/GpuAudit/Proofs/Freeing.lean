import GpuAudit.Proofs.Suppression

/-!
# Freeing an allocation

An allocation is freed by the count that it keeps, and the violation that refuses it lists
what the allocation itself has entered.  Where links are entered on both sides, this is what
the resources and the command buffers say of themselves: the allocation is freed exactly if
none is bound to it and no commands touch it, and else the violation names exactly those.
A mapped range plays no part.
-/

namespace GpuAudit

namespace MemoryObject

/-- An allocation without links lists nothing. -/
theorem links_eq_zero_iff {m : MemoryObject} :
    m.links = 0 ↔ (∀ r, r ∉ m.bindings) ∧ ∀ c, c ∉ m.commandBuffers := by
  constructor
  · intro unlinked
    exact ⟨fun r listed => absurd (links_pos_of_bound listed) (by omega),
      fun c listed => absurd (links_pos_of_used listed) (by omega)⟩
  · rintro ⟨unbound, unused⟩
    have bindings : m.bindings = ∅ := Std.ExtTreeSet.eq_empty_iff_forall_not_mem.mpr unbound
    have users : m.commandBuffers = ∅ := Std.ExtTreeSet.eq_empty_iff_forall_not_mem.mpr unused
    simp [links, bindings, users]

end MemoryObject

namespace MemoryTracker

variable {t : MemoryTracker} {m : MemoryObject} {memory : Handle}

/-- An allocation without links is freed. -/
theorem free_unlinked (hm : t.objects.find? memory = some m) (tallied : m.Tallied)
    (unlinked : m.links = 0) : (free memory).Ends t (fun _ _ => True) fun _ _ => False := by
  have count : m.refCount = m.links := tallied
  have free : ¬0 < m.refCount := by omega
  have struck : t.objects.unregister memory = .ok (m, ⟨t.objects.records.erase memory.raw⟩) :=
    Registry.unregister_eq_ok_iff.mpr ⟨hm, rfl⟩
  unfold MemoryTracker.free
  rw [Track.ends_bind, Track.ends_query, lookup_eq_ok_iff.mpr hm, Track.ends_ofExcept_ok,
    Track.ends_bind, MemoryObject.checkRefCount_eq_ok count, Track.ends_ofExcept_ok]
  simp only [if_neg free]
  rw [Track.ends_bind, Track.ends_update_bind, struck]
  refine ⟨fun _ _ => ?_, fun _ hv => nomatch hv⟩
  cases m.mapped with
  | none => trivial
  | some range => trivial

end MemoryTracker

namespace Trackers

variable {t : Trackers} {memory : Handle} {m : MemoryObject}

/-- No resource is bound to an allocation, and no commands touch it. -/
def Unlinked (t : Trackers) (memory : Handle) : Prop :=
  (∀ r, ¬t.resources.BoundTo r memory) ∧ ∀ c, ¬t.commands.Touches c memory

/-- Two lists name the resources that are bound to an allocation and the command buffers
whose commands touch it, each once and in ascending order. -/
structure NamesLinks (t : Trackers) (memory : Handle) (rs cs : List Handle) : Prop where
  /-- The resources. -/
  resources : ∀ r, r ∈ rs ↔ t.resources.BoundTo r memory
  /-- The command buffers. -/
  users : ∀ c, c ∈ cs ↔ t.commands.Touches c memory
  /-- The order of resources. -/
  resourcesAscend : rs.Pairwise fun g h => compare g h = .lt
  /-- The order of command buffers. -/
  usersAscend : cs.Pairwise fun g h => compare g h = .lt

/-- An allocation has been struck out, and every other record stays. -/
structure Struck (t : Trackers) (memory : Handle) (u : Trackers) : Prop where
  /-- The allocations. -/
  view : ∀ g, u.memory.objects.find? g = if g = memory then none else t.memory.objects.find? g
  /-- All other records. -/
  rest : u = { t with memory := u.memory }

/-- Whatever else the books say, an allocation without links is freed. -/
theorem freeMemory_unlinked (hm : t.memory.objects.find? memory = some m) (tallied : m.Tallied)
    (unlinked : m.links = 0) (owners : Owners) (device : Handle) :
    (validate owners device (.freeMemory device memory)).Ends t
      (fun _ u => t.Struck memory u) fun _ _ => False := by
  show (discard (onMemory (MemoryTracker.free memory)) >>= fun _ => pure [memory]).Ends t _ _
  unfold onMemory
  rw [Track.ends_bind, Track.ends_discard, Track.ends_within]
  exact ((t.memory.free_strikes memory).and (MemoryTracker.free_unlinked hm tallied unlinked)).mono
    (fun _ _ freed => ⟨freed.1.2.2, rfl⟩) fun _ _ never => never.2

/-- Where links are entered on both sides, an allocation without links is one that nothing
else speaks of. -/
theorem Linked.unlinked_iff (h : t.Linked) (hm : t.memory.objects.find? memory = some m) :
    t.Unlinked memory ↔ m.links = 0 := by
  have bound : ∀ r, t.resources.BoundTo r memory ↔ r ∈ m.bindings := fun r => by
    simp [h.bound, MemoryTracker.Lists, hm]
  have touched : ∀ c, t.commands.Touches c memory ↔ c ∈ m.commandBuffers := fun c => by
    simp [h.touched, MemoryTracker.ListsUser, hm]
  simp only [Unlinked, bound, touched, MemoryObject.links_eq_zero_iff]

/-- What an allocation lists are its links. -/
theorem Linked.namesLinks (h : t.Linked) (hm : t.memory.objects.find? memory = some m) :
    t.NamesLinks memory m.bindings.toList m.commandBuffers.toList where
  resources r := by simp [h.bound, MemoryTracker.Lists, hm]
  users c := by simp [h.touched, MemoryTracker.ListsUser, hm]
  resourcesAscend := Std.ExtTreeSet.ordered_toList
  usersAscend := Std.ExtTreeSet.ordered_toList

/-- Where links are entered on both sides, an allocation is struck out exactly if nothing
else speaks of it, and else refused with the names of all that do. -/
theorem Linked.free_ends (h : t.Linked) (hm : t.memory.objects.find? memory = some m) :
    (onMemory (MemoryTracker.free memory)).Ends t
      (fun _ u => t.Unlinked memory ∧ t.Struck memory u)
      fun v u => ¬t.Unlinked memory ∧ u = t ∧
        ∃ rs cs, v = .freedMemRef memory rs cs ∧ t.NamesLinks memory rs cs := by
  unfold onMemory
  rw [Track.ends_within, h.unlinked_iff hm]
  by_cases unlinked : m.links = 0
  · refine ((MemoryTracker.free_ends h.tallied memory).and
      (MemoryTracker.free_unlinked hm (h.tallied memory m hm) unlinked)).mono (fun _ u freed => ?_)
      fun _ _ never => never.2.elim
    exact ⟨unlinked, freed.1.2.2, rfl⟩
  · refine (MemoryTracker.free_linked_ends h.tallied hm (Nat.pos_of_ne_zero unlinked)).mono
      (fun _ _ never => never.elim) fun v u refused => ?_
    exact ⟨unlinked, by rw [refused.2], _, _, refused.1, h.namesLinks hm⟩

/-- So does the call that frees it, which gives up the allocation. -/
theorem Linked.freeMemory_ends (h : t.Linked) (hm : t.memory.objects.find? memory = some m)
    (owners : Owners) (device : Handle) :
    (validate owners device (.freeMemory device memory)).Ends t
      (fun released u => t.Unlinked memory ∧ released = [memory] ∧ t.Struck memory u)
      fun v u => ¬t.Unlinked memory ∧ u = t ∧
        ∃ rs cs, v = .freedMemRef memory rs cs ∧ t.NamesLinks memory rs cs := by
  show (discard (onMemory (MemoryTracker.free memory)) >>= fun _ => pure [memory]).Ends t _ _
  rw [Track.ends_bind, Track.ends_discard]
  exact (h.free_ends hm).mono (fun _ _ freed => ⟨freed.1, rfl, freed.2⟩) fun _ _ refused => refused

end Trackers

namespace Layer

variable {l : Layer} {config : Config} {device memory : Handle} {session : Session} {call : Call}
  {m : MemoryObject}

/-- A call that is accepted leaves its books, and what it gives up has no owner any more. -/
theorem afterValidation_accepted {released : List Handle}
    (hs : l.sessionFor call = .ok (device, session)) (running : ¬session.halted = true)
    (hv : ((Trackers.validate l.owners device call).on session.trackers).value = .ok released) :
    l.afterValidation call =
      { l.put device session ((Trackers.validate l.owners device call).on session.trackers).state
        with owners := released.foldl (·.erase ·) l.owners } := by
  rw [afterValidation_running hs running]
  simp only [hv, givenUp]
  exact concluded_eq fun _ refused => by cases refused

/-- In every session of every run that goes on, a live allocation is freed exactly if no
resource is bound to it and no commands touch it, mapped or not.  Then exactly its record
and its entry among the owners are gone.  Else the violation names exactly the resources
that are bound to it and the command buffers whose commands touch it, each once and in
ascending order, and nothing changes. -/
theorem freeMemory_exact (h : Reached Sheltered config l)
    (hs : l.drained.sessions[device]? = some session) (running : session.halted = false)
    (hm : session.trackers.memory.objects.find? memory = some m) :
    let answer := ((Trackers.validate l.drained.owners device (.freeMemory device memory)).on
      session.trackers).value
    (answer = .ok [memory] ↔ session.trackers.Unlinked memory) ∧
      (session.trackers.Unlinked memory → ∃ u, session.trackers.Struck memory u ∧
        l.step (.pre (.freeMemory device memory)) =
          { l.drained.put device session u with owners := l.drained.owners.erase memory }) ∧
      (¬session.trackers.Unlinked memory → ∃ rs cs,
        answer = .error (.freedMemRef memory rs cs) ∧
          session.trackers.NamesLinks memory rs cs ∧
          l.step (.pre (.freeMemory device memory)) = l.drained) := by
  have goes : ¬session.halted = true := by simp [running]
  have books : l.drained.Obeys config.validation RunningBooks :=
    (obeys_of_sheltered (runningBooks_law _) h).drained (runningBooks_law _).toRetirementLaw
  have linked := (books.law device session hs goes).sound.linked
  have ends := linked.freeMemory_ends hm l.drained.owners device
  have found : l.drained.sessionFor (.freeMemory device memory) = .ok (device, session) :=
    deviceSession_eq_ok_iff.mpr ⟨rfl, hs⟩
  have step : l.step (.pre (.freeMemory device memory)) =
      l.drained.afterValidation (.freeMemory device memory) := step_eq l _
  intro answer
  cases hx : answer with
  | ok released =>
      obtain ⟨unlinked, rfl, struck⟩ := ends.good_of_ok hx
      refine ⟨iff_of_true rfl unlinked, fun _ => ⟨_, struck, ?_⟩, fun not => absurd unlinked not⟩
      rw [step, afterValidation_accepted found goes hx]
      rfl
  | error v =>
      obtain ⟨still, same, rs, cs, rfl, names⟩ := ends.bad_of_error hx
      refine ⟨iff_of_false nofun still, fun unlinked => absurd unlinked still, fun _ =>
        ⟨rs, cs, rfl, names, ?_⟩⟩
      rw [step, afterValidation_refused found goes hx ⟨rfl, same⟩]

/-- An allocation that a buffer is bound to has been mapped. -/
def mappedBound : List Hook :=
  [.post (.createDevice ⟨1, .device⟩) .success,
   .post (.allocateMemory ⟨1, .device⟩ ⟨2, .deviceMemory⟩
     { size := 4096, properties := .hostVisible }) .success,
   .pre (.mapMemory ⟨1, .device⟩ ⟨2, .deviceMemory⟩ 0 wholeSize),
   .post (.createBuffer ⟨1, .device⟩ ⟨3, .buffer⟩ ⟨256, .transferDst, false⟩) .success,
   .pre (.bindBufferMemory ⟨1, .device⟩ ⟨3, .buffer⟩ ⟨2, .deviceMemory⟩ 0)]

/-- Before the buffer is bound, nothing speaks of the mapped allocation and it can be freed;
afterwards the violation names the buffer, and nothing changes. -/
theorem freeMemory_of_mappedBound :
    (∃ session ∈ ((start {}).run (mappedBound.take 4)).drained.sessions[(⟨1, .device⟩ : Handle)]?,
      (∃ m ∈ session.trackers.memory.objects.find? ⟨2, .deviceMemory⟩, m.mapped.isSome = true) ∧
      session.trackers.Unlinked ⟨2, .deviceMemory⟩) ∧
    ∃ session ∈ ((start {}).run mappedBound).drained.sessions[(⟨1, .device⟩ : Handle)]?,
      ∃ rs cs, ((Trackers.validate ((start {}).run mappedBound).drained.owners ⟨1, .device⟩
        (.freeMemory ⟨1, .device⟩ ⟨2, .deviceMemory⟩)).on session.trackers).value =
          .error (.freedMemRef ⟨2, .deviceMemory⟩ rs cs) ∧ ⟨3, .buffer⟩ ∈ rs ∧
        ((start {}).run mappedBound).step (.pre (.freeMemory ⟨1, .device⟩ ⟨2, .deviceMemory⟩)) =
          ((start {}).run mappedBound).drained := by
  constructor
  · have reached : Reached Sheltered {} ((start {}).run (mappedBound.take 4)) :=
      Reached.start.run (by decide +kernel)
    have found : ∃ session ∈
        ((start {}).run (mappedBound.take 4)).drained.sessions[(⟨1, .device⟩ : Handle)]?,
        session.halted = false ∧
        (∃ m ∈ session.trackers.memory.objects.find? ⟨2, .deviceMemory⟩,
          m.mapped.isSome = true) ∧
        ((Trackers.validate ((start {}).run (mappedBound.take 4)).drained.owners ⟨1, .device⟩
          (.freeMemory ⟨1, .device⟩ ⟨2, .deviceMemory⟩)).on session.trackers).value =
            .ok [⟨2, .deviceMemory⟩] := by decide +kernel
    obtain ⟨session, hs, running, ⟨m, hm, mapped⟩, freed⟩ := found
    exact ⟨session, hs, ⟨m, hm, mapped⟩, (freeMemory_exact reached hs running hm).1.mp freed⟩
  · have reached : Reached Sheltered {} ((start {}).run mappedBound) :=
      Reached.start.run (by decide +kernel)
    have found : ∃ session ∈ ((start {}).run mappedBound).drained.sessions[(⟨1, .device⟩ : Handle)]?,
        session.halted = false ∧
        (∃ m, session.trackers.memory.objects.find? ⟨2, .deviceMemory⟩ = some m) ∧
        ∃ x ∈ session.trackers.resources.find? ⟨3, .buffer⟩,
          x.memory? = some ⟨2, .deviceMemory⟩ := by
      simp only [← Option.isSome_iff_exists]
      decide +kernel
    obtain ⟨session, hs, running, ⟨m, hm⟩, x, hx, bound⟩ := found
    have linked : session.trackers.resources.BoundTo ⟨3, .buffer⟩ ⟨2, .deviceMemory⟩ :=
      ⟨x, hx, bound⟩
    obtain ⟨rs, cs, refused, names, unchanged⟩ :=
      (freeMemory_exact reached hs running hm).2.2 fun unlinked => unlinked.1 _ linked
    exact ⟨session, hs, rs, cs, refused, (names.resources _).mpr linked, unchanged⟩

end Layer

end GpuAudit
