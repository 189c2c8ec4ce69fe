import GpuAudit.Proofs.Edit

/-!
# What creations enter

Each creation enters one record, and an allocation of command buffers enters one
after another.  An allocation that stops half way leaves those it has entered, which
no pool lists.  Fences and semaphores are no part of what the books must agree on.
-/

namespace GpuAudit.Trackers

variable (gone : List Handle) (t : Trackers)

/-! ## Pools and command buffers -/

theorem createPool_ends (pool : Handle) (flags : CommandPoolFlags) :
    (onCommands (CommandTracker.createPool pool flags)).Ends t (fun _ u => Edits gone t u)
      (Track.Refused t) := by
  unfold onCommands CommandTracker.createPool
  rw [Track.ends_within, Track.ends_bind, Track.ends_update_bind]
  constructor
  · intro pools hr
    obtain ⟨-, -, new, -⟩ := Registry.register_eq_ok_iff.mp hr
    exact .single (.poolMade new (Registry.find?_register hr))
  · intro v hv
    exact ⟨Registry.mild_register pool _ v hv, rfl⟩

variable {t} in
/-- Fresh command buffers that can be entered are entered one after another. -/
theorem edits_of_entered {pool : Handle} {cbs : List Handle}
    {buffers : Registry .commandBuffer CommandBuffer} (all : t.commands.buffers.AdmitsAll cbs)
    (entered : t.commands.buffers.Entered (.fresh pool) cbs buffers) :
    Edits gone t { t with commands := { t.commands with buffers } } := by
  induction cbs generalizing t with
  | nil =>
      have same : buffers = t.commands.buffers := Registry.ext fun g => by simpa using entered g
      exact same ▸ .refl
  | cons c cbs ih =>
      have admits := all.2 c List.mem_cons_self
      obtain ⟨_, -, view⟩ := admits.registers (.fresh pool)
      have later := List.nodup_cons.mp all.1
      refine .head (.entered admits.2 view) (ih ⟨later.2, fun g hg => ?_⟩ fun g => ?_)
      · obtain ⟨names, free⟩ := all.2 g (List.mem_cons_of_mem c hg)
        have apart : g ≠ c := fun here => later.1 (here ▸ hg)
        exact ⟨names, (view g).trans (by rw [if_neg apart, free])⟩
      · refine (entered g).trans ?_
        show _ = if g ∈ cbs then _ else Registry.find? _ g
        rw [view]
        by_cases here : g = c <;> simp [here]

/-- The command buffers of a successful allocation are listed by their pool. -/
theorem allocateBuffers_ends (pool : Handle) (cbs : List Handle) :
    (onCommands (CommandTracker.allocate pool cbs)).Ends t
      (fun _ u => Edits gone t u ∧ ∀ c ∈ cbs, u.commands.Member c)
      fun _ u => Edits gone t u := by
  unfold onCommands
  rw [Track.ends_within]
  refine (t.commands.allocate_enters pool cbs).mono (fun _ c hc => ?_) fun v c hv => ?_
  · obtain ⟨⟨expects, all⟩, buffers, entered, rfl⟩ := hc
    obtain ⟨p, hp⟩ := expects.live
    have live : ∀ cb ∈ cbs, buffers.find? cb = some (.fresh pool) := fun cb hm =>
      (entered cb).trans (if_pos hm)
    refine ⟨(edits_of_entered gone all entered).tail (.enrolled fun cb hm => ⟨_, live cb hm, rfl⟩),
      fun cb hm => ⟨.fresh pool, { p with buffers := p.buffers.insertMany cbs }, live cb hm, ?_,
        Handle.mem_insertMany.mpr (.inr hm)⟩⟩
    show (t.commands.pools.modify pool _).find? pool = _
    rw [Registry.find?_modify, if_pos rfl, hp, Option.map_some]
  · rcases hv.2 with ⟨rfl, -⟩ | ⟨-, buffers, ⟨front, h, back, -, admitted, -, entered⟩, rfl⟩
    · exact .refl
    · exact edits_of_entered gone admitted entered

/-- Command buffers pass their check if each is listed once, and none is live yet. -/
theorem newCommandBuffers_eq_ok_iff {t : Trackers} {pool : Handle} {cbs : List Handle} {u : Unit} :
    validate.newCommandBuffers pool cbs t = .ok u ↔
      (∃ p, t.commands.pools.find? pool = some p) ∧ cbs.Nodup ∧ ∀ c ∈ cbs,
        (c.kind = .commandBuffer ∧ c.isNull = false) ∧ t.commands.buffers.find? c = none := by
  unfold validate.newCommandBuffers CommandTracker.contains
  simp only [bind_eq_ok_iff, discard_eq_ok_iff, CommandTracker.pool_eq_ok_iff, exists_const,
    CommandTracker.ensureDistinct_eq_ok_iff, forM_eq_ok_iff, expectKind_eq_ok_iff,
    expectNew_eq_ok_iff, Registry.contains_eq_isSome, Option.isSome_eq_false_iff,
    Option.isNone_iff_eq_none]

/-- An allocation of command buffers that pass their check answers. -/
theorem allocateBuffers_answers {t : Trackers} {pool : Handle} {cbs : List Handle}
    (checked : validate.newCommandBuffers pool cbs t = .ok ()) :
    (onCommands (CommandTracker.allocate pool cbs)).Ends t (fun _ _ => True)
      fun _ _ => False := by
  obtain ⟨live, all⟩ := newCommandBuffers_eq_ok_iff.mp checked
  unfold onCommands
  rw [Track.ends_within]
  refine (t.commands.allocate_enters pool cbs).mono (fun _ _ _ => trivial) fun v c hv => ?_
  rcases hv.2 with ⟨-, unexpected⟩ | ⟨-, _, stopped, -⟩
  · exact unexpected (CommandTracker.expects_of_admitsAll live all)
  · exact stopped.not_admitsAll all

/-- An allocation under handles that may name command buffers changes nothing if it does
not pass its check. -/
theorem allocateBuffers_refused {t : Trackers} {pool : Handle} {cbs : List Handle}
    (named : ∀ c ∈ cbs, c.kind = .commandBuffer ∧ c.isNull = false)
    (unchecked : validate.newCommandBuffers pool cbs t ≠ .ok ()) :
    (onCommands (CommandTracker.allocate pool cbs)).Ends t (fun _ _ => False)
      fun _ u => u = t := by
  have unexpected : ¬t.commands.Expects pool cbs := fun expects => unchecked <|
    newCommandBuffers_eq_ok_iff.mpr
      ⟨expects.live, expects.distinct, fun c hc => ⟨named c hc, expects.new c hc⟩⟩
  unfold onCommands
  rw [Track.ends_within]
  refine (t.commands.allocate_enters pool cbs).mono (fun _ _ hc => unexpected hc.1.1)
    fun v c hv => ?_
  obtain ⟨rfl, -⟩ | ⟨expects, -⟩ := hv.2
  · rfl
  · exact absurd expects unexpected

end GpuAudit.Trackers

/-! ## Queues, fences and semaphores -/

namespace GpuAudit.QueueTracker

open Track (Refused)

variable (t : QueueTracker)

/-- A queue is entered once, before its first submission. -/
theorem addQueue_ends (queue : Handle) :
    (addQueue queue).Ends t
      (fun added u => added = false ∧ u = t ∨ added = true ∧ queue.kind = .queue ∧
        t.queues.find? queue = none ∧ ∃ queues, u = { t with queues } ∧
        ∀ g, queues.find? g = if g = queue then some .idle else t.queues.find? g)
      (Refused t) := by
  unfold addQueue
  rw [Track.ends_bind, Track.ends_get]
  by_cases known : t.queues.contains queue = true
  · simp only [if_pos known]
    exact .inl ⟨rfl, rfl⟩
  · simp only [if_neg known]
    rw [Track.ends_bind, Track.ends_update_bind]
    constructor
    · intro queues hr
      obtain ⟨hk, -, new, -⟩ := Registry.register_eq_ok_iff.mp hr
      exact .inr ⟨rfl, hk, new, queues, rfl, Registry.find?_register hr⟩
    · intro v hv
      exact ⟨Registry.mild_register queue _ v hv, rfl⟩

theorem createFence_ends (fence : Handle) (signaled : Bool) :
    (createFence fence signaled).Ends t
      (fun _ u => t.fences.find? fence = none ∧ u.queues = t.queues ∧ ∀ g, u.fences.find? g =
        if g = fence then some (if signaled then .signaled else .unsignaled)
        else t.fences.find? g) (Refused t) := by
  unfold createFence
  rw [Track.ends_bind, Track.ends_update_bind]
  refine ⟨fun fences hr => ?_, fun v hv => ⟨Registry.mild_register fence _ v hv, rfl⟩⟩
  obtain ⟨-, -, new, -⟩ := Registry.register_eq_ok_iff.mp hr
  exact ⟨new, rfl, Registry.find?_register hr⟩

theorem destroyFence_ends (fence : Handle) :
    (destroyFence fence).Ends t
      (fun _ u => t.fenceInFlight fence = .ok false ∧ u.queues = t.queues ∧
        ∀ g, u.fences.find? g = if g = fence then none else t.fences.find? g) (Refused t) := by
  unfold destroyFence
  refine Track.Asks.before (Track.asks_query fun t => t.mild_fenceInFlight fence)
    (fun busy hb => ?_) fun _ hv => ⟨hv, rfl⟩
  rw [Track.on_query] at hb
  cases busy with
  | true => exact ⟨rfl, rfl⟩
  | false =>
      simp only [Bool.false_eq_true, if_false]
      rw [Track.ends_bind, Track.ends_update_bind]
      exact ⟨fun _ hr => ⟨hb, rfl, Registry.find?_unregister hr⟩,
        fun v hv => ⟨Registry.mild_unregister fence v hv, rfl⟩⟩

theorem createSemaphore_ends (semaphore : Handle) :
    (createSemaphore semaphore).Ends t
      (fun _ u => u.queues = t.queues ∧ u.fences = t.fences) (Refused t) := by
  unfold createSemaphore
  rw [Track.ends_update_bind]
  exact ⟨fun _ _ => ⟨rfl, rfl⟩, fun v hv => ⟨Registry.mild_register semaphore _ v hv, rfl⟩⟩

theorem destroySemaphore_ends (semaphore : Handle) :
    (destroySemaphore semaphore).Ends t
      (fun _ u => u.queues = t.queues ∧ u.fences = t.fences) (Refused t) := by
  unfold destroySemaphore
  refine Track.Asks.before (Track.asks_query fun t => t.mild_semaphore semaphore)
    (fun state _ => ?_) fun _ hv => ⟨hv, rfl⟩
  by_cases waiting : state = .wait
  · simp only [if_pos waiting]
    exact ⟨rfl, rfl⟩
  · simp only [if_neg waiting]
    rw [Track.ends_update_bind]
    exact ⟨fun _ _ => ⟨rfl, rfl⟩, fun v hv => ⟨Registry.mild_unregister semaphore v hv, rfl⟩⟩

/-- Fences that are live can be made unsignaled one after another. -/
theorem unsignal_ends (fences : List Handle)
    (live : ∀ fence ∈ fences, ∃ f, t.fences.find? fence = some f) :
    (fences.forM fun fence => (do
      let f ← Track.query (·.fence fence)
      if f = .unsignaled then
        Track.warn (.invalidFenceState fence "reset while already unsignaled")
      modify fun t => { t with fences := t.fences.modify fence fun _ => .unsignaled } :
        Track QueueTracker Unit)).Ends t
      (fun _ u => u.queues = t.queues ∧ ∀ g, u.fences.find? g =
        if g ∈ fences then some .unsignaled else t.fences.find? g) fun _ _ => False := by
  refine Track.Ends.forM (fun front (u : QueueTracker) => u.queues = t.queues ∧
      ∀ g, u.fences.find? g = if g ∈ front then some .unsignaled else t.fences.find? g)
    ⟨rfl, fun g => by simp⟩ fun front fence back u parts hu => ?_
  obtain ⟨same, view⟩ := hu
  have found : ∃ f, u.fences.find? fence = some f := by
    rw [view]
    split
    · exact ⟨_, rfl⟩
    · exact live fence (by simp [parts])
  obtain ⟨f, hf⟩ := found
  have after : ∀ g, (u.fences.modify fence fun _ => Fence.unsignaled).find? g =
      if g ∈ front ++ [fence] then some .unsignaled else t.fences.find? g := fun g => by
    rw [Registry.find?_modify]
    by_cases hg : g = fence
    · simp [hg, hf]
    · simp [hg, view]
  rw [Track.ends_bind, Track.ends_query, fence_eq_ok_iff.mpr hf, Track.ends_ofExcept_ok]
  by_cases done : f = .unsignaled
  · simp only [if_pos done]
    exact ⟨same, after⟩
  · simp only [if_neg done]
    exact ⟨same, after⟩

theorem resetFences_ends (fences : List Handle) :
    (resetFences fences).Ends t
      (fun _ u => (∀ fence ∈ fences, t.fenceInFlight fence = .ok false) ∧ u.queues = t.queues ∧
        ∀ g, u.fences.find? g = if g ∈ fences then some .unsignaled else t.fences.find? g)
      (Refused t) := by
  unfold resetFences
  rw [Track.ends_bind]
  refine (Track.ends_forM_check (fun fence => t.fenceInFlight fence = .ok false)
    (fun fence => ?_) fences).mono (fun _ u hu => ?_) fun _ _ h => h
  · rw [Track.ends_bind, Track.ends_query, Track.ends_ofExcept]
    refine ⟨fun busy hb => ?_, fun v hv => ⟨t.mild_fenceInFlight fence v hv, rfl⟩⟩
    cases busy with
    | true => exact ⟨rfl, rfl⟩
    | false => exact ⟨rfl, hb⟩
  · obtain ⟨rfl, free⟩ := hu
    refine (unsignal_ends u fences fun fence hf => ?_).mono (fun _ _ h => ⟨free, h⟩) fun _ _ h =>
      h.elim
    obtain ⟨f, hl, -⟩ := bind_eq_ok_iff.mp (free fence hf)
    exact ⟨f, fence_eq_ok_iff.mp hl⟩

end GpuAudit.QueueTracker

namespace GpuAudit.Trackers

variable (gone : List Handle) (t : Trackers)

/-- A queue is entered once. -/
theorem onQueues_addQueue_ends (queue : Handle) :
    (onQueues (QueueTracker.addQueue queue)).Ends t
      (fun added u => Edits gone t u ∧ (added = true → queue.kind = .queue))
      (Track.Refused t) := by
  unfold onQueues
  rw [Track.ends_within]
  refine (t.queues.addQueue_ends queue).mono (fun added q hq => ?_) fun _ q hq =>
    ⟨hq.1, by rw [hq.2]⟩
  rcases hq with ⟨rfl, rfl⟩ | ⟨-, hk, new, queues, rfl, view⟩
  · exact ⟨.refl, fun h => nomatch h⟩
  · exact ⟨.single (.queueMade new view), fun _ => hk⟩

/-- An operation on fences and semaphores makes an edit or is refused. -/
theorem signaled_ends {α : Type} {x : Track QueueTracker α} {good : α → QueueTracker → Prop}
    (hx : x.Ends t.queues good (Track.Refused t.queues))
    (same : ∀ a q, good a q → q.queues = t.queues.queues) :
    (onQueues x).Ends t (fun _ u => Edits gone t u) (Track.Refused t) := by
  unfold onQueues
  rw [Track.ends_within]
  refine hx.mono (fun a q hq => ?_) fun _ q hq => ⟨hq.1, by rw [hq.2]⟩
  have he : q = { t.queues with fences := q.fences, semaphores := q.semaphores } := by
    have kept := same a q hq
    cases q
    cases kept
    rfl
  rw [he]
  exact .single (.signaled _ _)

end GpuAudit.Trackers
