import GpuAudit.Recording
import GpuAudit.Proofs.Edit

/-!
# Command buffers are recycled as a whole

Recycling a command buffer releases all its links, and where links are entered on
both sides none of the releases can fail.  So an operation on one command buffer
either makes its one edit or changes nothing, and an operation on a pool does the
same for all command buffers of the pool: its checks come first, and no later step
can fail.

Recording is the exception to no failure after a change: it stops where an
allocation has more links than can be counted.
-/

namespace GpuAudit.Trackers

variable {t u : Trackers} (gone : List Handle) {cb c pool : Handle} {b : CommandBuffer}

/-! ## Links -/

/-- The links of a command buffer can be released one by one. -/
theorem releaseLinks_ends {memories : List Handle} (tallied : t.memory.Tallied)
    (distinct : memories.Nodup) (listed : ∀ m, m ∈ memories ↔ t.memory.ListsUser m cb) :
    (releaseLinks cb memories).Ends t
      (fun _ u => u = { t with memory := t.memory.forget cb }) fun _ _ => False := by
  unfold releaseLinks
  -- The allocations released so far are without the command buffer, the others as they were.
  refine (Track.Ends.forM (fun front u => u = { t with memory := u.memory } ∧
      ∀ g, u.memory.objects.find? g =
        if g ∈ front then (t.memory.objects.find? g).map (·.without cb)
        else t.memory.objects.find? g)
    ⟨rfl, fun g => by simp⟩ fun front m back u parts hu => ?_).mono (fun _ u hu => ?_)
    fun _ _ h => h
  · obtain ⟨hs, view⟩ := hu
    have hm : m ∉ front := Track.not_mem_front (parts ▸ distinct)
    obtain ⟨x, hx, hc⟩ := (listed m).mp (by simp [parts])
    have hxu : u.memory.objects.find? m = some x := by rw [view, if_neg hm, hx]
    rw [Track.ends_restate, Track.ends_discard, onMemory, Track.ends_within]
    refine (MemoryTracker.removeCommandBuffer_ends hxu (tallied m x hx) hc).mono
      (fun _ v hv => ⟨by rw [hs], fun g => ?_⟩) fun _ _ h => h
    show v.objects.find? g = _
    rw [hv, MemoryTracker.find?_change, view]
    by_cases hg : g = m
    · simp [hg, hm, hx, MemoryObject.without, hc]
    · simp [hg]
  · obtain ⟨hs, view⟩ := hu
    rw [hs]
    congr 1
    refine MemoryTracker.ext_find? fun g => ?_
    rw [view, MemoryTracker.find?_forget]
    split
    next _ => rfl
    next hg =>
      cases hx : t.memory.objects.find? g with
      | none => rfl
      | some x =>
          have hc : cb ∉ x.commandBuffers := fun hc => hg ((listed g).mpr ⟨x, hx, hc⟩)
          simp [MemoryObject.without, hc]

/-- What a command buffer touches is what allocations list it for. -/
theorem Linked.mem_memoryRefs (h : t.Linked) (hb : t.commands.buffers.find? cb = some b)
    (m : Handle) : m ∈ b.memoryRefs.toList ↔ t.memory.ListsUser m cb := by
  rw [Std.ExtTreeSet.mem_toList, ← h.touched]
  simp [CommandTracker.Touches, hb]

theorem releaseAll_ends (h : t.Linked) (hb : t.commands.buffers.find? cb = some b) :
    (releaseAll cb).Ends t
      (fun _ u => u = t.recycled cb fun b => { b with memoryRefs := ∅ }) fun _ _ => False := by
  unfold releaseAll
  rw [Track.ends_bind, Track.ends_query, CommandTracker.lookup_eq_ok_iff.mpr hb,
    Track.ends_ofExcept_ok, Track.ends_bind, Track.ends_modify]
  refine (releaseLinks_ends ?_ (Handle.nodup_toList _) ?_).mono (fun _ u hu => ?_) fun _ _ h => h
  · exact h.tallied
  · exact h.mem_memoryRefs hb
  · exact hu

theorem recycled_change (f g : CommandBuffer → CommandBuffer) :
    { t.recycled cb f with commands := (t.recycled cb f).commands.change cb g } =
      t.recycled cb (g ∘ f) := by
  unfold recycled
  rw [CommandTracker.change_change]

/-- A live command buffer can be made fresh. -/
theorem clear_ends (h : t.Linked) (hb : t.commands.buffers.find? cb = some b) :
    (clear cb).Ends t (fun _ u => u = t.recycled cb fun b => .fresh b.pool)
      fun _ _ => False := by
  unfold clear
  rw [Track.ends_bind]
  refine (releaseAll_ends h hb).mono (fun _ u hu => ?_) fun _ _ h => h
  rw [hu, Track.ends_modify]
  exact recycled_change _ _

/-! ## Single command buffers -/

/-- A command buffer is live and its last submission, if there is one, has retired. -/
def Retired (t : Trackers) (c : Handle) : Prop :=
  (∃ b, t.commands.buffers.find? c = some b) ∧ t.commands.isInFlight t.queues c = false

/-- Only executable command buffers have been submitted, so the others have retired. -/
theorem Sound.retired_of_idle (h : t.Sound) (hb : t.commands.buffers.find? c = some b)
    (idle : t.commands.Idle t.queues c) : t.Retired c := by
  refine ⟨⟨b, hb⟩, ?_⟩
  by_cases ready : b.state = .executable
  · exact idle b hb ready
  · have none : b.lastSubmission = none := Decidable.byContradiction fun hs =>
      ready (h.pooled.submitted c b hb hs)
    unfold CommandTracker.isInFlight
    rw [hb, Option.bind_some, none]

/-- A live command buffer that is not in flight begins anew, or the begin is refused. -/
theorem begin_recycles (h : t.Linked) (cb : Handle) (usage : CommandBufferUsage) :
    (begin cb usage).Ends t
      (fun _ u => t.commands.Idle t.queues cb ∧ (∃ b, t.commands.buffers.find? cb = some b) ∧
        u = t.recycled cb fun b => ⟨b.pool, .recording, usage, ∅, none⟩) (Track.Refused t) := by
  unfold begin
  refine Track.Asks.before (Track.asks_query fun t => t.commands.mild_checkBegin t.queues cb)
    (fun _ hc => ?_) fun _ hv => ⟨hv, rfl⟩
  rw [Track.on_query] at hc
  obtain ⟨idle, b, hb, -⟩ := CommandTracker.checkBegin_idle hc
  rw [Track.ends_bind]
  refine (releaseAll_ends h hb).mono (fun _ u hu => ?_) fun _ _ h => h.elim
  rw [hu, Track.ends_bind, Track.ends_modify, Track.ends_debug, recycled_change]
  exact ⟨idle, ⟨b, hb⟩, rfl⟩

theorem begin_ends (h : t.Sound) (cb : Handle) (usage : CommandBufferUsage)
    (owned : ∀ b, t.commands.buffers.find? cb = some b → t.commands.Member cb) :
    (begin cb usage).Ends t (fun _ u => t.Retired cb ∧ Edits gone t u) (Track.Refused t) := by
  refine (begin_recycles h.linked cb usage).mono (fun _ u hu => ?_) fun _ _ hv => hv
  obtain ⟨idle, ⟨b, hb⟩, rfl⟩ := hu
  exact ⟨h.retired_of_idle hb idle, .single (.begun usage idle (owned b hb))⟩

/-- A live command buffer that is not in flight is made fresh. -/
theorem reset_of_retired (h : t.Linked) (hr : t.Retired cb) :
    (reset cb).Ends t (fun _ u => u = t.recycled cb fun b => .fresh b.pool)
      fun _ _ => False := by
  obtain ⟨⟨b, hb⟩, retired⟩ := hr
  have passes : t.commands.ensureRetired t.queues [cb] = .ok () :=
    CommandTracker.ensureRetired_eq_ok_iff.mpr (by simpa using retired)
  unfold reset
  rw [Track.ends_bind, Track.ends_discard, Track.ends_query,
    CommandTracker.lookup_eq_ok_iff.mpr hb, Track.ends_ofExcept_ok, Track.ends_bind,
    Track.ends_query, passes, Track.ends_ofExcept_ok, Track.ends_bind]
  exact (clear_ends h hb).mono (fun _ _ hu => hu) fun _ _ h => h

theorem reset_ends (h : t.Sound) (cb : Handle) :
    (reset cb).Ends t (fun _ u => t.Retired cb ∧ Edits gone t u) (Track.Refused t) := by
  cases hl : t.commands.lookup cb with
  | error v =>
      unfold reset
      rw [Track.ends_bind, Track.ends_discard, Track.ends_query, hl]
      exact ⟨t.commands.mild_lookup cb v hl, rfl⟩
  | ok b =>
      cases hr : t.commands.ensureRetired t.queues [cb] with
      | error v =>
          unfold reset
          rw [Track.ends_bind, Track.ends_discard, Track.ends_query, hl, Track.ends_ofExcept_ok,
            Track.ends_bind, Track.ends_query, hr]
          exact ⟨t.commands.mild_ensureRetired t.queues [cb] v hr, rfl⟩
      | ok _ =>
          have hb := CommandTracker.lookup_eq_ok_iff.mp hl
          have retired := CommandTracker.ensureRetired_eq_ok_iff.mp hr cb List.mem_cons_self
          refine (reset_of_retired h.linked ⟨⟨b, hb⟩, retired⟩).mono (fun _ u hu => ?_)
            fun _ _ h => h.elim
          rw [hu]
          exact ⟨⟨⟨b, hb⟩, retired⟩, .single (.cleared (CommandTracker.idle_of_retired retired))⟩

/-- A live command buffer that is not in flight is struck out. -/
theorem destroy_of_retired (h : t.Linked) (hb : t.commands.buffers.find? cb = some b)
    (retired : t.commands.isInFlight t.queues cb = false) :
    (destroyCommandBuffer cb).Ends t
      (fun _ u => ∃ buffers : Registry .commandBuffer CommandBuffer,
        (∀ g, buffers.find? g = if g = cb then none else t.commands.buffers.find? g) ∧
        u = { t with
          memory := t.memory.forget cb
          commands := ⟨t.commands.pools.modify b.pool fun p =>
            { p with buffers := p.buffers.erase cb }, buffers⟩ }) fun _ _ => False := by
  have passes : t.commands.ensureRetired t.queues [cb] = .ok () :=
    CommandTracker.ensureRetired_eq_ok_iff.mpr (by simpa using retired)
  have hr := Registry.unregister_eq_ok_iff.mpr ⟨hb, rfl⟩
  unfold destroyCommandBuffer
  rw [Track.ends_bind, Track.ends_discard, Track.ends_query,
    CommandTracker.lookup_eq_ok_iff.mpr hb, Track.ends_ofExcept_ok, Track.ends_bind,
    Track.ends_query, passes, Track.ends_ofExcept_ok, Track.ends_bind, Track.ends_get,
    Track.ends_bind, hr, Track.ends_ofExcept_ok]
  simp only [Track.ends_bind, Track.ends_set]
  refine (releaseLinks_ends ?_ (Handle.nodup_toList _) ?_).mono (fun _ u hu => ?_) fun _ _ h => h
  · exact h.tallied
  · exact h.mem_memoryRefs hb
  · rw [hu]
    exact ⟨_, Registry.find?_unregister hr, rfl⟩

theorem isInFlight_congr {t u : CommandTracker} {queues : QueueTracker}
    (h : u.buffers.find? c = t.buffers.find? c) :
    u.isInFlight queues c = t.isInFlight queues c := by
  unfold CommandTracker.isInFlight
  rw [h]

theorem finish_ends (t : Trackers) (cb : Handle) :
    (onCommands (CommandTracker.finish cb)).Ends t (fun _ u => Edits gone t u)
      (Track.Refused t) := by
  unfold onCommands CommandTracker.finish
  rw [Track.ends_within, Track.ends_bind, Track.ends_query, Track.ends_ofExcept]
  refine ⟨fun b hl => ?_, fun v hv => ⟨t.commands.mild_lookup cb v hv, rfl⟩⟩
  have hb := CommandTracker.lookup_eq_ok_iff.mp hl
  by_cases recording : b.state = .recording
  · simp only [ne_eq, recording, not_true_eq_false, if_false]
    exact .single (.finished hb recording)
  · simp only [ne_eq, recording, not_false_eq_true, if_true]
    exact ⟨rfl, rfl⟩

/-! ## Several command buffers -/

section Several

variable {cbs : List Handle} {v : Trackers}

/-- Exactly the links of some command buffers are released, and beside the allocations only
pools and command buffers change. -/
structure Frees (t : Trackers) (cbs : List Handle) (u : Trackers) : Prop where
  /-- The links are released. -/
  memory : u.memory = cbs.foldl MemoryTracker.forget t.memory
  /-- The resources stay. -/
  resources : u.resources = t.resources
  /-- The queues stay. -/
  queues : u.queues = t.queues

theorem Frees.concat (h : t.Frees cbs u) (memory : v.memory = u.memory.forget c)
    (resources : v.resources = u.resources) (queues : v.queues = u.queues) :
    t.Frees (cbs ++ [c]) v :=
  ⟨by rw [memory, h.memory, List.foldl_append]; rfl, resources.trans h.resources,
    queues.trans h.queues⟩

/-- Exactly some command buffers of a pool are struck out. -/
structure Strikes (t : Trackers) (pool : Handle) (cbs : List Handle) (u : Trackers) : Prop
    extends Frees t cbs u where
  /-- They are gone. -/
  buffers : ∀ g, u.commands.buffers.find? g =
    if g ∈ cbs then none else t.commands.buffers.find? g
  /-- The pool lists them no more. -/
  pools : u.commands.pools = t.commands.pools.modify pool fun p =>
    { p with buffers := cbs.foldl (·.erase ·) p.buffers }

/-- Exactly some command buffers are made fresh. -/
structure Clears (t : Trackers) (cbs : List Handle) (u : Trackers) : Prop
    extends Frees t cbs u where
  /-- They are fresh. -/
  buffers : ∀ g, u.commands.buffers.find? g =
    if g ∈ cbs then (t.commands.buffers.find? g).map fun b => .fresh b.pool
    else t.commands.buffers.find? g
  /-- The pools stay. -/
  pools : u.commands.pools = t.commands.pools

theorem strikes_nil (t : Trackers) (pool : Handle) : t.Strikes pool [] t where
  memory := rfl
  resources := rfl
  queues := rfl
  buffers g := by simp
  pools := Registry.ext fun g => by simp

theorem clears_nil (t : Trackers) : t.Clears [] t where
  memory := rfl
  resources := rfl
  queues := rfl
  buffers g := by simp
  pools := rfl

/-- One more command buffer of the pool is struck out. -/
theorem Strikes.concat (h : t.Strikes pool cbs u)
    {buffers : Registry .commandBuffer CommandBuffer}
    (view : ∀ g, buffers.find? g = if g = c then none else u.commands.buffers.find? g) :
    t.Strikes pool (cbs ++ [c]) { u with
      memory := u.memory.forget c
      commands := ⟨u.commands.pools.modify pool fun p =>
        { p with buffers := p.buffers.erase c }, buffers⟩ } where
  toFrees := h.toFrees.concat rfl rfl rfl
  buffers g := by
    show buffers.find? g = _
    rw [view, h.buffers]
    by_cases hg : g = c <;> simp [hg]
  pools := by
    show u.commands.pools.modify pool _ = _
    rw [h.pools, Registry.modify_modify]
    congr 1
    funext p
    simp [List.foldl_append]

/-- One more command buffer is made fresh. -/
theorem Clears.concat (h : t.Clears cbs u) (c : Handle) :
    t.Clears (cbs ++ [c]) (u.recycled c fun b => .fresh b.pool) where
  toFrees := h.toFrees.concat rfl rfl rfl
  buffers g := by
    show (u.commands.change c _).buffers.find? g = _
    rw [CommandTracker.find?_change, h.buffers]
    by_cases hg : g = c
    · have last : g ∈ cbs ++ [c] := by simp [hg]
      rw [if_pos hg, if_pos last]
      -- What is fresh already is made fresh again.
      split
      next => rw [Option.map_map]; rfl
      next => rfl
    · simp [hg]
  pools := h.pools

/-- Command buffers of a pool of which none is in flight can be struck out one after
another. -/
theorem destroyAll_ends (h : t.Sound) (given : ∀ c ∈ cbs, c ∈ gone) (distinct : cbs.Nodup)
    (retired : ∀ c ∈ cbs, t.Retired c)
    (own : ∀ c ∈ cbs, ∀ b, t.commands.buffers.find? c = some b → b.pool = pool) :
    (cbs.forM destroyCommandBuffer).Ends t
      (fun _ u => Edits gone t u ∧ t.Strikes pool cbs u) fun _ _ => False := by
  refine Track.Ends.forM (fun front u => Edits gone t u ∧ t.Strikes pool front u)
    ⟨.refl, strikes_nil t pool⟩ fun front c back u parts hu => ?_
  obtain ⟨edits, strikes⟩ := hu
  have hcs : c ∈ cbs := by simp [parts]
  have same : u.commands.buffers.find? c = t.commands.buffers.find? c := by
    rw [strikes.buffers, if_neg (Track.not_mem_front (parts ▸ distinct))]
  obtain ⟨⟨b, hb⟩, retired⟩ := retired c hcs
  have hbu := same.trans hb
  have hru : u.commands.isInFlight u.queues c = false := by
    rw [strikes.queues, isInFlight_congr same, retired]
  refine (destroy_of_retired (h.edits edits).linked hbu hru).mono (fun _ v hv => ?_)
    fun _ _ h => h
  obtain ⟨buffers, view, rfl⟩ := hv
  refine ⟨edits.tail (.destroyed (given c hcs) (CommandTracker.idle_of_retired hru) hbu view), ?_⟩
  rw [own c hcs b hb]
  exact strikes.concat view

/-- Retired command buffers can be made fresh one after another. -/
theorem resetAll_ends (h : t.Sound) (retired : ∀ c ∈ cbs, t.Retired c) :
    (cbs.forM reset).Ends t (fun _ u => Edits gone t u ∧ t.Clears cbs u) fun _ _ => False := by
  refine Track.Ends.forM (fun front u => Edits gone t u ∧ t.Clears front u)
    ⟨.refl, clears_nil t⟩ fun front c back u parts hu => ?_
  obtain ⟨edits, clears⟩ := hu
  obtain ⟨⟨b, hb⟩, retired⟩ := retired c (by simp [parts])
  have view := clears.buffers c
  -- A command buffer that has been made fresh has not been submitted since.
  have hru : u.Retired c := by
    split at view
    next =>
      rw [hb, Option.map_some] at view
      refine ⟨⟨_, view⟩, ?_⟩
      unfold CommandTracker.isInFlight
      rw [view]
      rfl
    next =>
      refine ⟨⟨b, view.trans hb⟩, ?_⟩
      rw [clears.queues, isInFlight_congr view, retired]
  refine (reset_of_retired (h.edits edits).linked hru).mono (fun _ v hv => ?_) fun _ _ h => h
  subst hv
  exact ⟨edits.tail (.cleared (CommandTracker.idle_of_retired hru.2)), clears.concat c⟩

end Several

/-! ## Checks on pools -/

/-- What is raised for command buffers that may not be recycled: there is no such object, or
exactly those in flight are named. -/
def Blames (t : Trackers) (cbs : List Handle) (v : Violation) : Prop :=
  v.kind = .invalidObject ∨ t.commands.inFlight t.queues cbs ≠ [] ∧
    v = .resetWhileInFlight (t.commands.inFlight t.queues cbs)

theorem Blames.mild {cbs : List Handle} {v : Violation} (h : t.Blames cbs v) :
    v.isFatal = false := by
  rcases h with kind | ⟨-, rfl⟩
  · cases v with
    | internal => cases kind
    | _ => rfl
  · rfl

/-- Command buffers pass if none is in flight, and else exactly those in flight are named. -/
theorem ends_ensureRetired (t : Trackers) (cbs : List Handle) :
    (Track.query fun t : Trackers => t.commands.ensureRetired t.queues cbs).Ends t
      (fun _ u => u = t ∧ ∀ c ∈ cbs, t.commands.isInFlight t.queues c = false)
      fun v u => u = t ∧ (¬∀ c ∈ cbs, t.commands.isInFlight t.queues c = false) ∧
        t.Blames cbs v := by
  rw [Track.ends_query, Track.ends_ofExcept]
  refine ⟨fun _ hr => ⟨rfl, CommandTracker.ensureRetired_eq_ok_iff.mp hr⟩, fun v hv => ?_⟩
  refine ⟨rfl, fun retired => ?_, .inr ?_⟩
  · have passes : t.commands.ensureRetired t.queues cbs = .ok () :=
      CommandTracker.ensureRetired_eq_ok_iff.mpr retired
    rw [passes] at hv
    cases hv
  · change (if (t.commands.inFlight t.queues cbs).isEmpty = true then .ok () else
      .error (.resetWhileInFlight (t.commands.inFlight t.queues cbs))) = Except.error v at hv
    split at hv
    next => cases hv
    next flying =>
      cases hv
      exact ⟨fun none => flying (List.isEmpty_iff.mpr none), rfl⟩

/-- A pool is live. -/
theorem ends_pool (t : Trackers) (pool : Handle) (cbs : List Handle) :
    (Track.query fun t : Trackers => t.commands.pool pool).Ends t
      (fun p u => u = t ∧ t.commands.pools.find? pool = some p)
      fun v u => u = t ∧ t.commands.pools.find? pool = none ∧ t.Blames cbs v := by
  rw [Track.ends_query, Track.ends_ofExcept]
  refine ⟨fun p hp => ⟨rfl, CommandTracker.pool_eq_ok_iff.mp hp⟩, fun v hv =>
    ⟨rfl, Option.eq_none_iff_forall_ne_some.mpr fun p hp => ?_, .inl ?_⟩⟩
  · rw [CommandTracker.pool_eq_ok_iff.mpr hp] at hv
    cases hv
  · exact Registry.kind_of_lookup pool v hv

/-- The command buffers that a pool lists, in ascending order. -/
def poolBuffers (t : Trackers) (pool : Handle) : List Handle :=
  ((t.commands.pools.find? pool).map (·.buffers.toList)).getD []

theorem poolBuffers_of_live {p : CommandPool} (hp : t.commands.pools.find? pool = some p) :
    t.poolBuffers pool = p.buffers.toList := by
  unfold poolBuffers
  rw [hp]
  rfl

/-- A live pool of which no command buffer is in flight. -/
def PoolIdle (t : Trackers) (pool : Handle) : Prop :=
  ∃ p, t.commands.pools.find? pool = some p ∧
    ∀ c ∈ p.buffers, t.commands.isInFlight t.queues c = false

/-- A live pool whose command buffers have all retired. -/
def PoolRetired (t : Trackers) (pool : Handle) : Prop :=
  ∃ p, t.commands.pools.find? pool = some p ∧ ∀ c ∈ p.buffers, t.Retired c

/-- What a pool lists is live. -/
theorem Sound.live_of_listed (h : t.Sound) {p : CommandPool}
    (hp : t.commands.pools.find? pool = some p) (hc : c ∈ p.buffers) :
    ∃ b, t.commands.buffers.find? c = some b := by
  obtain ⟨b, hb, -⟩ := h.pooled.listed pool p c hp hc
  exact ⟨b, hb⟩

/-- What a pool lists is its own. -/
theorem Sound.own_of_listed (h : t.Sound) {p : CommandPool}
    (hp : t.commands.pools.find? pool = some p) (hc : c ∈ p.buffers)
    (hb : t.commands.buffers.find? c = some b) : b.pool = pool := by
  obtain ⟨b', hb', own⟩ := h.pooled.listed pool p c hp hc
  cases hb.symm.trans hb'
  exact own

theorem Sound.poolRetired (h : t.Sound) (idle : t.PoolIdle pool) : t.PoolRetired pool := by
  obtain ⟨p, hp, retired⟩ := idle
  exact ⟨p, hp, fun c hc => ⟨h.live_of_listed hp hc, retired c hc⟩⟩

/-- The command buffers of a pool, if the pool is live and none of them is in flight. -/
theorem retiredBuffers_ends (t : Trackers) (pool : Handle) :
    (retiredBuffers pool).Ends t
      (fun owned u => u = t ∧ t.PoolIdle pool ∧ owned = t.poolBuffers pool)
      fun v u => u = t ∧ ¬t.PoolIdle pool ∧ t.Blames (t.poolBuffers pool) v := by
  unfold retiredBuffers
  rw [Track.ends_bind, Track.ends_query, Track.ends_ofExcept]
  refine ⟨fun owned ho => ?_, fun v hv => ?_⟩
  · obtain ⟨p, hp, hl⟩ := bind_eq_ok_iff.mp ho
    cases hl
    have hp := CommandTracker.pool_eq_ok_iff.mp hp
    rw [Track.ends_bind, poolBuffers_of_live hp]
    refine (ends_ensureRetired t p.buffers.toList).mono (fun _ u hu => ?_) fun v u hv => ?_
    · exact ⟨hu.1, ⟨p, hp, fun c hc => hu.2 c (Std.ExtTreeSet.mem_toList.mpr hc)⟩, rfl⟩
    · refine ⟨hv.1, fun ⟨q, hq, idle⟩ => hv.2.1 fun c hc => ?_, hv.2.2⟩
      cases hp.symm.trans hq
      exact idle c (Std.ExtTreeSet.mem_toList.mp hc)
  · refine ⟨rfl, fun ⟨p, hp, _⟩ => ?_, .inl ?_⟩
    · have owned : t.commands.owned pool = .ok p.buffers.toList :=
        bind_eq_ok_iff.mpr ⟨p, CommandTracker.pool_eq_ok_iff.mpr hp, rfl⟩
      rw [owned] at hv
      cases hv
    · have kind : Track.Raises (·.kind = .invalidObject) (t.commands.owned pool) :=
        Track.Raises.bind (Registry.kind_of_lookup pool) fun _ => Track.raises_ok _
      exact kind v hv

/-! ## Pools -/

/-- Exactly a pool and some command buffers are struck out. -/
structure StrikesPool (t : Trackers) (pool : Handle) (cbs : List Handle) (u : Trackers) : Prop
    extends Frees t cbs u where
  /-- The command buffers are gone. -/
  buffers : ∀ g, u.commands.buffers.find? g =
    if g ∈ cbs then none else t.commands.buffers.find? g
  /-- The pool is gone. -/
  pools : ∀ g, u.commands.pools.find? g = if g = pool then none else t.commands.pools.find? g

/-- A pool is destroyed with its command buffers exactly if it is live and none of them is
in flight; otherwise nothing changes. -/
theorem destroyPool_strikes (h : t.Sound) (pool : Handle) :
    (destroyPool pool).Ends t
      (fun owned u => t.PoolIdle pool ∧ owned = t.poolBuffers pool ∧ Edits owned t u ∧
        t.StrikesPool pool (t.poolBuffers pool) u)
      fun v u => u = t ∧ ¬t.PoolIdle pool ∧ t.Blames (t.poolBuffers pool) v := by
  unfold destroyPool
  rw [Track.ends_bind]
  refine (retiredBuffers_ends t pool).mono (fun owned u hu => ?_) fun _ _ h => h
  obtain ⟨rfl, idle, rfl⟩ := hu
  obtain ⟨p, hp, retired⟩ := h.poolRetired idle
  have mem {c : Handle} : c ∈ u.poolBuffers pool ↔ c ∈ p.buffers := by
    rw [poolBuffers_of_live hp, Std.ExtTreeSet.mem_toList]
  have distinct : (u.poolBuffers pool).Nodup := by
    rw [poolBuffers_of_live hp]
    exact Handle.nodup_toList p.buffers
  rw [Track.ends_bind]
  refine (destroyAll_ends (u.poolBuffers pool) h (fun _ h => h) distinct
    (fun c hc => retired c (mem.mp hc)) fun c hc b hb => h.own_of_listed hp (mem.mp hc) hb).mono
    (fun _ v hv => ?_) fun _ _ h => h.elim
  obtain ⟨edits, strikes⟩ := hv
  have left : ∀ g, v.commands.pools.find? g = if g = pool then
      some { p with buffers := (u.poolBuffers pool).foldl (·.erase ·) p.buffers }
      else u.commands.pools.find? g := fun g => by
    rw [strikes.pools, Registry.find?_modify]
    by_cases hg : g = pool <;> simp [hg, hp]
  have listed := (left pool).trans (if_pos rfl)
  have empty : ∀ c, c ∉ (u.poolBuffers pool).foldl (·.erase ·) p.buffers := fun c hc =>
    have still := Handle.mem_eraseAll.mp hc
    still.2 (mem.mpr still.1)
  have hr := Registry.unregister_eq_ok_iff.mpr ⟨listed, rfl⟩
  rw [Track.ends_bind, Track.ends_update, hr]
  refine ⟨idle, rfl, edits.tail (.poolRemoved listed empty (Registry.find?_unregister hr)), ?_⟩
  refine ⟨⟨strikes.memory, strikes.resources, strikes.queues⟩, strikes.buffers, fun g => ?_⟩
  refine (Registry.find?_unregister hr g).trans ?_
  rw [left]
  by_cases hg : g = pool <;> simp [hg]

/-- Every command buffer of a pool is made fresh exactly if the pool is live and none of
them is in flight; otherwise nothing changes. -/
theorem resetPool_clears (h : t.Sound) (pool : Handle) :
    (resetPool pool).Ends t
      (fun _ u => t.PoolIdle pool ∧ Edits gone t u ∧ t.Clears (t.poolBuffers pool) u)
      fun v u => u = t ∧ ¬t.PoolIdle pool ∧ t.Blames (t.poolBuffers pool) v := by
  unfold resetPool
  rw [Track.ends_bind]
  refine (retiredBuffers_ends t pool).mono (fun owned u hu => ?_) fun _ _ h => h
  obtain ⟨rfl, idle, rfl⟩ := hu
  obtain ⟨p, hp, retired⟩ := h.poolRetired idle
  refine (resetAll_ends gone h fun c hc => retired c ?_).mono (fun _ _ hu => ⟨idle, hu⟩)
    fun _ _ h => h.elim
  rwa [poolBuffers_of_live hp, Std.ExtTreeSet.mem_toList] at hc

/-- Command buffers that a live pool lists, each listed once and none in flight. -/
def MayFree (t : Trackers) (pool : Handle) (cbs : List Handle) : Prop :=
  ∃ p, t.commands.pools.find? pool = some p ∧ (∀ c ∈ cbs, c ∈ p.buffers) ∧ cbs.Nodup ∧
    ∀ c ∈ cbs, t.commands.isInFlight t.queues c = false

/-- Command buffers of a pool are destroyed all together exactly if the pool lists them,
each is listed once and none is in flight; otherwise nothing changes. -/
theorem freeCommandBuffers_strikes (h : t.Sound) (pool : Handle) (cbs : List Handle) :
    (freeCommandBuffers pool cbs).Ends t
      (fun _ u => t.MayFree pool cbs ∧ Edits cbs t u ∧ t.Strikes pool cbs u)
      fun v u => u = t ∧ ¬t.MayFree pool cbs ∧ t.Blames cbs v := by
  unfold freeCommandBuffers
  rw [Track.ends_bind]
  refine (ends_pool t pool cbs).mono (fun p u hu => ?_) fun v u hv => ?_
  · obtain ⟨rfl, hp⟩ := hu
    have live {q : CommandPool} (hq : u.commands.pools.find? pool = some q) : q = p :=
      Option.some.inj (hq.symm.trans hp)
    rw [Track.ends_bind]
    refine (Track.ends_forM_checks cbs (fun c => c ∈ p.buffers)
      (fun v w => w = u ∧ ¬u.MayFree pool cbs ∧ u.Blames cbs v)
      fun c hc => ?_).mono (fun _ w hw => ?_) fun _ _ hv => hv
    · by_cases listed : c ∈ p.buffers
      · rw [if_neg (not_not_intro listed)]
        exact ⟨rfl, listed⟩
      · rw [if_pos listed]
        exact ⟨rfl, fun ⟨q, hq, all, _⟩ => listed (live hq ▸ all c hc), .inl rfl⟩
    · obtain ⟨rfl, listed⟩ := hw
      rw [Track.ends_bind, Track.ends_ofExcept]
      refine ⟨fun _ hd => ?_, fun v hv => ⟨rfl, fun ⟨_, _, _, once, _⟩ => ?_,
        .inl (CommandTracker.kind_of_checkDistinct [] cbs v hv)⟩⟩
      · have distinct := CommandTracker.ensureDistinct_eq_ok_iff.mp hd
        rw [Track.ends_bind]
        refine (ends_ensureRetired w cbs).mono (fun _ x hx => ?_) fun v x hv =>
          ⟨hv.1, fun ⟨_, _, _, _, retired⟩ => hv.2.1 retired, hv.2.2⟩
        obtain ⟨rfl, retired⟩ := hx
        refine (destroyAll_ends cbs h (fun _ h => h) distinct
          (fun c hc => ⟨h.live_of_listed hp (listed c hc), retired c hc⟩)
          fun c hc b hb => h.own_of_listed hp (listed c hc) hb).mono
          (fun _ _ hu => ⟨⟨p, hp, listed, distinct, retired⟩, hu⟩) fun _ _ h => h.elim
      · have passes : CommandTracker.ensureDistinct cbs = .ok () :=
          CommandTracker.ensureDistinct_eq_ok_iff.mpr once
        rw [passes] at hv
        cases hv
  · refine ⟨hv.1, fun ⟨p, hp, _⟩ => ?_, hv.2.2⟩
    cases hv.2.1.symm.trans hp

/-! ### What becomes of the books -/

/-- A pool is destroyed with its command buffers, which are given up, or not at all. -/
theorem destroyPool_ends (h : t.Sound) (pool : Handle) :
    (destroyPool pool).Ends t (fun owned u => t.PoolRetired pool ∧ Edits owned t u ∧
        (∀ c ∈ owned, t.Retired c) ∧ ∀ g, u.commands.buffers.find? g =
          if g ∈ owned then none else t.commands.buffers.find? g)
      (Track.Refused t) := by
  refine (destroyPool_strikes h pool).mono (fun owned u hu => ?_) fun _ _ hv => ⟨hv.2.2.mild, hv.1⟩
  obtain ⟨idle, rfl, edits, strikes⟩ := hu
  have retired := h.poolRetired idle
  refine ⟨retired, edits, fun c hc => ?_, strikes.buffers⟩
  obtain ⟨p, hp, all⟩ := retired
  rw [poolBuffers_of_live hp, Std.ExtTreeSet.mem_toList] at hc
  exact all c hc

/-- Every command buffer of a pool is made fresh, or none. -/
theorem resetPool_ends (h : t.Sound) (pool : Handle) :
    (resetPool pool).Ends t (fun _ u => t.PoolRetired pool ∧ Edits gone t u)
      (Track.Refused t) :=
  (resetPool_clears gone h pool).mono (fun _ _ hu => ⟨h.poolRetired hu.1, hu.2.1⟩)
    fun _ _ hv => ⟨hv.2.2.mild, hv.1⟩

/-- Command buffers of a pool are destroyed all together or not at all. -/
theorem freeCommandBuffers_ends (h : t.Sound) (pool : Handle) (cbs : List Handle) :
    (freeCommandBuffers pool cbs).Ends t (fun _ u => (∀ c ∈ cbs, t.Retired c) ∧ Edits cbs t u ∧
        ∀ g, u.commands.buffers.find? g =
          if g ∈ cbs then none else t.commands.buffers.find? g)
      (Track.Refused t) := by
  refine (freeCommandBuffers_strikes h pool cbs).mono (fun _ u hu => ?_)
    fun _ _ hv => ⟨hv.2.2.mild, hv.1⟩
  obtain ⟨⟨p, hp, listed, -, retired⟩, edits, strikes⟩ := hu
  exact ⟨fun c hc => ⟨h.live_of_listed hp (listed c hc), retired c hc⟩, edits, strikes.buffers⟩

/-! ## Commands -/

/-- The link of a recording command buffer to a live allocation is entered, unless it
is there already. -/
theorem recordLink_ends (h : t.Sound) {memory : Handle} {m : MemoryObject}
    (hb : t.commands.buffers.find? cb = some b) (recording : b.state = .recording)
    (hm : t.memory.objects.find? memory = some m) :
    (recordLink cb memory).Ends t
      (fun _ u => Edits gone t u ∧ u.resources = t.resources ∧
        ∃ b, u.commands.buffers.find? cb = some b ∧ b.state = .recording)
      fun v u => v.isFatal = true ∧ ¬u.memory.Counted := by
  have passes : t.commands.checkRecording cb = .ok () :=
    CommandTracker.checkRecording_eq_ok_iff.mpr ⟨b, hb, recording⟩
  unfold recordLink
  rw [Track.ends_bind, Track.ends_query, passes, Track.ends_ofExcept_ok, Track.ends_bind,
    Track.ends_discard, onMemory, Track.ends_within]
  refine (MemoryTracker.addCommandBuffer_ends hm (h.linked.tallied memory m hm)).mono
    (fun _ u hu => ?_) fun _ _ hf => hf.1
  rw [Track.ends_modify, hu]
  have after : ∃ b', (t.commands.change cb fun b =>
      { b with memoryRefs := b.memoryRefs.insert memory }).buffers.find? cb = some b' ∧
      b'.state = .recording := by
    rw [CommandTracker.find?_change, if_pos rfl, hb]
    exact ⟨_, rfl, recording⟩
  by_cases old : cb ∈ m.commandBuffers
  · rw [if_pos old]
    refine ⟨?_, rfl, after⟩
    -- The command buffer has the link too, so entering it again changes nothing.
    have same : (t.commands.change cb fun b =>
        { b with memoryRefs := b.memoryRefs.insert memory }) = t.commands := by
      obtain ⟨b', hb', hmem⟩ := (h.linked.touched cb memory).mpr ⟨m, hm, old⟩
      rw [hb] at hb'
      cases hb'
      have insert : b.memoryRefs.insert memory = b.memoryRefs :=
        Std.ExtTreeSet.ext_mem fun g => Handle.mem_insert.trans
          ⟨fun hg => hg.elim (fun he => he ▸ hmem) fun hg => hg, .inr⟩
      refine CommandTracker.ext_find? rfl fun g => ?_
      rw [CommandTracker.find?_change]
      split
      next hg => rw [hg, hb, Option.map_some, insert]
      next _ => rfl
    rw [same]
  · rw [if_neg old]
    exact ⟨.single (.touched hb recording hm old), rfl, after⟩

/-- The allocations that a command touches are those its resources are bound to. -/
theorem boundTo_of_resourcesOf {command : Command} {memory : Handle}
    (hm : memory ∈ (t.resourcesOf command).filterMap fun (_, r) => r.memory?) :
    ∃ r, t.resources.BoundTo r memory := by
  obtain ⟨⟨r, x⟩, hx, hb⟩ := List.mem_filterMap.mp hm
  obtain ⟨u, -, hu⟩ := List.mem_filterMap.mp hx
  rw [Option.map_eq_some_iff] at hu
  obtain ⟨y, hy, he⟩ := hu
  cases he
  refine ⟨u.resource, x, ?_, hb⟩
  cases hl : t.resources.lookup u.resource with
  | error v =>
      rw [hl] at hy
      cases hy
  | ok z =>
      rw [hl] at hy
      cases hy
      exact ResourceTracker.lookup_eq_ok_iff.mp hl

theorem record_ends (h : t.Sound) (cb : Handle) (command : Command) :
    (record cb command).Ends t (fun _ u => Edits gone t u) (Fails t) := by
  unfold record
  refine Track.Asks.before (Track.asks_query fun t => t.commands.mild_checkRecording cb)
    (fun _ hc => ?_) fun _ hv => fails_of_refused hv
  rw [Track.on_query] at hc
  obtain ⟨b, hb, recording⟩ := CommandTracker.checkRecording_eq_ok_iff.mp hc
  refine Track.Asks.before (Track.Asks.forM (fun use => Track.asks_query fun t =>
    t.resources.mild_requireUsage use.resource use.usage) command.uses) (fun _ _ => ?_)
    fun _ hv => fails_of_refused hv
  rw [Track.ends_bind, Track.ends_get]
  refine Track.Asks.before (Track.Asks.forM (fun use => ?_) (t.resourcesOf command))
    (fun _ _ => ?_) fun _ hv => fails_of_refused hv
  · obtain ⟨resource, r⟩ := use
    by_cases unbound : r.binding = .unbound
    · simp only [if_pos unbound]
      exact Track.asks_warn _
    · simp only [if_neg unbound]
      exact Track.asks_pure _
  · refine (Track.Ends.forM_keeps (fun u => Edits gone t u ∧ u.resources = t.resources ∧
        ∃ b, u.commands.buffers.find? cb = some b ∧ b.state = .recording)
      ⟨.refl, rfl, b, hb, recording⟩ fun m hm u hu => ?_).mono (fun _ u hu => hu.1)
      fun _ _ hf => .inr hf
    obtain ⟨edits, hres, b', hb', hrec⟩ := hu
    have hu := h.edits edits
    obtain ⟨r, hr⟩ := boundTo_of_resourcesOf hm
    obtain ⟨x, hx, -⟩ := hu.linked.live (hres.symm ▸ hr)
    refine (recordLink_ends gone hu hb' hrec hx).mono (fun _ v hv => ?_) fun _ _ hf => hf
    obtain ⟨step, hvr, still⟩ := hv
    exact ⟨edits.trans step, hvr.trans hres, still⟩

end GpuAudit.Trackers
