import GpuAudit.Proofs.Consistency

/-!
# Operations on whole pools

A pool is destroyed or reset with all of its command buffers, or some of them are freed.
Each of the three operations checks every command buffer it is about before it changes the
first one, and no change can fail where links are entered on both sides.  So in every
session whose books agree the operation is `Exactly` what it is for: it does all of it
exactly if the check passes, and otherwise changes nothing and names what is in flight.

The operations go by what the pool lists (`poolBuffers`).  The records of command buffers say
too which pool they are from (`ofPool`), and an allocation that stops half way leaves command
buffers that name a pool and are not listed by it.  `HandlesPool` says that the operations
are exact for given command buffers.  They are for what the pool lists, and for what names
the pool exactly if the pool lists all of it (`poolOperations_iff`).

What is released is read off the allocations: one that lost command buffers has lost as
many counts, and nothing else (`MemoryObject.Releases`).
-/

namespace GpuAudit

/-! ## Released links -/

namespace MemoryObject

variable {m m' : MemoryObject} {cbs : List Handle}

/-- Exactly the links of some command buffers are released, and counted off. -/
structure Releases (cbs : List Handle) (m m' : MemoryObject) : Prop where
  /-- Other command buffers keep their links. -/
  users : ∀ c, c ∈ m'.commandBuffers ↔ c ∈ m.commandBuffers ∧ c ∉ cbs
  /-- Each link is counted off. -/
  count : m'.refCount + cbs.countP (· ∈ m.commandBuffers) = m.refCount
  /-- The rest of the record stays. -/
  rest : m' = { m with refCount := m'.refCount, commandBuffers := m'.commandBuffers }

theorem releases_without (tallied : m.Tallied) (c : Handle) : m.Releases [c] (m.without c) := by
  refine ⟨fun k => ?_, ?_, ?_⟩
  · rw [mem_commandBuffers_without, List.mem_singleton, and_comm]
  · rw [List.countP_singleton]
    unfold without release
    by_cases linked : c ∈ m.commandBuffers
    · have counted : m.refCount = m.links := tallied
      have links := links_pos_of_used linked
      simp only [linked, if_true, decide_true]
      omega
    · simp [linked]
  · unfold without release
    split
    · rfl
    · rfl

/-- Links are released one command buffer after another. -/
theorem Releases.cons {c : Handle} {n : MemoryObject} (first : m.Releases [c] n)
    (later : n.Releases cbs m') (new : c ∉ cbs) : m.Releases (c :: cbs) m' := by
  refine ⟨fun k => ?_, ?_, ?_⟩
  · rw [later.users, first.users, List.mem_singleton, List.mem_cons, not_or, and_assoc]
  · have others : cbs.countP (· ∈ n.commandBuffers) = cbs.countP (· ∈ m.commandBuffers) := by
      refine List.countP_congr fun k hk => ?_
      have apart : k ∉ [c] := fun here => new (List.mem_singleton.mp here ▸ hk)
      simp [first.users, apart]
    have one := first.count
    have rest := later.count
    rw [List.countP_singleton] at one
    rw [List.countP_cons, ← others]
    omega
  · rw [later.rest, first.rest]

theorem releases_foldl (tallied : m.Tallied) (distinct : cbs.Nodup) :
    m.Releases cbs (cbs.foldl (·.without ·) m) := by
  induction cbs generalizing m with
  | nil => exact ⟨fun k => by simp, by simp, rfl⟩
  | cons c cbs ih =>
      have apart := List.nodup_cons.mp distinct
      exact (releases_without tallied c).cons (ih (tallied.without c) apart.2) apart.1

end MemoryObject

namespace MemoryTracker

variable {t : MemoryTracker} {cbs : List Handle}

/-- Exactly the links of some command buffers are released, in every allocation. -/
def Releases (cbs : List Handle) (t u : MemoryTracker) : Prop :=
  ∀ g, Option.Rel (MemoryObject.Releases cbs) (t.objects.find? g) (u.objects.find? g)

theorem find?_foldl_forget (g : Handle) :
    (cbs.foldl forget t).objects.find? g =
      (t.objects.find? g).map fun m => cbs.foldl (·.without ·) m := by
  induction cbs generalizing t with
  | nil => simp
  | cons c cbs ih =>
      rw [List.foldl_cons, ih, find?_forget, Option.map_map]
      rfl

theorem releases_forget (tallied : t.Tallied) (distinct : cbs.Nodup) :
    t.Releases cbs (cbs.foldl forget t) := by
  intro g
  rw [find?_foldl_forget]
  cases hm : t.objects.find? g with
  | none => exact .none
  | some m => exact .some (MemoryObject.releases_foldl (tallied g m hm) distinct)

end MemoryTracker

/-! ## Pools -/

namespace Trackers

variable {t : Trackers} {pool : Handle}

theorem nodup_poolBuffers (t : Trackers) (pool : Handle) : (t.poolBuffers pool).Nodup := by
  unfold poolBuffers
  cases t.commands.pools.find? pool with
  | none => exact List.nodup_nil
  | some p => exact Handle.nodup_toList p.buffers

theorem ascending_poolBuffers (t : Trackers) (pool : Handle) :
    (t.poolBuffers pool).Pairwise fun g h => compare g h = .lt := by
  unfold poolBuffers
  cases t.commands.pools.find? pool with
  | none => exact .nil
  | some p => exact Std.ExtTreeSet.ordered_toList

theorem Sound.releases (h : t.Sound) {cbs : List Handle} {u : Trackers} (frees : t.Frees cbs u)
    (distinct : cbs.Nodup) : t.memory.Releases cbs u.memory := by
  rw [frees.memory]
  exact MemoryTracker.releases_forget h.linked.tallied distinct

/-! ## Whose command buffers -/

/-- The command buffers whose records name a pool, in ascending order. -/
def ofPool (t : Trackers) (pool : Handle) : List Handle :=
  (Std.ExtTreeSet.ofList ((t.commands.buffers.entries.filter (·.2.pool = pool)).map (·.1))
    compare).toList

theorem mem_ofPool {c : Handle} : c ∈ t.ofPool pool ↔
    ∃ b, t.commands.buffers.find? c = some b ∧ b.pool = pool := by
  unfold ofPool
  rw [Std.ExtTreeSet.mem_toList, Handle.mem_ofList, List.mem_map]
  constructor
  · rintro ⟨⟨c, b⟩, he, rfl⟩
    obtain ⟨he, own⟩ := List.mem_filter.mp he
    exact ⟨b, Registry.mem_entries.mp he, of_decide_eq_true own⟩
  · rintro ⟨b, hb, own⟩
    exact ⟨(c, b), List.mem_filter.mpr ⟨Registry.mem_entries.mpr hb, decide_eq_true own⟩, rfl⟩

theorem ascending_ofPool (t : Trackers) (pool : Handle) :
    (t.ofPool pool).Pairwise fun g h => compare g h = .lt := Std.ExtTreeSet.ordered_toList

/-- A pool lists all command buffers whose records name it, if it is live. -/
def ListsOwn (t : Trackers) (pool : Handle) : Prop :=
  ∀ p, t.commands.pools.find? pool = some p → ∀ c ∈ t.ofPool pool, c ∈ p.buffers

/-- What a live pool lists is then what names it. -/
theorem Sound.ofPool_eq (h : t.Sound) (lists : t.ListsOwn pool) {p : CommandPool}
    (hp : t.commands.pools.find? pool = some p) : t.ofPool pool = t.poolBuffers pool := by
  rw [poolBuffers_of_live hp]
  refine congrArg Std.ExtTreeSet.toList (Std.ExtTreeSet.ext_mem fun c => ?_)
  rw [← Std.ExtTreeSet.mem_toList]
  refine ⟨fun hc => lists p hp c hc, fun hc => mem_ofPool.mpr ?_⟩
  exact h.pooled.listed pool p c hp hc

/-- A live pool, and command buffers of which none is in flight. -/
def IdleWith (t : Trackers) (pool : Handle) (owned : List Handle) : Prop :=
  (∃ p, t.commands.pools.find? pool = some p) ∧
    ∀ c ∈ owned, t.commands.isInFlight t.queues c = false

/-- Command buffers of a live pool, each listed once and none in flight. -/
def FreesFrom (t : Trackers) (pool : Handle) (owned cbs : List Handle) : Prop :=
  t.IdleWith pool cbs ∧ (∀ c ∈ cbs, c ∈ owned) ∧ cbs.Nodup

theorem idleWith_iff : t.IdleWith pool (t.poolBuffers pool) ↔ t.PoolIdle pool := by
  constructor
  · rintro ⟨⟨p, hp⟩, retired⟩
    rw [poolBuffers_of_live hp] at retired
    exact ⟨p, hp, fun c hc => retired c (Std.ExtTreeSet.mem_toList.mpr hc)⟩
  · rintro ⟨p, hp, retired⟩
    rw [poolBuffers_of_live hp]
    exact ⟨⟨p, hp⟩, fun c hc => retired c (Std.ExtTreeSet.mem_toList.mp hc)⟩

theorem freesFrom_iff {cbs : List Handle} :
    t.FreesFrom pool (t.poolBuffers pool) cbs ↔ t.MayFree pool cbs := by
  constructor
  · rintro ⟨⟨⟨p, hp⟩, retired⟩, listed, distinct⟩
    rw [poolBuffers_of_live hp] at listed
    exact ⟨p, hp, fun c hc => Std.ExtTreeSet.mem_toList.mp (listed c hc), distinct, retired⟩
  · rintro ⟨p, hp, listed, distinct, retired⟩
    rw [poolBuffers_of_live hp]
    exact ⟨⟨⟨p, hp⟩, retired⟩, fun c hc => Std.ExtTreeSet.mem_toList.mpr (listed c hc), distinct⟩

/-! ## Exact operations -/

/-- The operations on a pool are exactly what they are for, if these are its command
buffers. -/
structure HandlesPool (t : Trackers) (pool : Handle) (owned : List Handle) : Prop where
  /-- They come in ascending order. -/
  ascending : owned.Pairwise fun g h => compare g h = .lt
  /-- The pool is destroyed with all of them, which are the answer, exactly if it is live and
  none of them is in flight. -/
  destroys : (destroyPool pool).Exactly t (t.IdleWith pool owned) (t.Blames owned) fun answer u =>
    answer = owned ∧ t.StrikesPool pool owned u ∧ t.memory.Releases owned u.memory
  /-- All of them are made fresh, exactly if the pool is live and none of them is in flight. -/
  resets : (resetPool pool).Exactly t (t.IdleWith pool owned) (t.Blames owned) fun _ u =>
    t.Clears owned u ∧ t.memory.Releases owned u.memory
  /-- Some are struck out, exactly if the pool is live, all are among them and each is listed
  once, and none of those is in flight. -/
  frees : ∀ cbs, (freeCommandBuffers pool cbs).Exactly t (t.FreesFrom pool owned cbs)
    (t.Blames cbs) fun _ u => t.Strikes pool cbs u ∧ t.memory.Releases cbs u.memory

/-- Where the books agree, the operations on a pool are exact for what it lists. -/
theorem Sound.handlesPool (h : t.Sound) (pool : Handle) :
    t.HandlesPool pool (t.poolBuffers pool) where
  ascending := t.ascending_poolBuffers pool
  destroys := by
    unfold Track.Exactly
    rw [idleWith_iff]
    refine (destroyPool_strikes h pool).mono (fun _ _ hu => ?_) fun _ _ hv => hv
    obtain ⟨idle, same, -, strikes⟩ := hu
    exact ⟨idle, same, strikes, h.releases strikes.toFrees (t.nodup_poolBuffers pool)⟩
  resets := by
    unfold Track.Exactly
    rw [idleWith_iff]
    refine (resetPool_clears [] h pool).mono (fun _ _ hu => ?_) fun _ _ hv => hv
    obtain ⟨idle, -, clears⟩ := hu
    exact ⟨idle, clears, h.releases clears.toFrees (t.nodup_poolBuffers pool)⟩
  frees cbs := by
    unfold Track.Exactly
    rw [freesFrom_iff]
    refine (freeCommandBuffers_strikes h pool cbs).mono (fun _ _ hu => ?_) fun _ _ hv => hv
    obtain ⟨⟨p, hp, listed, distinct, retired⟩, -, strikes⟩ := hu
    exact ⟨⟨p, hp, listed, distinct, retired⟩, strikes, h.releases strikes.toFrees distinct⟩

/-- Where a pool is not live, nothing can be done with it, whatever its command buffers are. -/
theorem HandlesPool.of_dead {owned owned' : List Handle} (h : t.HandlesPool pool owned)
    (dead : t.commands.pools.find? pool = none) (none : owned = [])
    (ascending : owned'.Pairwise fun g h => compare g h = .lt) : t.HandlesPool pool owned' := by
  have idle : ∀ cbs, ¬t.IdleWith pool cbs := fun cbs ⟨⟨p, hp⟩, _⟩ => by
    rw [dead] at hp
    cases hp
  -- Nothing is in flight of no command buffers.
  have blames : ∀ v, t.Blames owned v → t.Blames owned' v := fun v hv =>
    .inl (hv.resolve_right fun flying => flying.1 (by rw [none]; rfl))
  exact ⟨ascending, h.destroys.congr (iff_of_false (idle owned') (idle owned)) (fun v _ => blames v)
      fun _ _ may => absurd may (idle owned),
    h.resets.congr (iff_of_false (idle owned') (idle owned)) (fun v _ => blames v)
      fun _ _ may => absurd may (idle owned),
    fun cbs => (h.frees cbs).congr (iff_of_false (fun may => idle cbs may.1) fun may => idle cbs may.1)
      (fun _ _ hv => hv) fun _ _ may => absurd may.1 (idle cbs)⟩

/-- The operations on a pool are exact for what names it exactly if it lists all of that. -/
theorem Sound.handlesPool_iff (h : t.Sound) (pool : Handle) :
    t.HandlesPool pool (t.ofPool pool) ↔ t.ListsOwn pool := by
  constructor
  · intro whole p hp c hc
    obtain ⟨b, hb, own⟩ := mem_ofPool.mp hc
    rcases h.pooled.pooled c b hb with ⟨b', q, hb', hq, listed⟩ | fresh
    · cases hb.symm.trans hb'
      rw [own, hp] at hq
      cases hq
      exact listed
    · -- It has never been submitted, so it may be freed; then the pool lists it.
      have retired : t.commands.isInFlight t.queues c = false := by
        unfold CommandTracker.isInFlight
        rw [hb, fresh]
        rfl
      have may : t.FreesFrom pool (t.ofPool pool) [c] :=
        ⟨⟨⟨p, hp⟩, by simpa using retired⟩, by simpa using hc, List.nodup_singleton c⟩
      have listed := ((whole.frees [c]).may_iff ((h.handlesPool pool).frees [c])).mp may
      obtain ⟨q, hq, all, -⟩ := freesFrom_iff.mp listed
      cases hp.symm.trans hq
      exact all c (List.mem_singleton_self c)
  · intro lists
    have first := h.handlesPool pool
    cases hp : t.commands.pools.find? pool with
    | none =>
        refine first.of_dead hp ?_ (t.ascending_ofPool pool)
        unfold poolBuffers
        rw [hp]
        rfl
    | some p => rwa [h.ofPool_eq lists hp]

end Trackers

namespace Layer

variable {l : Layer} {config : Config} {device : Handle} {session : Session}

/-- An allocation of two command buffers stops at the second. -/
def halfAllocated : List Hook :=
  [.post (.createDevice ⟨1, .device⟩) .success,
   .post (.createCommandPool ⟨1, .device⟩ ⟨2, .commandPool⟩ .empty) .success,
   .post (.allocateCommandBuffers ⟨1, .device⟩ ⟨2, .commandPool⟩
     [⟨3, .commandBuffer⟩, ⟨0, .commandBuffer⟩]) .success]

end Layer

end GpuAudit
