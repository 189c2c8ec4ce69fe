import GpuAudit.CommandBuffer
import GpuAudit.Proofs.Entering

/-!
# Command buffers and their pools

A pool lists the command buffers allocated from it.  `Pooled` says that it lists
live command buffers of its own only, and that a live command buffer that its pool
does not list is as it was allocated: an allocation that stops half way leaves
such command buffers behind.

`Idle` says that a command buffer may be recycled: it is not executable, or its
last submission has retired.
-/

namespace GpuAudit.CommandTracker

variable {t u : CommandTracker} {cb c : Handle} {b : CommandBuffer}

/-! ## The view -/

/-- The commands of a live command buffer touch an allocation. -/
def Touches (t : CommandTracker) (c memory : Handle) : Prop :=
  ∃ b, t.buffers.find? c = some b ∧ memory ∈ b.memoryRefs

/-- A live command buffer is listed by its pool. -/
def Member (t : CommandTracker) (c : Handle) : Prop :=
  ∃ b p, t.buffers.find? c = some b ∧ t.pools.find? b.pool = some p ∧ c ∈ p.buffers

/-- A command buffer may be recycled. -/
def Idle (t : CommandTracker) (queues : QueueTracker) (c : Handle) : Prop :=
  ∀ b, t.buffers.find? c = some b → b.state = .executable → t.isInFlight queues c = false

theorem lookup_eq_ok_iff : t.lookup c = .ok b ↔ t.buffers.find? c = some b :=
  Registry.lookup_eq_ok_iff

theorem pool_eq_ok_iff {p : CommandPool} : t.pool c = .ok p ↔ t.pools.find? c = some p :=
  Registry.lookup_eq_ok_iff

theorem checkRecording_eq_ok_iff {v : Unit} :
    t.checkRecording c = .ok v ↔ ∃ b, t.buffers.find? c = some b ∧ b.state = .recording := by
  unfold checkRecording
  cases hl : t.lookup c with
  | error v =>
      have none : ∀ b, t.buffers.find? c ≠ some b := fun b hb => by
        rw [lookup_eq_ok_iff.mpr hb] at hl
        cases hl
      simp [bind, Except.bind, none]
  | ok b =>
      rw [lookup_eq_ok_iff] at hl
      by_cases hs : b.state = .recording <;> simp [bind, Except.bind, hl, hs]

theorem ensureRetired_eq_ok_iff {queues : QueueTracker} {cbs : List Handle} {v : Unit} :
    t.ensureRetired queues cbs = .ok v ↔ ∀ c ∈ cbs, t.isInFlight queues c = false := by
  have none : (t.inFlight queues cbs).isEmpty = true ↔
      ∀ c ∈ cbs, t.isInFlight queues c = false := by
    rw [inFlight, List.isEmpty_iff, List.filter_eq_nil_iff]
    simp
  rw [← none, ensureRetired]
  by_cases h : (t.inFlight queues cbs).isEmpty = true <;> simp [h]

theorem idle_of_retired {queues : QueueTracker} (h : t.isInFlight queues c = false) :
    t.Idle queues c := fun _ _ _ => h

theorem checkBegin_idle {queues : QueueTracker} {v : Unit} (h : t.checkBegin queues c = .ok v) :
    t.Idle queues c ∧ ∃ b, t.buffers.find? c = some b ∧ b.state ≠ .recording := by
  unfold checkBegin at h
  cases hl : t.lookup c with
  | error w =>
      rw [hl] at h
      cases h
  | ok b =>
      have hb := lookup_eq_ok_iff.mp hl
      simp only [bind, Except.bind, hl] at h
      cases hs : b.state with
      | initial =>
          refine ⟨fun b' hb' he => ?_, b, hb, by rw [hs]; decide⟩
          rw [hb] at hb'
          cases hb'
          rw [hs] at he
          cases he
      | recording =>
          rw [hs] at h
          cases h
      | executable =>
          refine ⟨idle_of_retired ?_, b, hb, by rw [hs]; decide⟩
          rw [hs] at h
          cases hp : t.pool b.pool with
          | error w =>
              simp only [hp] at h
              cases h
          | ok p =>
              simp only [hp] at h
              split at h
              · exact ensureRetired_eq_ok_iff.mp h c List.mem_cons_self
              · cases h

/-- A list that names no handle twice passes. -/
theorem checkDistinct_eq_ok_iff {v : Unit} : ∀ {seen hs : List Handle},
    checkDistinct seen hs = .ok v ↔ hs.Nodup ∧ ∀ h ∈ hs, h ∉ seen
  | _, [] => by simp [checkDistinct]
  | seen, h :: hs => by
      unfold checkDistinct
      split
      next old => simp [old]
      next new =>
        rw [checkDistinct_eq_ok_iff]
        simp only [List.nodup_cons, List.mem_cons, not_or, forall_eq_or_imp]
        constructor
        · intro ⟨nodup, fresh⟩
          exact ⟨⟨fun hm => (fresh h hm).1 rfl, nodup⟩, new, fun k hk => (fresh k hk).2⟩
        · intro ⟨⟨hm, nodup⟩, _, fresh⟩
          exact ⟨nodup, fun k hk => ⟨fun he => hm (he ▸ hk), fresh k hk⟩⟩

theorem ensureDistinct_eq_ok_iff {hs : List Handle} {v : Unit} :
    ensureDistinct hs = .ok v ↔ hs.Nodup := by
  unfold ensureDistinct
  rw [checkDistinct_eq_ok_iff]
  simp

/-! ## Changes of one record -/

@[simp] theorem find?_change (f : CommandBuffer → CommandBuffer) (g : Handle) :
    (t.change cb f).buffers.find? g =
      if g = cb then (t.buffers.find? g).map f else t.buffers.find? g :=
  Registry.find?_modify ..

@[simp] theorem pools_change (f : CommandBuffer → CommandBuffer) :
    (t.change cb f).pools = t.pools := rfl

theorem ext_find? (hp : t.pools = u.pools) (hb : ∀ g, t.buffers.find? g = u.buffers.find? g) :
    t = u := by
  cases t
  cases u
  cases hp
  exact congrArg (mk _) (Registry.ext hb)

theorem change_change (f g : CommandBuffer → CommandBuffer) :
    (t.change cb f).change cb g = t.change cb (g ∘ f) := by
  refine ext_find? rfl fun k => ?_
  simp only [find?_change]
  split <;> simp

/-- A change that empties the memory references releases the links of one command buffer. -/
theorem touches_change_of_empty {f : CommandBuffer → CommandBuffer}
    (hf : ∀ b, (f b).memoryRefs = ∅) {memory : Handle} :
    (t.change cb f).Touches c memory ↔ c ≠ cb ∧ t.Touches c memory := by
  unfold Touches
  rw [find?_change]
  split
  next he => simp [he, hf]
  next he => simp [he]

theorem touches_change {f : CommandBuffer → CommandBuffer} (hb : t.buffers.find? cb = some b)
    {memory : Handle} :
    (t.change cb f).Touches c memory ↔
      if c = cb then memory ∈ (f b).memoryRefs else t.Touches c memory := by
  unfold Touches
  rw [find?_change]
  split
  next he => simp [he, hb]
  next he => exact Iff.rfl

theorem member_change {f : CommandBuffer → CommandBuffer} (hf : ∀ b, (f b).pool = b.pool) :
    (t.change cb f).Member c ↔ t.Member c := by
  unfold Member
  rw [find?_change, pools_change]
  split
  · cases t.buffers.find? c with
    | none => simp
    | some b => simp [hf]
  · exact Iff.rfl

theorem Member.change (h : t.Member c) {f : CommandBuffer → CommandBuffer}
    (hf : ∀ b, (f b).pool = b.pool) : (t.change cb f).Member c := (member_change hf).mpr h

/-! ## Pools -/

/-- Pools list live command buffers of their own, and a live command buffer that its
pool does not list is as it was allocated. -/
structure Pooled (t : CommandTracker) : Prop where
  /-- What a pool lists is live and belongs to it. -/
  listed : ∀ p pool c, t.pools.find? p = some pool → c ∈ pool.buffers →
    ∃ b, t.buffers.find? c = some b ∧ b.pool = p
  /-- What is live is listed by its pool or as it was allocated. -/
  pooled : ∀ c b, t.buffers.find? c = some b → t.Member c ∨ b = .fresh b.pool
  /-- Only executable command buffers have been submitted. -/
  submitted : ∀ c b, t.buffers.find? c = some b → b.lastSubmission ≠ none → b.state = .executable

theorem pooled_empty : empty.Pooled := by
  constructor
  · intro p pool c hp
    simp [empty] at hp
  · intro c b hb
    simp [empty] at hb
  · intro c b hb
    simp [empty] at hb

/-- What is not as it was allocated is listed by its pool. -/
theorem Pooled.member (h : t.Pooled) (hb : t.buffers.find? c = some b) (hs : b.state ≠ .initial) :
    t.Member c := by
  refine (h.pooled c b hb).resolve_right fun he => hs ?_
  rw [he]
  rfl

/-- A change of a listed command buffer keeps the pools as they should be; so does one
that makes a command buffer fresh. -/
theorem Pooled.change (h : t.Pooled) {f : CommandBuffer → CommandBuffer}
    (pool : ∀ b, (f b).pool = b.pool)
    (listed : t.Member cb ∨ ∀ b, t.buffers.find? cb = some b → f b = .fresh b.pool)
    (submitted : ∀ b, t.buffers.find? cb = some b → (f b).lastSubmission ≠ none →
      (f b).state = .executable) : (t.change cb f).Pooled := by
  constructor
  · intro p cp c hp hc
    obtain ⟨b, hb, he⟩ := h.listed p cp c hp hc
    rw [find?_change]
    split
    next hcb => exact ⟨f b, by rw [hb, Option.map_some], (pool b).trans he⟩
    next hcb => exact ⟨b, hb, he⟩
  · intro c b hb
    rw [member_change pool]
    rw [find?_change] at hb
    split at hb
    next hcb =>
      rw [Option.map_eq_some_iff] at hb
      obtain ⟨b', hb', rfl⟩ := hb
      subst hcb
      refine listed.imp_right fun hf => ?_
      rw [pool b', hf b' hb']
    next hcb => exact h.pooled c b hb
  · intro c b hb hs
    rw [find?_change] at hb
    split at hb
    next hcb =>
      rw [Option.map_eq_some_iff] at hb
      obtain ⟨b', hb', rfl⟩ := hb
      exact submitted b' (hcb ▸ hb') hs
    next hcb => exact h.submitted c b hb hs

section Pools

variable {pool : Handle} {p : CommandPool} {pools : Registry .commandPool CommandPool}
  {buffers : Registry .commandBuffer CommandBuffer}

theorem Member.makePool (h : t.Member c) {flags : CommandPoolFlags}
    (new : t.pools.find? pool = none)
    (view : ∀ g, pools.find? g = if g = pool then some ⟨flags, ∅⟩ else t.pools.find? g) :
    ({ t with pools } : CommandTracker).Member c := by
  obtain ⟨b, p, hb, hp, hc⟩ := h
  have hne : b.pool ≠ pool := fun he => by
    rw [he, new] at hp
    cases hp
  exact ⟨b, p, hb, (view b.pool).trans (by rw [if_neg hne, hp]), hc⟩

theorem Pooled.makePool (h : t.Pooled) {flags : CommandPoolFlags}
    (new : t.pools.find? pool = none)
    (view : ∀ g, pools.find? g = if g = pool then some ⟨flags, ∅⟩ else t.pools.find? g) :
    ({ t with pools } : CommandTracker).Pooled := by
  constructor
  · intro q cp c hq hc
    rw [view] at hq
    split at hq
    next _ =>
      cases hq
      exact absurd hc Std.ExtTreeSet.not_mem_empty
    next _ => exact h.listed q cp c hq hc
  · intro c b hb
    exact (h.pooled c b hb).imp_left fun hm => hm.makePool new view
  · exact h.submitted

theorem Member.removePool (h : t.Member c) (old : t.pools.find? pool = some p)
    (empty : ∀ c, c ∉ p.buffers)
    (view : ∀ g, pools.find? g = if g = pool then none else t.pools.find? g) :
    ({ t with pools } : CommandTracker).Member c := by
  obtain ⟨b, q, hb, hq, hc⟩ := h
  have hne : b.pool ≠ pool := fun he => by
    rw [he, old] at hq
    cases hq
    exact empty c hc
  exact ⟨b, q, hb, (view b.pool).trans (by rw [if_neg hne, hq]), hc⟩

theorem Pooled.removePool (h : t.Pooled) (old : t.pools.find? pool = some p)
    (empty : ∀ c, c ∉ p.buffers)
    (view : ∀ g, pools.find? g = if g = pool then none else t.pools.find? g) :
    ({ t with pools } : CommandTracker).Pooled := by
  constructor
  · intro q cp c hq hc
    rw [view] at hq
    split at hq
    next _ => cases hq
    next _ => exact h.listed q cp c hq hc
  · intro c b hb
    exact (h.pooled c b hb).imp_left fun hm => hm.removePool old empty view
  · exact h.submitted

theorem Member.enter (h : t.Member c) (new : t.buffers.find? cb = none)
    (view : ∀ g, buffers.find? g = if g = cb then some (.fresh pool) else t.buffers.find? g) :
    ({ t with buffers } : CommandTracker).Member c := by
  obtain ⟨b, p, hb, hp, hc⟩ := h
  have hne : c ≠ cb := fun he => by
    rw [he, new] at hb
    cases hb
  exact ⟨b, p, (view c).trans (by rw [if_neg hne, hb]), hp, hc⟩

theorem Pooled.enter (h : t.Pooled) (new : t.buffers.find? cb = none)
    (view : ∀ g, buffers.find? g = if g = cb then some (.fresh pool) else t.buffers.find? g) :
    ({ t with buffers } : CommandTracker).Pooled := by
  constructor
  · intro q cp c hq hc
    obtain ⟨b, hb, he⟩ := h.listed q cp c hq hc
    have hne : c ≠ cb := fun he => by
      rw [he, new] at hb
      cases hb
    exact ⟨b, (view c).trans (by rw [if_neg hne, hb]), he⟩
  · intro c b hb
    rw [view] at hb
    split at hb
    next _ =>
      cases hb
      exact .inr rfl
    next _ => exact (h.pooled c b hb).imp_left fun hm => hm.enter new view
  · intro c b hb hs
    rw [view] at hb
    split at hb
    next _ =>
      cases hb
      exact absurd rfl hs
    next _ => exact h.submitted c b hb hs

variable {cbs : List Handle}

theorem Member.enroll (h : t.Member c) :
    ({ t with pools := t.pools.modify pool fun p =>
        { p with buffers := p.buffers.insertMany cbs } } : CommandTracker).Member c := by
  obtain ⟨b, p, hb, hp, hc⟩ := h
  unfold Member
  simp only [Registry.find?_modify]
  by_cases he : b.pool = pool
  · refine ⟨b, _, hb, by rw [if_pos he, hp, Option.map_some], ?_⟩
    exact Handle.mem_insertMany.mpr (.inl hc)
  · exact ⟨b, p, hb, by rw [if_neg he, hp], hc⟩

theorem Pooled.enroll (h : t.Pooled)
    (own : ∀ c ∈ cbs, ∃ b, t.buffers.find? c = some b ∧ b.pool = pool) :
    ({ t with pools := t.pools.modify pool fun p =>
        { p with buffers := p.buffers.insertMany cbs } } : CommandTracker).Pooled := by
  constructor
  · intro q cp c hq hc
    rw [Registry.find?_modify] at hq
    split at hq
    next hqp =>
      rw [Option.map_eq_some_iff] at hq
      obtain ⟨p, hp, rfl⟩ := hq
      rcases Handle.mem_insertMany.mp hc with hc | hc
      · exact h.listed q p c hp hc
      · exact hqp ▸ own c hc
    next _ => exact h.listed q cp c hq hc
  · intro c b hb
    exact (h.pooled c b hb).imp_left fun hm => hm.enroll
  · exact h.submitted

theorem Member.strike (h : t.Member c) (hc : c ≠ cb)
    (view : ∀ g, buffers.find? g = if g = cb then none else t.buffers.find? g) :
    (⟨t.pools.modify pool fun p => { p with buffers := p.buffers.erase cb }, buffers⟩ :
      CommandTracker).Member c := by
  obtain ⟨b, p, hb, hp, hm⟩ := h
  unfold Member
  simp only [Registry.find?_modify, view, if_neg hc]
  by_cases he : b.pool = pool
  · refine ⟨b, _, hb, by rw [if_pos he, hp, Option.map_some], ?_⟩
    exact Handle.mem_erase.mpr ⟨hc, hm⟩
  · exact ⟨b, p, hb, by rw [if_neg he, hp], hm⟩

theorem Pooled.strike (h : t.Pooled) (old : t.buffers.find? cb = some b)
    (view : ∀ g, buffers.find? g = if g = cb then none else t.buffers.find? g) :
    (⟨t.pools.modify b.pool fun p => { p with buffers := p.buffers.erase cb }, buffers⟩ :
      CommandTracker).Pooled := by
  constructor
  · intro q cp c hq hc
    have ⟨p, hp, hcp, hne⟩ : ∃ p, t.pools.find? q = some p ∧ c ∈ p.buffers ∧ c ≠ cb := by
      rw [Registry.find?_modify] at hq
      split at hq
      next _ =>
        rw [Option.map_eq_some_iff] at hq
        obtain ⟨p, hp, rfl⟩ := hq
        have := Handle.mem_erase.mp hc
        exact ⟨p, hp, this.2, this.1⟩
      next hqb =>
        refine ⟨cp, hq, hc, fun he => hqb ?_⟩
        obtain ⟨b', hb', hpool⟩ := h.listed q cp c hq hc
        rw [he, old] at hb'
        cases hb'
        exact hpool.symm
    obtain ⟨b', hb', hpool⟩ := h.listed q p c hp hcp
    exact ⟨b', (view c).trans (by rw [if_neg hne, hb']), hpool⟩
  · intro c b' hb'
    rw [view] at hb'
    split at hb'
    next _ => cases hb'
    next hne => exact (h.pooled c b' hb').imp_left fun hm => hm.strike hne view
  · intro c b' hb' hs
    rw [view] at hb'
    split at hb'
    next _ => cases hb'
    next _ => exact h.submitted c b' hb' hs

end Pools

/-! ## Allocation -/

section Allocation

/-- Command buffers that may be entered in a pool, as far as the books are asked before the
first is entered. -/
structure Expects (t : CommandTracker) (pool : Handle) (cbs : List Handle) : Prop where
  /-- The pool is live. -/
  live : ∃ p, t.pools.find? pool = some p
  /-- None is listed twice. -/
  distinct : cbs.Nodup
  /-- None is live. -/
  new : ∀ cb ∈ cbs, t.buffers.find? cb = none

theorem expects_of_admitsAll {pool : Handle} {cbs : List Handle}
    (live : ∃ p, t.pools.find? pool = some p) (all : t.buffers.AdmitsAll cbs) :
    t.Expects pool cbs := ⟨live, all.1, fun cb hc => (all.2 cb hc).2⟩

/-- Command buffers are entered and listed by their pool, or none of them is, or those
before one that cannot be entered, and no pool lists these. -/
theorem allocate_enters (t : CommandTracker) (pool : Handle) (cbs : List Handle) :
    (allocate pool cbs).Ends t
      (fun _ u => (t.Expects pool cbs ∧ t.buffers.AdmitsAll cbs) ∧
        ∃ buffers, t.buffers.Entered (.fresh pool) cbs buffers ∧
          u = ⟨t.pools.modify pool fun p => { p with buffers := p.buffers.insertMany cbs }, buffers⟩)
      fun v u => v.toDiagnostic.severity = .error ∧
        (u = t ∧ ¬t.Expects pool cbs ∨ t.Expects pool cbs ∧
          ∃ buffers, t.buffers.Stopped (.fresh pool) cbs buffers ∧ u = { t with buffers }) := by
  unfold allocate
  rw [Track.ends_bind, Track.ends_discard, Track.ends_query, Track.ends_ofExcept]
  refine ⟨fun p hp => ?_, fun v hv => ⟨t.strict_pool pool v hv, .inl ⟨rfl, fun e => ?_⟩⟩⟩
  · have hp := pool_eq_ok_iff.mp hp
    rw [Track.ends_bind, Track.ends_ofExcept]
    refine ⟨fun _ hd => ?_, fun v hv =>
      ⟨strict_ensureDistinct cbs v hv, .inl ⟨rfl, fun e => ?_⟩⟩⟩
    · have distinct := ensureDistinct_eq_ok_iff.mp hd
      rw [Track.ends_bind, Track.ends_get, Track.ends_bind]
      refine (Track.ends_forM_checks cbs (fun cb => t.buffers.find? cb = none)
        (fun v u => v.toDiagnostic.severity = .error ∧ u = t ∧ ¬t.Expects pool cbs)
        fun cb hc => ?_).mono (fun _ u hu => ?_) fun v u hv => ⟨hv.1, .inl hv.2⟩
      · unfold contains
        rw [Registry.contains_eq_isSome]
        split
        next live => exact ⟨rfl, rfl, fun e => by simp [e.new cb hc] at live⟩
        next new => exact ⟨rfl, Option.not_isSome_iff_eq_none.mp new⟩
      · obtain ⟨rfl, new⟩ := hu
        have expects : u.Expects pool cbs := ⟨⟨p, hp⟩, distinct, new⟩
        rw [Track.ends_bind]
        refine (Registry.enterAll_ends (fun t : CommandTracker => t.buffers)
          (fun t buffers => { t with buffers }) rfl (fun _ _ => rfl) (fun _ _ _ => rfl) cbs).mono
          (fun _ w hb => ?_) fun v w hv => ?_
        · obtain ⟨all, buffers, rfl, entered⟩ := hb
          exact ⟨⟨expects, all⟩, buffers, entered, rfl⟩
        · obtain ⟨error, buffers, rfl, stopped⟩ := hv
          exact ⟨error, .inr ⟨expects, buffers, stopped, rfl⟩⟩
    · have once : ensureDistinct cbs = .ok () := ensureDistinct_eq_ok_iff.mpr e.distinct
      rw [once] at hv
      cases hv
  · rw [pool_eq_ok_iff.mpr e.live.choose_spec] at hv
    cases hv

end Allocation

end GpuAudit.CommandTracker
