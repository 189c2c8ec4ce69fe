import GpuAudit.Proofs.CommandBuffer

/-!
# Allocations of command buffers

An allocation asks whether its pool is live, whether a handle is listed twice and whether
one is live already, and then enters the command buffers one after another.  The entry asks
for more: that the handle can name a command buffer.  Nobody asks for that before the first
entry, so an allocation may stop half way, and its pool lists nothing of what it has entered
by then.

The first handle of a list decides.  If it cannot be entered, nothing has been changed.  If
it can, the allocation is all or nothing exactly if the others can be entered too
(`allocatesWhole_iff`).
-/

namespace GpuAudit.CommandTracker

variable {t u : CommandTracker} {pool : Handle} {cbs : List Handle}

/-- Every live command buffer is listed by its pool. -/
def AllMembers (t : CommandTracker) : Prop := ∀ c b, t.buffers.find? c = some b → t.Member c

instance (t : CommandTracker) (c : Handle) : Decidable (t.Member c) :=
  decidable_of_iff (∃ b ∈ t.buffers.find? c, ∃ p ∈ t.pools.find? b.pool, c ∈ p.buffers)
    ⟨fun ⟨b, hb, p, hp, hc⟩ => ⟨b, p, hb, hp, hc⟩, fun ⟨b, p, hb, hp, hc⟩ => ⟨b, hb, p, hp, hc⟩⟩

instance (t : CommandTracker) : Decidable t.AllMembers :=
  inferInstanceAs (Decidable (∀ c b, t.buffers.find? c = some b → t.Member c))

/-- Command buffers are allocated all at once or not at all. -/
structure AllocatesWhole (t : CommandTracker) (pool : Handle) (cbs : List Handle) : Prop where
  /-- An allocation that fails changes nothing. -/
  refused : ∀ v, ((allocate pool cbs).on t).value = .error v →
    ((allocate pool cbs).on t).state = t
  /-- An allocation that succeeds enters the command buffers, initial and of the pool. -/
  entered : ((allocate pool cbs).on t).value = .ok () →
    t.buffers.Entered (.fresh pool) cbs ((allocate pool cbs).on t).state.buffers
  /-- The pool lists them too, and the other pools stay. -/
  enrolled : ((allocate pool cbs).on t).value = .ok () →
    ∃ p, t.pools.find? pool = some p ∧
      ∀ g, ((allocate pool cbs).on t).state.pools.find? g =
        if g = pool then some { p with buffers := p.buffers.insertMany cbs } else t.pools.find? g
  /-- No command buffer is live that its pool does not list, if there was none. -/
  members : t.AllMembers → ((allocate pool cbs).on t).state.AllMembers

/-- Command buffers that are entered and listed leave none that is not listed. -/
theorem AllMembers.allocated (h : t.AllMembers) {p : CommandPool}
    (hp : t.pools.find? pool = some p) {buffers : Registry .commandBuffer CommandBuffer}
    (entered : t.buffers.Entered (.fresh pool) cbs buffers) :
    AllMembers ⟨t.pools.modify pool fun p => { p with buffers := p.buffers.insertMany cbs },
      buffers⟩ := by
  intro c b hb
  have view := entered c
  split at view
  next new =>
    refine ⟨.fresh pool, { p with buffers := p.buffers.insertMany cbs }, view, ?_,
      Handle.mem_insertMany.mpr (.inr new)⟩
    show (t.pools.modify pool _).find? pool = _
    rw [Registry.find?_modify, if_pos rfl, hp, Option.map_some]
  next =>
    have listed : CommandTracker.Member { t with pools := t.pools.modify pool fun p =>
        { p with buffers := p.buffers.insertMany cbs } } c := (h c b (view ▸ hb)).enroll
    obtain ⟨b', q, hb', hq, hc⟩ := listed
    exact ⟨b', q, view.trans hb', hq, hc⟩

/-- An allocation is all or nothing exactly if every handle of its list can name a command
buffer, whenever the pool and the list are as they should be, and the first handle can. -/
theorem allocatesWhole_iff : t.AllocatesWhole pool cbs ↔
    (t.Expects pool cbs → (∀ c, cbs.head? = some c → c.Names .commandBuffer) →
      ∀ c ∈ cbs, c.Names .commandBuffer) := by
  have ends := t.allocate_enters pool cbs
  constructor
  · intro whole expects first
    cases ha : ((allocate pool cbs).on t).value with
    | ok _ => exact fun c hc => ((ends.good_of_ok ha).1.2.2 c hc).1
    | error v =>
        have same := whole.refused v ha
        rcases (ends.bad_of_error ha).2 with ⟨-, unexpected⟩ | ⟨-, buffers, stopped, left⟩
        · exact absurd expects unexpected
        · rw [same] at left
          have kept : buffers = t.buffers := by rw [left]
          -- What has stopped at a later handle has entered the first.
          have refuses := stopped.eq_iff.mp kept
          cases cbs with
          | nil => simp
          | cons c cbs =>
              exact absurd ⟨first c rfl, expects.new c List.mem_cons_self⟩ (refuses c rfl)
  · intro named
    have refused : ∀ v, ((allocate pool cbs).on t).value = .error v →
        ((allocate pool cbs).on t).state = t := fun v hv => by
      rcases (ends.bad_of_error hv).2 with ⟨same, -⟩ | ⟨expects, buffers, stopped, left⟩
      · exact same
      · by_cases first : ∀ c, cbs.head? = some c → c.Names .commandBuffer
        · have all : t.buffers.AdmitsAll cbs :=
            ⟨expects.distinct, fun c hc => ⟨named expects first c hc, expects.new c hc⟩⟩
          exact absurd all stopped.not_admitsAll
        · have kept : buffers = t.buffers := stopped.eq_iff.mpr fun c hc admits =>
            first fun k hk => Option.some.inj (hc.symm.trans hk) ▸ admits.1
          rw [left, kept]
    refine ⟨refused, fun ha => ?_, fun ha => ?_, fun members => ?_⟩
    · obtain ⟨-, buffers, entered, state⟩ := ends.good_of_ok ha
      exact state ▸ entered
    · obtain ⟨⟨expects, -⟩, buffers, -, state⟩ := ends.good_of_ok ha
      obtain ⟨p, hp⟩ := expects.live
      refine ⟨p, hp, fun g => ?_⟩
      rw [state]
      show (t.pools.modify pool _).find? g = _
      rw [Registry.find?_modify]
      by_cases here : g = pool
      · simp [here, hp]
      · simp [here]
    · cases ha : ((allocate pool cbs).on t).value with
      | ok _ =>
          obtain ⟨⟨expects, -⟩, buffers, entered, state⟩ := ends.good_of_ok ha
          obtain ⟨p, hp⟩ := expects.live
          exact state ▸ members.allocated hp entered
      | error v =>
          rw [refused v ha]
          exact members

/-- One pool, without command buffers. -/
def onePool : CommandTracker := ((createPool ⟨1, .commandPool⟩ .empty).on empty).state

/-- A list that goes on with the null handle is refused after its first command buffer has
been entered, which is live then and not listed by the pool. -/
theorem allocatesPart_of_nullAfter :
    ¬onePool.AllocatesWhole ⟨1, .commandPool⟩ [⟨2, .commandBuffer⟩, ⟨0, .commandBuffer⟩] ∧
      let after := ((allocate ⟨1, .commandPool⟩ [⟨2, .commandBuffer⟩, ⟨0, .commandBuffer⟩]).on
        onePool).state
      after.contains ⟨2, .commandBuffer⟩ = true ∧ ¬after.Member ⟨2, .commandBuffer⟩ := by
  refine ⟨fun whole => ?_, by decide +kernel, by decide +kernel⟩
  have members : onePool.AllMembers := by decide +kernel
  have left : ¬((allocate ⟨1, .commandPool⟩ [⟨2, .commandBuffer⟩, ⟨0, .commandBuffer⟩]).on
      onePool).state.AllMembers := by decide +kernel
  exact left (whole.members members)

end GpuAudit.CommandTracker
