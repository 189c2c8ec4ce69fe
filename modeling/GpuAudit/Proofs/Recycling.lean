import GpuAudit.Proofs.Validation

/-!
# What must not be recycled

A command buffer is recycled when it begins, is reset or freed, or its pool is reset
or destroyed.  Each of these asks whether the command buffer is live and its one last
submission has retired, and each is refused if not.
-/

namespace GpuAudit

/-! ## Refusals -/

namespace Track

variable {σ α β : Type} {x : Track σ α} {s : σ}

/-- An operation is refused: it blames the call and leaves everything as it is. -/
def Refuses (x : Track σ α) (s : σ) : Prop :=
  ∃ v, (x.on s).value = .error v ∧ v.isFatal = false ∧ (x.on s).state = s

/-- An operation is refused where it makes an answer impossible. -/
theorem Ends.refuses {good : α → σ → Prop} (h : x.Ends s good (Refused s))
    (no : ∀ a t, ¬good a t) : x.Refuses s := by
  cases hx : (x.on s).value with
  | ok a => exact absurd (h.good_of_ok hx) (no a _)
  | error v => exact ⟨v, hx, h.bad_of_error hx⟩

/-- An operation that changes nothing where it stops is refused or answers. -/
theorem Ends.refuses_iff {good : α → σ → Prop} (h : x.Ends s good (Refused s)) :
    x.Refuses s ↔ ¬x.Answers s := by
  constructor
  · rintro ⟨v, hv, -⟩ ⟨a, ha⟩
    rw [hv] at ha
    cases ha
  · intro none
    cases hx : (x.on s).value with
    | ok a => exact absurd ⟨a, hx⟩ none
    | error v => exact ⟨v, hx, h.bad_of_error hx⟩

theorem Refuses.bind (h : x.Refuses s) (f : α → Track σ β) : (x >>= f).Refuses s := by
  obtain ⟨v, hv, mild, same⟩ := h
  have ends : (x >>= f).Ends s (fun _ _ => False) (Refused s) := by
    rw [ends_bind, ends_iff]
    refine ⟨fun a ha => ?_, fun w hw => ?_⟩
    · rw [hv] at ha
      cases ha
    · rw [hv] at hw
      cases hw
      exact ⟨mild, same⟩
  exact ends.refuses fun _ _ hf => hf

end Track

/-- The last submission of a command buffer has not retired. -/
theorem CommandTracker.isInFlight_iff {commands : CommandTracker} {queues : QueueTracker}
    {c : Handle} : commands.isInFlight queues c = true ↔
    ∃ r s q, commands.buffers.find? c = some r ∧ r.lastSubmission = some s ∧
      queues.queues.find? s.queue = some q ∧ q.lastRetired < s.sequence := by
  unfold isInFlight QueueTracker.isRetired
  constructor
  · intro flies
    cases hr : commands.buffers.find? c with
    | none =>
        rw [hr] at flies
        cases flies
    | some r =>
        cases hs : r.lastSubmission with
        | none =>
            rw [hr, Option.bind_some, hs] at flies
            cases flies
        | some s =>
            rw [hr, Option.bind_some, hs] at flies
            cases hq : queues.queue s.queue with
            | error v =>
                simp only [hq] at flies
                cases flies
            | ok q =>
                simp only [hq] at flies
                refine ⟨r, s, q, rfl, hs, QueueTracker.queue_eq_ok_iff.mp hq, ?_⟩
                simpa [Queue.isRetired] using flies
  · rintro ⟨r, s, q, hr, hs, hq, later⟩
    rw [hr, Option.bind_some, hs]
    simp only [QueueTracker.queue_eq_ok_iff.mpr hq]
    simpa [Queue.isRetired] using later

namespace Trackers

variable {t : Trackers} {c pool : Handle} {b : CommandBuffer}

theorem not_retired_iff : ¬t.Retired c ↔ t.commands.buffers.find? c = none ∨
    ∃ r s q, t.commands.buffers.find? c = some r ∧ r.lastSubmission = some s ∧
      t.queues.queues.find? s.queue = some q ∧ q.lastRetired < s.sequence := by
  rw [← CommandTracker.isInFlight_iff]
  unfold Retired
  cases t.commands.buffers.find? c with
  | none => simp
  | some r => simp

/-! ## Recycling -/

/-- What is live and has not retired has been submitted, so its pool lists it. -/
theorem Sound.member_of_not_retired (h : t.Sound) (hc : ¬t.Retired c)
    (hb : t.commands.buffers.find? c = some b) : t.commands.Member c := by
  rcases h.pooled.pooled c b hb with member | fresh
  · exact member
  · refine absurd (h.retired_of_idle hb fun b' hb' ready => ?_) hc
    rw [hb] at hb'
    cases hb'
    rw [fresh] at ready
    cases ready

theorem refuses_begin (h : t.Sound) (hc : ¬t.Retired c) (usage : CommandBufferUsage) :
    (begin c usage).Refuses t :=
  (begin_ends [] h c usage fun _ hb => h.member_of_not_retired hc hb).refuses
    fun _ _ hu => hc hu.1

theorem refuses_reset (h : t.Sound) (hc : ¬t.Retired c) : (reset c).Refuses t :=
  (reset_ends [] h c).refuses fun _ _ hu => hc hu.1

theorem refuses_freeCommandBuffers (h : t.Sound) (hc : ¬t.Retired c) (pool : Handle)
    {cbs : List Handle} (listed : c ∈ cbs) : (freeCommandBuffers pool cbs).Refuses t :=
  (freeCommandBuffers_ends h pool cbs).refuses fun _ _ hu => hc (hu.1 c listed)

/-- A pool has not retired if one of its command buffers has not. -/
theorem Sound.not_poolRetired (h : t.Sound) (hc : ¬t.Retired c)
    (hb : t.commands.buffers.find? c = some b) : ¬t.PoolRetired b.pool := by
  rintro ⟨p, hp, retired⟩
  obtain ⟨b', p', hb', hp', listed⟩ := h.member_of_not_retired hc hb
  rw [hb] at hb'
  cases hb'
  rw [hp] at hp'
  cases hp'
  exact hc (retired c listed)

theorem refuses_resetPool (h : t.Sound) (hc : ¬t.Retired c)
    (hb : t.commands.buffers.find? c = some b) : (resetPool b.pool).Refuses t :=
  (resetPool_ends [] h b.pool).refuses fun _ _ hu => h.not_poolRetired hc hb hu.1

theorem refuses_destroyPool (h : t.Sound) (hc : ¬t.Retired c)
    (hb : t.commands.buffers.find? c = some b) : (destroyPool b.pool).Refuses t :=
  (destroyPool_ends h b.pool).refuses fun _ _ hu => h.not_poolRetired hc hb hu.1

/-- A call recycles a command buffer, itself or with its pool. -/
def Recycles (t : Trackers) (c : Handle) : Call → Prop
  | .beginCommandBuffer cb _ | .resetCommandBuffer cb => cb = c
  | .freeCommandBuffers _ _ cbs => c ∈ cbs
  | .resetCommandPool _ pool | .destroyCommandPool _ pool =>
      ∃ b, t.commands.buffers.find? c = some b ∧ b.pool = pool
  | _ => False

/-- No call recycles a command buffer that has not retired. -/
theorem refuses_recycling (h : t.Sound) (hc : ¬t.Retired c) {call : Call}
    (hr : t.Recycles c call) (owners : Owners) (device : Handle) :
    (validate owners device call).Refuses t := by
  cases call with
  | beginCommandBuffer cb flags =>
      cases hr
      exact ((refuses_begin h hc flags).bind _).bind _
  | resetCommandBuffer cb =>
      cases hr
      exact ((refuses_reset h hc).bind _).bind _
  | freeCommandBuffers d pool cbs => exact (refuses_freeCommandBuffers h hc pool hr).bind _
  | resetCommandPool d pool =>
      obtain ⟨b, hb, rfl⟩ := hr
      exact ((refuses_resetPool h hc hb).bind _).bind _
  | destroyCommandPool d pool =>
      obtain ⟨b, hb, rfl⟩ := hr
      exact refuses_destroyPool h hc hb
  | _ => exact hr.elim

/-- A command buffer that has retired can be recycled: a reset is accepted. -/
theorem not_refuses_reset (h : t.Sound) (hc : t.Retired c) (owners : Owners) (device : Handle) :
    ¬(validate owners device (.resetCommandBuffer c)).Refuses t := by
  rintro ⟨v, hv, -⟩
  have ends : (validate owners device (.resetCommandBuffer c)).Ends t (fun _ _ => True)
      fun _ _ => False :=
    ends_nothing.mpr ((reset_of_retired h.linked hc).mono (fun _ _ _ => trivial) fun _ _ hf => hf)
  exact ends.bad_of_error hv

end Trackers

end GpuAudit
