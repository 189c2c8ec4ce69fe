import GpuAudit.Proofs.InFlight

/-!
# Which command buffers are protected

Work in flight should protect its command buffers from being recycled.  The books
have only the last submission of a command buffer, so it is protected exactly until
that one retires, and an earlier batch on another queue may still be in flight then.
-/

namespace GpuAudit.Layer

variable {l : Layer} {config : Config} {device : Handle} {session : Session}

/-- In every session of every run, the calls that recycle a command buffer are all refused
exactly if it is gone or its last submission has not retired. -/
theorem recycling_refused_iff (h : Reached Tame config l)
    (hs : l.sessions[device]? = some session) (c : Handle) :
    let t := session.trackers
    (∀ call, t.Recycles c call → (Trackers.validate l.owners device call).Refuses t) ↔
      t.commands.buffers.find? c = none ∨
        ∃ r s q, t.commands.buffers.find? c = some r ∧ r.lastSubmission = some s ∧
          t.queues.queues.find? s.queue = some q ∧ q.lastRetired < s.sequence := by
  intro t
  have sound := ((books_of_reached h).books device session hs).sound
  rw [← Trackers.not_retired_iff]
  constructor
  · intro refused retired
    exact Trackers.not_refuses_reset sound retired l.owners device
      (refused (.resetCommandBuffer c) rfl)
  · intro still call recycles
    exact Trackers.refuses_recycling sound still recycles l.owners device

/-- A command buffer has been submitted to two queues, and the later submission has
retired. -/
def shared : List Hook :=
  [.post (.createDevice ⟨1, .device⟩) .success,
   .post (.getDeviceQueue ⟨1, .device⟩ ⟨2, .queue⟩) .success,
   .post (.getDeviceQueue ⟨1, .device⟩ ⟨3, .queue⟩) .success,
   .post (.createCommandPool ⟨1, .device⟩ ⟨4, .commandPool⟩ .resetCommandBuffer) .success,
   .post (.allocateCommandBuffers ⟨1, .device⟩ ⟨4, .commandPool⟩ [⟨5, .commandBuffer⟩]) .success,
   .pre (.beginCommandBuffer ⟨5, .commandBuffer⟩ .simultaneousUse),
   .pre (.endCommandBuffer ⟨5, .commandBuffer⟩),
   .pre (.queueSubmit ⟨2, .queue⟩ [{ commandBuffers := [⟨5, .commandBuffer⟩] }] none),
   .pre (.queueSubmit ⟨3, .queue⟩ [{ commandBuffers := [⟨5, .commandBuffer⟩] }] none),
   .retire ⟨⟨3, .queue⟩, 1⟩]

/-- While it is not retired, the later submission protects the command buffer. -/
theorem recycling_refused_of_shared :
    ∃ session ∈ ((start {}).run (shared.take 9)).sessions[(⟨1, .device⟩ : Handle)]?,
      (Trackers.validate ((start {}).run (shared.take 9)).owners ⟨1, .device⟩
        (.resetCommandBuffer ⟨5, .commandBuffer⟩)).Refuses session.trackers := by
  have reached : Reached Tame {} ((start {}).run (shared.take 9)) :=
    Reached.start.run (by decide +kernel)
  have found : ∃ session ∈ ((start {}).run (shared.take 9)).sessions[(⟨1, .device⟩ : Handle)]?,
      ∃ r ∈ session.trackers.commands.buffers.find? ⟨5, .commandBuffer⟩,
      ∃ s ∈ r.lastSubmission, ∃ q ∈ session.trackers.queues.queues.find? s.queue,
        q.lastRetired < s.sequence := by decide +kernel
  obtain ⟨session, hs, r, hr, s, hsub, q, hq, later⟩ := found
  exact ⟨session, hs, (recycling_refused_iff reached hs _).mpr
    (.inr ⟨r, s, q, hr, hsub, hq, later⟩) _ rfl⟩

/-- Once the later submission has retired, the command buffer can be reset, although the
other queue still has it in flight. -/
theorem recycled_of_shared :
    ∃ session ∈ ((start {}).run shared).sessions[(⟨1, .device⟩ : Handle)]?,
      Reached Tame {} ((start {}).run shared) ∧ session.halted = false ∧
      session.trackers.queues.Busy ⟨5, .commandBuffer⟩ ∧
      session.trackers.Recycles ⟨5, .commandBuffer⟩ (.resetCommandBuffer ⟨5, .commandBuffer⟩) ∧
      ¬(Trackers.validate ((start {}).run shared).owners ⟨1, .device⟩
        (.resetCommandBuffer ⟨5, .commandBuffer⟩)).Refuses session.trackers := by
  have reached : Reached Tame {} ((start {}).run shared) := Reached.start.run (by decide +kernel)
  have found : ∃ session ∈ ((start {}).run shared).sessions[(⟨1, .device⟩ : Handle)]?,
      session.halted = false ∧
      (∃ q ∈ session.trackers.queues.queues.find? ⟨2, .queue⟩,
        ∃ b ∈ q.inFlight, (⟨5, .commandBuffer⟩ : Handle) ∈ b.commandBuffers) ∧
      ∃ r ∈ session.trackers.commands.buffers.find? ⟨5, .commandBuffer⟩,
        session.trackers.commands.isInFlight session.trackers.queues ⟨5, .commandBuffer⟩ =
          false := by
    decide +kernel
  obtain ⟨session, hs, runs, ⟨q, hq, b, hb, hc⟩, r, hr, retired⟩ := found
  have sound := ((books_of_reached reached).books _ session hs).sound
  exact ⟨session, hs, reached, runs, ⟨_, q, hq, b, hb, hc⟩, rfl,
    Trackers.not_refuses_reset sound ⟨⟨r, hr⟩, retired⟩ _ _⟩

end GpuAudit.Layer
