import GpuAudit.Proofs.Run

/-!
# The books agree in every run

`Books` is what every hook keeps of the books of a device, whatever the calls and
the completions are: they are `Trackers.Sound`, and the command buffers that the
device owns are listed by their pools.

`links_of_reached` states what this says about links.  A link between an allocation
and a resource, or a command buffer, is entered on both sides, and the count of an
allocation is right.
-/

namespace GpuAudit

namespace Trackers

variable {owners owners' : Owners} {device : Handle} {t : Trackers}

/-- What every hook keeps of the books of a device. -/
structure Books (owners : Owners) (device : Handle) (t : Trackers) : Prop where
  /-- The books agree with each other. -/
  sound : t.Sound
  /-- The command buffers that the device owns are listed by their pools. -/
  owned : ∀ h : Handle, owners[h]? = some device → h.kind = .commandBuffer → t.commands.Member h

theorem Books.lose (h : Books owners device t)
    (fewer : ∀ g : Handle, owners'[g]? = some device → owners[g]? = some device) :
    Books owners' device t :=
  ⟨h.sound, fun g hg => h.owned g (fewer g hg)⟩

/-- Only a begin needs a listed command buffer, and the device owns the one it names. -/
theorem Books.begun (h : Books owners device t) {call : Call}
    (scope : ∀ g, call.scope = .owner g → owners[g]? = some device) (cb : Handle)
    (flags : CommandBufferUsage) (hc : call = .beginCommandBuffer cb flags) (b : CommandBuffer)
    (hb : t.commands.buffers.find? cb = some b) : t.commands.Member cb :=
  h.owned cb (scope cb (by rw [hc]; rfl)) (Registry.kind_of_find hb)

/-- A call keeps the books, or ends with an internal error since an allocation has more
links than can be counted. -/
theorem Books.validates (h : Books owners device t) {call : Call}
    (scope : ∀ g, call.scope = .owner g → owners[g]? = some device) :
    Books (Layer.givenUp owners ((Trackers.validate owners device call).on t).value) device
        ((Trackers.validate owners device call).on t).state ∨
      ∃ v, ((Trackers.validate owners device call).on t).value = .error v ∧ v.isFatal = true ∧
        ¬((Trackers.validate owners device call).on t).state.memory.Counted := by
  have ends := validate_call_ends h.sound owners device call (h.begun scope)
  cases hx : ((Trackers.validate owners device call).on t).value with
  | ok released =>
      refine .inl ?_
      rcases ends.good_of_ok hx with edits | ⟨rfl, queue, submits, fence, q, -, hq, ready, hu⟩
      · refine ⟨h.sound.edits edits, fun c hc hk => ?_⟩
        obtain ⟨old, kept⟩ := Layer.getElem?_givenUp.mp hc
        exact member_edits (h.owned c old hk) (kept released rfl) edits
      · rw [hu]
        refine ⟨h.sound.withBatch hq rfl fun c hc => ?_, fun c hc hk => ?_⟩
        · exact CommandTracker.executable_of_submittable (ready c hc)
        · exact (h.owned c hc hk).submitted
  | error v =>
      rcases ends.bad_of_error hx with (refused | uncounted) | ⟨-, edits⟩
      · rw [refused.2]
        exact .inl h
      · exact .inr ⟨v, rfl, uncounted⟩
      · exact .inl ⟨h.sound.edits edits, fun c hc hk =>
          member_edits (h.owned c hc hk) List.not_mem_nil edits⟩

theorem Books.validate (h : Books owners device t) {call : Call}
    (scope : ∀ g, call.scope = .owner g → owners[g]? = some device)
    (few : ((Trackers.validate owners device call).on t).state.memory.Counted) :
    Books (Layer.givenUp owners ((Trackers.validate owners device call).on t).value) device
      ((Trackers.validate owners device call).on t).state :=
  (h.validates scope).resolve_right fun ⟨_, _, _, uncounted⟩ => uncounted few

theorem Books.record (h : Books owners device t) (call : Call) :
    Books (Layer.gainedBy owners device ((recordCreation device call).on t).value) device
      ((recordCreation device call).on t).state := by
  have ends := recordCreation_ends t device call
  have edits : Edits [] t ((recordCreation device call).on t).state :=
    (ends.mono (fun _ _ hu => hu.1) fun _ _ hu => hu).state
  refine ⟨h.sound.edits edits, fun c hc hk => ?_⟩
  rcases Layer.getElem?_gainedBy hc with old | ⟨-, new, hx, hn⟩
  · exact member_edits (h.owned c old hk) List.not_mem_nil edits
  · exact (ends.good_of_ok hx).2 c hn hk

theorem Books.retire (h : Books owners device t) (r : Retirement) :
    Books owners device ((retireUpTo r).on t).state := by
  have left := (retireUpTo_ends h.sound r).state
  exact ⟨left.sound, fun c hc hk => left.members c (h.owned c hc hk)⟩

end Trackers

namespace Layer

open Trackers (Books)

variable {l : Layer} {config : Config} {device : Handle} {session : Session}

/-- The hooks after which all links of an allocation can still be counted. -/
def Tame (l : Layer) (hook : Hook) : Prop := (l.step hook).Counted

instance (l : Layer) (hook : Hook) : Decidable (Tame l hook) :=
  inferInstanceAs (Decidable (l.step hook).Counted)

/-- The calls after which all links of an allocation can still be counted. -/
def KeepsCounted (owners : Owners) (device : Handle) (t : Trackers) (call : Call) : Prop :=
  ((Trackers.validate owners device call).on t).state.memory.Counted

theorem books_invariant : SessionInvariant Books KeepsCounted where
  empty _ _ none := ⟨Trackers.sound_empty, fun h hd => absurd hd (none h)⟩
  lose _ _ _ _ fewer h := h.lose fewer
  retire _ _ _ r h := h.retire r
  validate _ _ _ _ h few scope := h.validate scope few
  record _ _ _ call h := h.record call

/-- The books of every session agree after every run. -/
theorem books_of_reached (h : Reached Tame config l) : l.Holds Books :=
  holds_of_reached books_invariant
    (fun _ _ few validated _ _ hs running => Counted.validated (validated ▸ few) hs running) h

/-! ## Sessions that go on -/

/-- The hooks after which sessions that go on need no count of links: internal errors halt
the session, or all links can still be counted. -/
def Sheltered (l : Layer) (hook : Hook) : Prop :=
  l.config.validation.haltOnInternalError = true ∨ Tame l hook

instance (l : Layer) (hook : Hook) : Decidable (Sheltered l hook) :=
  inferInstanceAs (Decidable (_ ∨ _))

/-- The calls after which sessions that go on need no count of links. -/
def Shelters (choices : ValidationConfig) (owners : Owners) (device : Handle) (t : Trackers)
    (call : Call) : Prop :=
  choices.haltOnInternalError = true ∨ KeepsCounted owners device t call

/-- The books agree, unless the session is halted. -/
def RunningBooks (owners : Owners) (device : Handle) (session : Session) : Prop :=
  ¬session.halted = true → Books owners device session.trackers

theorem runningBooks_law (choices : ValidationConfig) :
    SessionLaw choices RunningBooks (Shelters choices) where
  lose _ _ _ _ fewer h := fun running => (h running).lose fewer
  retire _ _ _ r running h := fun _ => (h running).retire r
  empty _ _ none := fun _ => ⟨Trackers.sound_empty, fun h hd => absurd hd (none h)⟩
  validate owners device session call running h may scope := fun goes => by
    rcases (h running).validates scope with books | ⟨v, hv, fatal, uncounted⟩
    · exact books
    · rcases may with halting | few
      · refine absurd ?_ goes
        simp [Session.ran, hv, ValidationConfig.halts, fatal, halting]
      · exact absurd few uncounted
  record _ _ _ call running h := fun _ => (h running).record call

/-- The books agree, unless the session is halted and an allocation has more links than can
be counted. -/
def SettledBooks (owners : Owners) (device : Handle) (session : Session) : Prop :=
  Books owners device session.trackers ∨
    session.halted = true ∧ ¬session.trackers.memory.Counted

theorem settledBooks_law (choices : ValidationConfig) :
    SessionLaw choices SettledBooks (Shelters choices) where
  lose _ _ _ _ fewer h := h.imp_left fun books => books.lose fewer
  retire _ _ _ r running h :=
    .inl ((h.resolve_right fun halted => running halted.1).retire r)
  empty _ _ none := .inl ⟨Trackers.sound_empty, fun h hd => absurd hd (none h)⟩
  validate owners device session call running h may scope := by
    have books := h.resolve_right fun halted => running halted.1
    rcases books.validates scope with kept | ⟨v, hv, fatal, uncounted⟩
    · exact .inl kept
    · rcases may with halting | few
      · exact .inr ⟨by simp [Session.ran, hv, ValidationConfig.halts, fatal, halting], uncounted⟩
      · exact absurd few uncounted
  record _ _ _ call running h :=
    .inl ((h.resolve_right fun halted => running halted.1).record call)

/-- A law that sheltered calls keep holds after every sheltered run. -/
theorem obeys_of_sheltered {P : Owners → Handle → Session → Prop}
    (law : SessionLaw config.validation P (Shelters config.validation))
    (h : Reached Sheltered config l) : l.Obeys config.validation P := by
  refine obeys_of_reached law (fun k call chosen sheltered validated d s hs running => ?_) h
  rcases sheltered with halting | few
  · exact .inl (chosen ▸ halting)
  · exact .inr (Counted.validated (validated ▸ few) hs running)

/-- The books agree in every session of a sheltered run in which all links can be counted,
halted or not. -/
theorem books_of_sheltered (h : Reached Sheltered config l)
    (hs : l.sessions[device]? = some session)
    (few : session.halted = true → session.trackers.memory.Counted) :
    Books l.owners device session.trackers :=
  ((obeys_of_sheltered (settledBooks_law _) h).law device session hs).resolve_right
    fun halted => halted.2 (few halted.1)

/-! ## Links -/

/-- In every session of every run, a resource is bound to an allocation exactly if the
allocation is live and lists it, a command buffer touches an allocation exactly if the
allocation is live and lists it, and the count of an allocation is the number of what
it lists; so the check of the counts passes. -/
theorem links_of_reached (h : Reached Tame config l) (hs : l.sessions[device]? = some session) :
    (∀ r memory, (∃ x offset, session.trackers.resources.find? r = some x ∧
        x.binding = .memory memory offset) ↔
      ∃ m, session.trackers.memory.objects.find? memory = some m ∧ r ∈ m.bindings) ∧
    (∀ c memory, (∃ b, session.trackers.commands.buffers.find? c = some b ∧
        memory ∈ b.memoryRefs) ↔
      ∃ m, session.trackers.memory.objects.find? memory = some m ∧ c ∈ m.commandBuffers) ∧
    (∀ memory m, session.trackers.memory.objects.find? memory = some m →
      m.refCount = m.bindings.size + m.commandBuffers.size) ∧
    session.trackers.memory.verify = .ok () := by
  have linked := ((books_of_reached h).books device session hs).sound.linked
  refine ⟨fun r memory => ?_, linked.touched, linked.tallied, linked.tallied.verify⟩
  rw [← ResourceTracker.boundTo_iff]
  exact linked.bound r memory

/-- A command buffer that fills a bound buffer has been submitted. -/
def filling : List Hook :=
  [.post (.createDevice ⟨1, .device⟩) .success,
   .post (.getDeviceQueue ⟨1, .device⟩ ⟨2, .queue⟩) .success,
   .post (.allocateMemory ⟨1, .device⟩ ⟨3, .deviceMemory⟩ { size := 4096 }) .success,
   .post (.createBuffer ⟨1, .device⟩ ⟨4, .buffer⟩ ⟨256, .transferDst, false⟩) .success,
   .pre (.bindBufferMemory ⟨1, .device⟩ ⟨4, .buffer⟩ ⟨3, .deviceMemory⟩ 0),
   .post (.createCommandPool ⟨1, .device⟩ ⟨5, .commandPool⟩ .empty) .success,
   .post (.allocateCommandBuffers ⟨1, .device⟩ ⟨5, .commandPool⟩ [⟨6, .commandBuffer⟩]) .success,
   .pre (.beginCommandBuffer ⟨6, .commandBuffer⟩ .empty),
   .pre (.recordCommand ⟨6, .commandBuffer⟩ (.fillBuffer ⟨4, .buffer⟩)),
   .pre (.endCommandBuffer ⟨6, .commandBuffer⟩),
   .pre (.queueSubmit ⟨2, .queue⟩ [{ commandBuffers := [⟨6, .commandBuffer⟩] }] none)]

/-- The buffer is bound, so its allocation is live and lists it; the counts are right. -/
theorem links_of_filling : ∃ session ∈ ((start {}).run filling).sessions[(⟨1, .device⟩ : Handle)]?,
    (∃ m, session.trackers.memory.objects.find? ⟨3, .deviceMemory⟩ = some m ∧
      ⟨4, .buffer⟩ ∈ m.bindings) ∧ session.trackers.memory.verify = .ok () := by
  have reached : Reached Tame {} ((start {}).run filling) := Reached.start.run (by decide +kernel)
  have bound : ∃ session ∈ ((start {}).run filling).sessions[(⟨1, .device⟩ : Handle)]?,
      ∃ x ∈ session.trackers.resources.find? ⟨4, .buffer⟩,
        x.binding = .memory ⟨3, .deviceMemory⟩ 0 := by decide +kernel
  obtain ⟨session, hs, x, hx, hb⟩ := bound
  obtain ⟨resources, -, -, counts⟩ := links_of_reached reached hs
  exact ⟨session, hs, (resources _ _).mp ⟨x, 0, hx, hb⟩, counts⟩

end Layer

end GpuAudit
