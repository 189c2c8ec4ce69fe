import GpuAudit.Proofs.Advances
import GpuAudit.Proofs.Consistency
import GpuAudit.Proofs.Tracking

/-!
# The life of a command buffer

`Settled` is what every run keeps of the command buffers of a device: each live one is
listed by its pool, and each initial one is as it was allocated.  Edits keep it, except
that a command buffer is entered before its pool lists it.  So an allocation has to go
through, or to stop before it enters anything.  It stops half way only at a handle that
cannot name a command buffer, which is why runs are asked for handles that may name one.

`lifecycle_of_reached` states what this says about pools and about the records of command
buffers, and adds how single operations move a command buffer.
-/

namespace GpuAudit

/-! ## Books that every run keeps -/

namespace CommandTracker

variable {t : CommandTracker} {cb : Handle}

/-- Every initial command buffer is as it was allocated. -/
def Untouched (t : CommandTracker) : Prop :=
  ∀ c b, t.buffers.find? c = some b → b.state = .initial → b = .fresh b.pool

theorem Untouched.change (h : t.Untouched) {f : CommandBuffer → CommandBuffer}
    (hf : ∀ b, t.buffers.find? cb = some b → (f b).state = .initial → f b = .fresh (f b).pool) :
    (t.change cb f).Untouched := by
  intro c b hb initial
  rw [find?_change] at hb
  split at hb
  next here =>
    obtain ⟨old, ho, rfl⟩ := Option.map_eq_some_iff.mp hb
    exact hf old (here ▸ ho) initial
  next => exact h c b hb initial

theorem Untouched.enter (h : t.Untouched) {buffers : Registry .commandBuffer CommandBuffer}
    {pool : Handle}
    (view : ∀ g, buffers.find? g = if g = cb then some (.fresh pool) else t.buffers.find? g) :
    ({ t with buffers } : CommandTracker).Untouched := by
  intro c b hb initial
  have hb : buffers.find? c = some b := hb
  rw [view] at hb
  split at hb
  · cases hb
    rfl
  · exact h c b hb initial

theorem Untouched.strike (h : t.Untouched) {buffers : Registry .commandBuffer CommandBuffer}
    {pools : Registry .commandPool CommandPool}
    (view : ∀ g, buffers.find? g = if g = cb then none else t.buffers.find? g) :
    (⟨pools, buffers⟩ : CommandTracker).Untouched := by
  intro c b hb initial
  have hb : buffers.find? c = some b := hb
  rw [view] at hb
  split at hb
  · cases hb
  · exact h c b hb initial

/-- Only executable command buffers are submitted, so the initial ones stay. -/
theorem Untouched.submitted (h : t.Untouched) {cbs : List Handle} {s : Submission}
    (ready : ∀ c ∈ cbs, ∃ b, t.buffers.find? c = some b ∧ b.state = .executable) :
    (t.submitted cbs s).Untouched := by
  intro c b hb initial
  rw [find?_submitted] at hb
  split at hb
  next hc =>
    obtain ⟨old, ho, executable⟩ := ready c hc
    rw [ho, Option.map_some] at hb
    cases hb
    rw [executable] at initial
    cases initial
  next => exact h c b hb initial

end CommandTracker

namespace Trackers

variable {t u : Trackers} {gone : List Handle}

theorem untouched_edit (h : t.commands.Untouched) (he : Edit gone t u) : u.commands.Untouched := by
  cases he with
  | entered new view => exact h.enter view
  | begun usage idle listed => exact h.change fun _ _ he => nomatch he
  | cleared idle => exact h.change fun _ _ _ => rfl
  | destroyed given idle old view => exact h.strike view
  | finished old recording => exact h.change fun _ _ he => nomatch he
  | touched old recording live new =>
      refine h.change fun b hb initial => ?_
      rw [old] at hb
      cases hb
      rw [recording] at initial
      cases initial
  | allocated | freed | remapped | resources | attached | detached | moved | poolMade
  | poolRemoved | enrolled | queueMade | signaled => exact h

theorem untouched_edits (h : t.commands.Untouched) (he : Edits gone t u) :
    u.commands.Untouched := by
  induction he with
  | refl => exact h
  | tail _ he ih => exact untouched_edit ih he

/-- A retirement makes a command buffer fresh or leaves it as it is. -/
theorem retireUpTo_untouched (r : Retirement) :
    (retireUpTo r).Confined (Track.Preserves fun t => t.Linked ∧ t.commands.Untouched) := by
  refine confined_retireUpTo (fun s cb => Track.confined_preserves fun t ht => ?_)
    (fun _ _ _ ht => ⟨⟨ht.1.tallied, ht.1.bound, ht.1.touched⟩, ht.2⟩) r
  refine (retireCommandBuffer_ends ht.1 s cb).mono (fun _ u hu => ?_) fun _ u hu => ?_
  · obtain ⟨b, -, rfl | ⟨-, rfl⟩⟩ := hu
    · exact ht
    · exact ⟨ht.1.recycled cb fun _ => rfl, ht.2.change fun _ _ _ => rfl⟩
  · rw [hu.2]
    exact ht

/-- The books agree, every live command buffer is listed by its pool, and the initial ones
are as they were allocated. -/
structure Settled (t : Trackers) : Prop where
  /-- The books agree. -/
  sound : t.Sound
  /-- Every live command buffer is listed by its pool. -/
  listed : ∀ c b, t.commands.buffers.find? c = some b → t.commands.Member c
  /-- Initial command buffers are as they were allocated. -/
  untouched : t.commands.Untouched

theorem settled_empty : empty.Settled := by
  refine ⟨sound_empty, fun c b hb => ?_, fun c b hb => ?_⟩
  · simp [empty, CommandTracker.empty] at hb
  · simp [empty, CommandTracker.empty] at hb

/-- Edits keep the books if what is live afterwards is listed by its pool, or was live
before and is not given up. -/
theorem Settled.edits (h : t.Settled) (he : Edits gone t u)
    (listed : ∀ c b, u.commands.buffers.find? c = some b →
      t.Tracks c ∧ c ∉ gone ∨ u.commands.Member c) : u.Settled := by
  refine ⟨h.sound.edits he, fun c b hb => ?_, untouched_edits h.untouched he⟩
  rcases listed c b hb with ⟨tracked, kept⟩ | member
  · obtain ⟨old, ho⟩ := find_of_tracks (Registry.kind_of_find hb) tracked
    exact member_edits (h.listed c old ho) kept he
  · exact member

/-- Where nothing is entered and pools list what they listed, all that is live is listed. -/
theorem Settled.listed_of_fewer (h : t.Settled)
    (thins : t.commands.Thins (fun _ => False) u.commands)
    (members : ∀ c, t.commands.Member c → u.commands.Member c) {c : Handle} {b : CommandBuffer}
    (hb : u.commands.buffers.find? c = some b) : u.commands.Member c := by
  obtain ⟨old, ho⟩ := Option.isSome_iff_exists.mp (thins.fewer c (Option.isSome_of_eq_some hb))
  exact members c (h.listed c old ho)

theorem Settled.submitted (h : t.Settled) {call : Call} (hu : Submitted t call u) : u.Settled := by
  obtain ⟨queue, submits, fence, q, -, hq, checked, rfl⟩ := hu
  have ready : ∀ c ∈ submits.flatMap (·.commandBuffers),
      ∃ b, t.commands.buffers.find? c = some b ∧ b.state = .executable := fun c hc =>
    CommandTracker.executable_of_submittable (checked c hc)
  exact ⟨h.sound.withBatch hq rfl ready, fun _ _ => h.listed_of_fewer
    (CommandTracker.thins_submitted _ _) fun _ hc => hc.submitted, h.untouched.submitted ready⟩

theorem Settled.retire (h : t.Settled) (r : Retirement) :
    ((retireUpTo r).on t).state.Settled := by
  have left := (retireUpTo_ends h.sound r).state
  exact ⟨left.sound, fun _ _ => h.listed_of_fewer (keeps_retired t r).commands left.members,
    ((retireUpTo_untouched r).state t ⟨h.sound.linked, h.untouched⟩).2⟩

/-- A call keeps the books, if all links can still be counted. -/
theorem Settled.validate (h : t.Settled) (owners : Owners) (device : Handle) (call : Call)
    (few : ((Trackers.validate owners device call).on t).state.memory.Counted) :
    ((Trackers.validate owners device call).on t).state.Settled := by
  have ends := validate_call_ends h.sound owners device call fun cb _ _ b hb => h.listed cb b hb
  have gives := validate_givesUp h.sound owners device call
  cases hx : ((Trackers.validate owners device call).on t).value with
  | ok released =>
      rcases ends.good_of_ok hx with edits | ⟨-, submitted⟩
      · exact h.edits edits fun c b hb =>
          .inl (((gives.good_of_ok hx).tracks c).mp (tracks_of_find hb))
      · exact h.submitted submitted
  | error v =>
      rcases ends.bad_of_error hx with (refused | uncounted) | ⟨-, edits⟩
      · rw [refused.2]
        exact h
      · exact absurd few uncounted.2
      · exact h.edits edits fun c b hb =>
          .inl ⟨(gives.bad_of_error hx c).mp (tracks_of_find hb), List.not_mem_nil⟩

end Trackers

/-- The command buffers that a call allocates. -/
def Call.allocates : Call → List Handle
  | .allocateCommandBuffers _ _ cbs => cbs
  | _ => []

/-- The command buffers that the driver is said to have allocated. -/
def Hook.allocated : Hook → List Handle
  | .post call _ => call.allocates
  | _ => []

/-- A handle that may name a command buffer. -/
abbrev Handle.MayNameBuffer (h : Handle) : Prop := h.kind = .commandBuffer ∧ h.isNull = false

namespace Trackers

variable {t : Trackers}

/-- What a successful call has created keeps the books. -/
theorem Settled.record (h : t.Settled) (device : Handle) {call : Call}
    (named : ∀ c ∈ call.allocates, c.MayNameBuffer) :
    ((recordCreation device call).on t).state.Settled := by
  refine Track.Ends.state (x := recordCreation device call) ?_
  by_cases checked : t.Checked call
  · have ends := (recordCreation_ends t device call).and (recordCreation_gains t device checked)
    refine ends.mono (fun gained u hu => ?_) fun _ u hu => ?_
    · obtain ⟨⟨edits, members⟩, gains⟩ := hu
      refine h.edits edits fun c b hb => ?_
      rcases (gains.tracks c).mp (tracks_of_find hb) with old | new
      · exact .inl ⟨old, List.not_mem_nil⟩
      · exact .inr (members c new (Registry.kind_of_find hb))
    · obtain ⟨edits, same⟩ := hu
      exact h.edits edits fun c b hb =>
        .inl ⟨(same c).mp (tracks_of_find hb), List.not_mem_nil⟩
  · cases call with
    | allocateCommandBuffers _ pool cbs =>
        show (onCommands (CommandTracker.allocate pool cbs) >>= fun _ => pure cbs).Ends t _ _
        rw [Track.ends_bind]
        refine (allocateBuffers_refused named checked).mono (fun _ _ hf => hf.elim) fun _ u hu => ?_
        rw [hu]
        exact h
    | _ => exact absurd trivial checked

end Trackers

/-! ## Every run -/

/-- Pools list their command buffers, and what is known of a command buffer fits its
state. -/
structure CommandTracker.Regular (t : CommandTracker) : Prop where
  /-- A pool lists exactly the live command buffers that belong to it. -/
  listed : ∀ p c, (∃ pool, t.pools.find? p = some pool ∧ c ∈ pool.buffers) ↔
    ∃ b, t.buffers.find? c = some b ∧ b.pool = p
  /-- Exactly one live pool lists a live command buffer. -/
  one : ∀ c b, t.buffers.find? c = some b →
    ∃! p, ∃ pool, t.pools.find? p = some pool ∧ c ∈ pool.buffers
  /-- An initial command buffer touches nothing, was not begun and not submitted. -/
  initial : ∀ c b, t.buffers.find? c = some b → b.state = .initial →
    b.memoryRefs = ∅ ∧ b.usage = .empty ∧ b.lastSubmission = none
  /-- A recording command buffer has not been submitted since it was begun. -/
  recording : ∀ c b, t.buffers.find? c = some b → b.state = .recording → b.lastSubmission = none
  /-- So only executable command buffers have a last submission. -/
  submitted : ∀ c b, t.buffers.find? c = some b → b.lastSubmission ≠ none → b.state = .executable

theorem Trackers.Settled.regular {t : Trackers} (h : t.Settled) : t.commands.Regular := by
  have listed : ∀ p c, (∃ pool, t.commands.pools.find? p = some pool ∧ c ∈ pool.buffers) ↔
      ∃ b, t.commands.buffers.find? c = some b ∧ b.pool = p := by
    intro p c
    constructor
    · rintro ⟨pool, hp, hc⟩
      exact h.sound.pooled.listed p pool c hp hc
    · rintro ⟨b, hb, rfl⟩
      obtain ⟨b', pool, hb', hp, hc⟩ := h.listed c b hb
      rw [hb] at hb'
      cases hb'
      exact ⟨pool, hp, hc⟩
  have submitted := h.sound.pooled.submitted
  constructor
  case listed => exact listed
  case one =>
    intro c b hb
    refine ⟨b.pool, (listed b.pool c).mpr ⟨b, hb, rfl⟩, fun p hp => ?_⟩
    obtain ⟨b', hb', rfl⟩ := (listed p c).mp hp
    rw [hb] at hb'
    cases hb'
    rfl
  case initial =>
    intro c b hb initial
    rw [h.untouched c b hb initial]
    exact ⟨rfl, rfl, rfl⟩
  case recording =>
    intro c b hb recording
    refine Decidable.byContradiction fun some => ?_
    rw [submitted c b hb some] at recording
    cases recording
  case submitted => exact submitted

namespace Layer

open Trackers (Settled)

variable {l : Layer} {config : Config} {device : Handle} {session : Session}

/-- The hooks after which all links of an allocation can still be counted, and by which
the driver is said to have allocated command buffers only under handles that may name them. -/
def Named (l : Layer) (hook : Hook) : Prop :=
  Tame l hook ∧ ∀ c ∈ hook.allocated, c.MayNameBuffer

instance (l : Layer) (hook : Hook) : Decidable (Named l hook) :=
  inferInstanceAs (Decidable (_ ∧ _))

theorem settled_retirement : RetirementInvariant fun _ _ t => t.Settled where
  lose _ _ _ _ _ h := h
  retire _ _ _ r h := h.retire r

/-- The books of every session are settled after every run of named hooks. -/
theorem settled_of_reached (h : Reached Named config l) :
    l.Obeys config.validation (OfBooks fun _ _ t => t.Settled) := by
  have law := settled_retirement.law config.validation
  induction h with
  | start => exact obeys_start config
  | @step l _ hook allowed ih =>
      refine ih.stepped law hook (fun call he validated => ?_) fun call result he => ?_
      · refine (ih.drained law).validated law call fun device session found running settled _ => ?_
        have few : (l.step hook).Counted := allowed.1
        rw [validated] at few
        exact settled.validate _ device call (few.validated found running)
      · have named := allowed.2
        rw [he] at named
        exact ih.answered law call result (fun _ _ => Trackers.settled_empty)
          fun device session _ settled => settled.record device named

/-- In every session of every run, pools list their command buffers and what is known of a
command buffer fits its state, and every operation moves the command buffers as it should. -/
theorem lifecycle_of_reached (h : Reached Named config l)
    (hs : l.sessions[device]? = some session) :
    session.trackers.commands.Regular ∧
      ∀ op : CommandOperation,
        op.Advances session.trackers (op.run.on session.trackers).state :=
  ⟨((settled_of_reached h).law device session hs).regular, fun op =>
    (op.run_advances session.trackers).state⟩

/-- A command buffer has been submitted. -/
def reusing : List Hook :=
  [.post (.createDevice ⟨1, .device⟩) .success,
   .post (.getDeviceQueue ⟨1, .device⟩ ⟨2, .queue⟩) .success,
   .post (.createCommandPool ⟨1, .device⟩ ⟨3, .commandPool⟩ .resetCommandBuffer) .success,
   .post (.allocateCommandBuffers ⟨1, .device⟩ ⟨3, .commandPool⟩ [⟨4, .commandBuffer⟩]) .success,
   .pre (.beginCommandBuffer ⟨4, .commandBuffer⟩ .empty),
   .pre (.endCommandBuffer ⟨4, .commandBuffer⟩),
   .pre (.queueSubmit ⟨2, .queue⟩ [{ commandBuffers := [⟨4, .commandBuffer⟩] }] none),
   .retire ⟨⟨2, .queue⟩, 1⟩]

/-- It can be begun anew there, so the pool that lists it allows this. -/
theorem lifecycle_of_reusing :
    ∃ session ∈ ((start {}).run reusing).sessions[(⟨1, .device⟩ : Handle)]?,
      ∃ b, session.trackers.commands.buffers.find? ⟨4, .commandBuffer⟩ = some b ∧
        b.pool = ⟨3, .commandPool⟩ ∧ session.trackers.commands.Resettable b := by
  have reached : Reached Named {} ((start {}).run reusing) :=
    Reached.start.run (by decide +kernel)
  have found : ∃ session ∈ ((start {}).run reusing).sessions[(⟨1, .device⟩ : Handle)]?,
      (∃ pool ∈ session.trackers.commands.pools.find? ⟨3, .commandPool⟩,
        ⟨4, .commandBuffer⟩ ∈ pool.buffers) ∧
      ∃ b ∈ session.trackers.commands.buffers.find? ⟨4, .commandBuffer⟩, b.state = .executable ∧
      ∃ b' ∈ ((CommandOperation.begin ⟨4, .commandBuffer⟩ .empty).run.on
          session.trackers).state.commands.buffers.find? ⟨4, .commandBuffer⟩,
        b'.state = .recording := by decide +kernel
  obtain ⟨session, hs, listed, b, hb, executable, b', hb', recording⟩ := found
  obtain ⟨regular, advances⟩ := lifecycle_of_reached reached hs
  obtain ⟨b₀, hb₀, own⟩ := (regular.listed _ _).mp listed
  rw [hb] at hb₀
  cases hb₀
  have moves := (advances (.begin _ .empty) _ b b' hb hb').state
  rw [executable, recording] at moves
  cases moves with
  | beginsAnew allowed => exact ⟨session, hs, b, hb, own, allowed.2⟩

end Layer

end GpuAudit
