import GpuAudit.Proofs.Stock

/-!
# How command buffers move

A command buffer is initial when it is allocated, records once it is begun, and is
executable once it has ended.  `CommandOperation` lists the operations on the command
buffers of a device, and `CommandBuffer.Advances` says what one of them may do to a
command buffer that is live before and after.

Two operations move a command buffer on, the begin and the end of its recording.  All
others are confined by `Eases`: a command buffer keeps its state, or it is initial and
touches nothing.  Since a preorder confines them, an operation on a whole pool, and one
that stops half way, are no other case.  None of this needs the books to agree.
-/

namespace GpuAudit

open Track (Confined confined_pure confined_throw confined_ofExcept confined_query confined_get
  confined_debug confined_modify confined_update)

/-! ## Moves of one command buffer -/

/-- How the state of a command buffer moves; `again` says whether an executable one may
begin anew. -/
inductive CommandBufferState.Moves (again : Prop) : CommandBufferState → CommandBufferState → Prop
  /-- It stays. -/
  | stays (s : CommandBufferState) : Moves again s s
  /-- The recording begins. -/
  | begins : Moves again .initial .recording
  /-- The recording ends. -/
  | ends : Moves again .recording .executable
  /-- The recording begins anew. -/
  | beginsAnew (allowed : again) : Moves again .executable .recording
  /-- It is initial again. -/
  | returns (s : CommandBufferState) : Moves again s .initial

theorem CommandBufferState.Moves.imp {again more : Prop} {s s' : CommandBufferState}
    (h : Moves again s s') (allows : again → more) : Moves more s s' := by
  cases h with
  | stays => exact .stays s
  | begins => exact .begins
  | ends => exact .ends
  | beginsAnew allowed => exact .beginsAnew (allows allowed)
  | returns => exact .returns s

namespace CommandBuffer

variable {b b' b'' : CommandBuffer} {again : Prop}

/-- What one operation may do to a command buffer. -/
structure Advances (again : Prop) (b b' : CommandBuffer) : Prop where
  /-- The state moves. -/
  state : b.state.Moves again b'.state
  /-- More is touched only while it records. -/
  gains : ∀ m ∈ b'.memoryRefs, m ∉ b.memoryRefs → b.state = .recording ∧ b'.state = .recording
  /-- What becomes initial or begins to record touches nothing. -/
  emptied : b'.state ≠ b.state → b'.state = .initial ∨ b'.state = .recording → b'.memoryRefs = ∅

/-- An initial command buffer that touches nothing. -/
structure Bare (b : CommandBuffer) : Prop where
  /-- It is initial. -/
  initial : b.state = .initial
  /-- It touches nothing. -/
  empty : b.memoryRefs = ∅

/-- A command buffer that keeps its state, and touches more only while it records. -/
structure Stays (b b' : CommandBuffer) : Prop where
  /-- The state is the same. -/
  state : b'.state = b.state
  /-- More is touched only while it records. -/
  gains : ∀ m ∈ b'.memoryRefs, m ∈ b.memoryRefs ∨ b.state = .recording

theorem bare_fresh (pool : Handle) : (fresh pool).Bare := ⟨rfl, rfl⟩

theorem stays_of_eq (state : b'.state = b.state) (touched : b'.memoryRefs = b.memoryRefs) :
    b.Stays b' := ⟨state, fun _ hm => .inl (touched ▸ hm)⟩

theorem Stays.trans (h : b.Stays b') (k : b'.Stays b'') : b.Stays b'' :=
  ⟨k.state.trans h.state, fun m hm => (k.gains m hm).elim (h.gains m) fun r => .inr (h.state ▸ r)⟩

/-- A bare command buffer that stays is bare. -/
theorem Bare.stays (h : b.Bare) (k : b.Stays b') : b'.Bare := by
  refine ⟨k.state.trans h.initial, Std.ExtTreeSet.ext_mem fun m => ⟨fun hm => ?_, fun hm => ?_⟩⟩
  · rcases k.gains m hm with old | recording
    · exact h.empty ▸ old
    · rw [h.initial] at recording
      cases recording
  · exact absurd hm Std.ExtTreeSet.not_mem_empty

theorem Bare.advances (h : b'.Bare) : b.Advances again b' where
  state := by
    rw [h.initial]
    exact .returns b.state
  gains m hm := by
    rw [h.empty] at hm
    exact absurd hm Std.ExtTreeSet.not_mem_empty
  emptied _ _ := h.empty

theorem Stays.advances (h : b.Stays b') : b.Advances again b' where
  state := by
    rw [h.state]
    exact .stays b.state
  gains m hm new :=
    have recording := (h.gains m hm).resolve_left new
    ⟨recording, h.state.trans recording⟩
  emptied moved _ := absurd h.state moved

end CommandBuffer

/-! ## Operations that neither begin nor end a recording -/

namespace CommandTracker

variable {t u : CommandTracker} {cb : Handle}

/-- Every command buffer stays as it is, or is bare. -/
def Eases (t u : CommandTracker) : Prop :=
  ∀ c b', u.buffers.find? c = some b' →
    b'.Bare ∨ ∃ b, t.buffers.find? c = some b ∧ b.Stays b'

instance : IsPreorder CommandTracker Eases where
  refl _ _ b hb := .inr ⟨b, hb, CommandBuffer.stays_of_eq rfl rfl⟩
  trans _ _ _ h k c b'' hb'' := by
    rcases k c b'' hb'' with bare | ⟨b', hb', later⟩
    · exact .inl bare
    · rcases h c b' hb' with bare | ⟨b, hb, first⟩
      · exact .inl (bare.stays later)
      · exact .inr ⟨b, hb, first.trans later⟩

theorem eases_of_buffers (h : u.buffers = t.buffers) : t.Eases u := by
  intro c b hb
  rw [h] at hb
  exact .inr ⟨b, hb, CommandBuffer.stays_of_eq rfl rfl⟩

theorem eases_change {f : CommandBuffer → CommandBuffer}
    (hf : ∀ b, t.buffers.find? cb = some b → (f b).Bare ∨ b.Stays (f b)) :
    t.Eases (t.change cb f) := by
  intro c b' hb'
  rw [find?_change] at hb'
  split at hb'
  next here =>
    obtain ⟨b, hb, rfl⟩ := Option.map_eq_some_iff.mp hb'
    exact (hf b (here ▸ hb)).imp_right fun stays => ⟨b, hb, stays⟩
  next => exact .inr ⟨b', hb', CommandBuffer.stays_of_eq rfl rfl⟩

theorem eases_enter {buffers : Registry .commandBuffer CommandBuffer} {pool : Handle}
    (view : ∀ g, buffers.find? g = if g = cb then some (.fresh pool) else t.buffers.find? g) :
    t.Eases { t with buffers } := by
  intro c b hb
  have hb : buffers.find? c = some b := hb
  rw [view] at hb
  split at hb
  · cases hb
    exact .inl (CommandBuffer.bare_fresh pool)
  · exact .inr ⟨b, hb, CommandBuffer.stays_of_eq rfl rfl⟩

theorem eases_strike {buffers : Registry .commandBuffer CommandBuffer}
    (view : ∀ g, buffers.find? g = if g = cb then none else t.buffers.find? g) :
    t.Eases { t with buffers } := by
  intro c b hb
  have hb : buffers.find? c = some b := hb
  rw [view] at hb
  split at hb
  · cases hb
  · exact .inr ⟨b, hb, CommandBuffer.stays_of_eq rfl rfl⟩

theorem eases_submitted (cbs : List Handle) (s : Submission) : t.Eases (t.submitted cbs s) := by
  intro c b' hb'
  rw [find?_submitted] at hb'
  split at hb'
  · obtain ⟨b, hb, rfl⟩ := Option.map_eq_some_iff.mp hb'
    exact .inr ⟨b, hb, CommandBuffer.stays_of_eq rfl rfl⟩
  · exact .inr ⟨b', hb', CommandBuffer.stays_of_eq rfl rfl⟩

theorem createPool_eases (pool : Handle) (flags : CommandPoolFlags) :
    (createPool pool flags).Confined Eases :=
  confined_createPool fun _ _ _ => eases_of_buffers rfl

theorem allocate_eases (pool : Handle) (cbs : List Handle) :
    (allocate pool cbs).Confined Eases :=
  confined_allocate (fun _ _ _ _ entered => eases_enter (Registry.find?_register entered))
    fun _ => eases_of_buffers rfl

end CommandTracker

namespace Trackers

variable {α : Type} {t u : Trackers} {cb : Handle}

/-- Every command buffer of a device stays as it is, or is bare. -/
def Eases (t u : Trackers) : Prop := t.commands.Eases u.commands

instance : IsPreorder Trackers Eases where
  refl t := refl_of CommandTracker.Eases t.commands
  trans _ _ _ h k := trans_of CommandTracker.Eases h k

theorem eases_of_commands (h : u.commands = t.commands) : Eases t u :=
  CommandTracker.eases_of_buffers (by rw [h])

theorem onCommands_eases {x : Track CommandTracker α} (hx : x.Confined CommandTracker.Eases) :
    (onCommands x).Confined Eases :=
  hx.within fun _ _ h => h

/-! ### Links -/

/-- The release of links changes no command buffer. -/
theorem releaseLinks_commands (t : Trackers) (cb : Handle) (memories : List Handle) :
    (releaseLinks cb memories).Ends t (fun _ u => u.commands = t.commands)
      fun _ u => u.commands = t.commands := by
  unfold releaseLinks
  refine Track.Ends.forM_keeps (fun u : Trackers => u.commands = t.commands) rfl
    fun memory _ u same => ?_
  rw [Track.ends_restate, Track.ends_discard, onMemory, Track.ends_within]
  exact Track.ends_iff.mpr ⟨fun _ _ => same, fun _ _ => same⟩

/-- What a command buffer touches is emptied first, and its links are released then. -/
theorem releaseAll_commands (t : Trackers) (cb : Handle) :
    (releaseAll cb).Ends t
      (fun _ u => u.commands = t.commands.change cb fun b => { b with memoryRefs := ∅ })
      fun _ u => Eases t u := by
  unfold releaseAll
  rw [Track.ends_bind, Track.ends_query, Track.ends_ofExcept]
  refine ⟨fun b _ => ?_, fun _ _ => refl_of Eases t⟩
  rw [Track.ends_bind, Track.ends_modify]
  refine (releaseLinks_commands _ cb b.memoryRefs.toList).mono (fun _ u hu => hu) fun _ u hu => ?_
  show t.commands.Eases u.commands
  rw [hu]
  exact CommandTracker.eases_change fun b _ =>
    .inr ⟨rfl, fun m hm => absurd hm Std.ExtTreeSet.not_mem_empty⟩

theorem releaseLinks_eases (cb : Handle) (memories : List Handle) :
    (releaseLinks cb memories).Confined Eases := fun t =>
  (releaseLinks_commands t cb memories).mono (fun _ _ => eases_of_commands) fun _ _ =>
    eases_of_commands

theorem clear_eases (cb : Handle) : (clear cb).Confined Eases := by
  intro t
  unfold clear
  rw [Track.ends_bind]
  refine (releaseAll_commands t cb).mono (fun _ u hu => ?_) fun _ _ h => h
  rw [Track.ends_modify]
  show t.commands.Eases (u.commands.change cb _)
  rw [hu, CommandTracker.change_change]
  exact CommandTracker.eases_change fun b _ => .inl ⟨rfl, rfl⟩

/-- A link is entered only while the command buffer records. -/
theorem recordLink_eases (cb memory : Handle) : (recordLink cb memory).Confined Eases := by
  intro t
  unfold recordLink
  refine Track.Asks.before (Track.asks_query fun t => t.commands.mild_checkRecording cb)
    (fun _ hc => ?_) fun _ _ => refl_of Eases t
  rw [Track.on_query] at hc
  obtain ⟨b, hb, recording⟩ := CommandTracker.checkRecording_eq_ok_iff.mp hc
  rw [Track.ends_bind, Track.ends_discard, onMemory, Track.ends_within]
  refine Track.ends_iff.mpr ⟨fun _ _ => ?_, fun _ _ => eases_of_commands rfl⟩
  rw [Track.ends_modify]
  refine CommandTracker.eases_change fun b' hb' => .inr ⟨rfl, fun _ _ => .inr ?_⟩
  rw [hb] at hb'
  cases hb'
  exact recording

/-! ### Destruction and submission -/

theorem destroyCommandBuffer_eases (cb : Handle) : (destroyCommandBuffer cb).Confined Eases :=
  confined_destroyCommandBuffer (fun _ _ _ view => CommandTracker.eases_strike view)
    (releaseLinks_eases cb) fun _ _ => CommandTracker.eases_of_buffers rfl

theorem destroyPool_eases (pool : Handle) : (destroyPool pool).Confined Eases :=
  confined_destroyPool destroyCommandBuffer_eases
    (fun _ _ _ _ _ => CommandTracker.eases_of_buffers rfl) pool

theorem submit_eases (queue : Handle) (submits : List SubmitBatch) (fence : Option Handle) :
    (submit queue submits fence).Confined Eases := by
  intro t
  refine (submit_ends t queue submits fence).mono (fun _ u hu => ?_) fun _ _ hu => ?_
  · obtain ⟨q, -, -, -, rfl, -⟩ := hu
    exact CommandTracker.eases_submitted _ _
  · rw [hu.2]
    exact refl_of Eases t

theorem retireCommandBuffer_eases (s : Nat) (cb : Handle) :
    (retireCommandBuffer s cb).Confined Eases := confined_retireCommandBuffer (clear_eases cb) s

theorem retireUpTo_eases (r : Retirement) : (retireUpTo r).Confined Eases :=
  confined_retireUpTo retireCommandBuffer_eases (fun _ _ _ => eases_of_commands rfl) r

end Trackers

/-! ## Begin and end of a recording -/

namespace CommandTracker

variable {t : CommandTracker} {c : Handle} {b : CommandBuffer}

/-- The pool of a command buffer allows to begin it anew. -/
def Resettable (t : CommandTracker) (b : CommandBuffer) : Prop :=
  ∃ p, t.pools.find? b.pool = some p ∧ p.flags.contains CommandPoolFlags.resetCommandBuffer = true

theorem checkBegin_moves {queues : QueueTracker} {v : Unit} (h : t.checkBegin queues c = .ok v) :
    ∃ b, t.buffers.find? c = some b ∧ b.state.Moves (t.Resettable b) .recording := by
  obtain ⟨b, hl, h⟩ := bind_eq_ok_iff.mp h
  refine ⟨b, lookup_eq_ok_iff.mp hl, ?_⟩
  cases hs : b.state with
  | initial => exact .begins
  | recording =>
      rw [hs] at h
      cases h
  | executable =>
      rw [hs] at h
      obtain ⟨p, hp, h⟩ := bind_eq_ok_iff.mp h
      refine .beginsAnew ⟨p, pool_eq_ok_iff.mp hp, ?_⟩
      split at h
      next allowed => exact allowed
      next => cases h

end CommandTracker

namespace Trackers

variable {t u : Trackers}

/-- A begin that is not refused makes the command buffer record. -/
theorem begin_commands (t : Trackers) (cb : Handle) (usage : CommandBufferUsage) :
    (begin cb usage).Ends t
      (fun _ u => (∃ b, t.commands.buffers.find? cb = some b ∧
          b.state.Moves (t.commands.Resettable b) .recording) ∧
        u.commands = t.commands.change cb fun b => ⟨b.pool, .recording, usage, ∅, none⟩)
      fun _ u => Eases t u := by
  unfold begin
  refine Track.Asks.before (Track.asks_query fun t => t.commands.mild_checkBegin t.queues cb)
    (fun _ hc => ?_) fun _ _ => refl_of Eases t
  rw [Track.on_query] at hc
  rw [Track.ends_bind]
  refine (releaseAll_commands t cb).mono (fun _ u hu => ?_) fun _ _ h => h
  rw [Track.ends_bind, Track.ends_modify, Track.ends_debug]
  refine ⟨CommandTracker.checkBegin_moves hc, ?_⟩
  show u.commands.change cb _ = _
  rw [hu, CommandTracker.change_change]
  rfl

/-- An end that is not refused makes the command buffer executable. -/
theorem finish_commands (t : Trackers) (cb : Handle) :
    (onCommands (CommandTracker.finish cb)).Ends t
      (fun _ u => (∃ b, t.commands.buffers.find? cb = some b ∧ b.state = .recording) ∧
        u.commands = t.commands.change cb fun b => { b with state := .executable })
      fun _ u => Eases t u := by
  unfold onCommands CommandTracker.finish
  rw [Track.ends_within, Track.ends_bind, Track.ends_query, Track.ends_ofExcept]
  refine ⟨fun b hl => ?_, fun _ _ => refl_of Eases t⟩
  split
  next other => exact refl_of Eases t
  next recording =>
    exact ⟨⟨b, CommandTracker.lookup_eq_ok_iff.mp hl, not_ne_iff.mp recording⟩, rfl⟩

end Trackers

/-! ## Operations -/

/-- The operations on the command buffers of a device. -/
inductive CommandOperation
  | createPool (pool : Handle) (flags : CommandPoolFlags)
  | destroyPool (pool : Handle)
  | resetPool (pool : Handle)
  | allocate (pool : Handle) (cbs : List Handle)
  | free (pool : Handle) (cbs : List Handle)
  | begin (cb : Handle) (usage : CommandBufferUsage)
  /-- A command touches an allocation. -/
  | link (cb memory : Handle)
  | record (cb : Handle) (command : Command)
  | finish (cb : Handle)
  | reset (cb : Handle)
  | destroy (cb : Handle)
  /-- The mark that a submission leaves on its command buffers. -/
  | mark (cbs : List Handle) (s : Submission)
  | submit (queue : Handle) (submits : List SubmitBatch) (fence : Option Handle)
  /-- What the retirement of a submission does to one command buffer. -/
  | settle (sequence : Nat) (cb : Handle)
  | retire (r : Retirement)

namespace CommandOperation

open Trackers (onCommands Eases)

/-- An operation, without its answer. -/
def run : CommandOperation → Track Trackers Unit
  | createPool pool flags => onCommands (CommandTracker.createPool pool flags)
  | destroyPool pool => discard (Trackers.destroyPool pool)
  | resetPool pool => Trackers.resetPool pool
  | allocate pool cbs => onCommands (CommandTracker.allocate pool cbs)
  | free pool cbs => Trackers.freeCommandBuffers pool cbs
  | begin cb usage => Trackers.begin cb usage
  | link cb memory => Trackers.recordLink cb memory
  | record cb command => Trackers.record cb command
  | finish cb => onCommands (CommandTracker.finish cb)
  | reset cb => Trackers.reset cb
  | destroy cb => Trackers.destroyCommandBuffer cb
  | mark cbs s => modify fun t => { t with commands := t.commands.submitted cbs s }
  | submit queue submits fence => discard (Trackers.submit queue submits fence)
  | settle sequence cb => Trackers.retireCommandBuffer sequence cb
  | retire r => discard (Trackers.retireUpTo r)

/-- An operation begins the recording of a command buffer. -/
def Begins : CommandOperation → Handle → Prop
  | begin cb _, c => cb = c
  | _, _ => False

/-- Every command buffer that is live before and after an operation has advanced; an
executable one begins anew only if the operation begins it and its pool allows it. -/
def Advances (op : CommandOperation) (t u : Trackers) : Prop :=
  ∀ c b b', t.commands.buffers.find? c = some b → u.commands.buffers.find? c = some b' →
    b.Advances (op.Begins c ∧ t.commands.Resettable b) b'

variable {op : CommandOperation} {t u : Trackers} {cb : Handle}

theorem advances_of_eases (h : Eases t u) : op.Advances t u := by
  intro c b b' hb hb'
  rcases h c b' hb' with bare | ⟨old, ho, stays⟩
  · exact bare.advances
  · rw [hb] at ho
    cases ho
    exact stays.advances

theorem advances_of_confined {x : Track Trackers Unit} (h : x.Confined Eases) :
    x.Ends t (fun _ => op.Advances t) fun _ => op.Advances t :=
  (h t).mono (fun _ _ => advances_of_eases) fun _ _ => advances_of_eases

/-- The change of one record advances the others too. -/
theorem advances_of_change {f : CommandBuffer → CommandBuffer} {b : CommandBuffer}
    (hb : t.commands.buffers.find? cb = some b)
    (advances : b.Advances (op.Begins cb ∧ t.commands.Resettable b) (f b))
    (hu : u.commands = t.commands.change cb f) : op.Advances t u := by
  intro c old new ho hn
  rw [hu, CommandTracker.find?_change, ho] at hn
  split at hn
  next here =>
    rw [here, hb] at ho
    cases ho
    cases hn
    exact here ▸ advances
  next =>
    cases hn
    exact (CommandBuffer.stays_of_eq rfl rfl).advances

/-- Every operation advances the command buffers, whatever the books are and wherever it
stops. -/
theorem run_advances (op : CommandOperation) (t : Trackers) :
    op.run.Ends t (fun _ => op.Advances t) fun _ => op.Advances t := by
  cases op with
  | createPool pool flags =>
      exact advances_of_confined
        (Trackers.onCommands_eases (CommandTracker.createPool_eases pool flags))
  | destroyPool pool => exact advances_of_confined (Trackers.destroyPool_eases pool).discard
  | resetPool pool =>
      exact advances_of_confined (Trackers.confined_resetPool
        (fun cb => Trackers.confined_reset (Trackers.clear_eases cb)) pool)
  | allocate pool cbs =>
      exact advances_of_confined
        (Trackers.onCommands_eases (CommandTracker.allocate_eases pool cbs))
  | free pool cbs =>
      exact advances_of_confined (Trackers.confined_freeCommandBuffers
        (fun cb _ => Trackers.destroyCommandBuffer_eases cb) pool)
  | begin cb usage =>
      refine (Trackers.begin_commands t cb usage).mono (fun _ u hu => ?_) fun _ _ =>
        advances_of_eases
      obtain ⟨⟨b, hb, moves⟩, hu⟩ := hu
      refine advances_of_change hb ⟨moves.imp fun allowed => ⟨rfl, allowed⟩, fun m hm => ?_,
        fun _ _ => rfl⟩ hu
      exact absurd hm Std.ExtTreeSet.not_mem_empty
  | link cb memory => exact advances_of_confined (Trackers.recordLink_eases cb memory)
  | record cb command =>
      exact advances_of_confined
        (Trackers.confined_record (Trackers.recordLink_eases cb) command)
  | finish cb =>
      refine (Trackers.finish_commands t cb).mono (fun _ u hu => ?_) fun _ _ => advances_of_eases
      obtain ⟨⟨b, hb, recording⟩, hu⟩ := hu
      refine advances_of_change hb ⟨?_, fun m hm new => absurd hm new, fun _ h => ?_⟩ hu
      · rw [recording]
        exact .ends
      · rcases h with initial | recording
        · cases initial
        · cases recording
  | reset cb => exact advances_of_confined (Trackers.confined_reset (Trackers.clear_eases cb))
  | destroy cb => exact advances_of_confined (Trackers.destroyCommandBuffer_eases cb)
  | mark cbs s => exact advances_of_eases (CommandTracker.eases_submitted cbs s)
  | submit queue submits fence =>
      exact advances_of_confined (Trackers.submit_eases queue submits fence).discard
  | settle sequence cb =>
      exact advances_of_confined (Trackers.retireCommandBuffer_eases sequence cb)
  | retire r => exact advances_of_confined (Trackers.retireUpTo_eases r).discard

end CommandOperation

end GpuAudit
