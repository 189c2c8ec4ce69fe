import GpuAudit.Proofs.Consistency

/-!
# Recording a command is all or nothing

A command is recorded exactly if the command buffer is recording and every resource that the
command touches serves the use made of it (`MayRecord`).  The check of this comes first and
changes nothing.  What follows is a warning for each resource that is not bound and a link to
each allocation that a resource is bound to.

A link is entered once for each use, and entering it a second time changes nothing, so the
books depend on the set of the allocations only (`RecordsCommand`).  Where the books agree these are
live; so a link can only fail at an allocation that has as many as can be counted.
-/

namespace GpuAudit

open MemoryObject (maxRefCount)

/-! ## Operations that leave no notes -/

namespace Track

variable {σ τ α β : Type} {x : Track σ α} {f : α → Track σ β} {s : σ}

/-- An operation that leaves no notes in any state. -/
def Silent (x : Track σ α) : Prop := ∀ s, (x.on s).notes = []

theorem Silent.bind (hx : x.Silent) (hf : ∀ a, (f a).Silent) : (x >>= f).Silent := by
  intro s
  cases hv : (x.on s).value with
  | ok a =>
      have hxs : x.on s = ⟨.ok a, (x.on s).state, []⟩ := by rw [← hv, ← hx s]
      rw [on_bind_of_ok hxs, hf a]
      rfl
  | error v =>
      have hxs : x.on s = ⟨.error v, (x.on s).state, []⟩ := by rw [← hv, ← hx s]
      rw [on_bind_of_error hxs]

theorem Silent.discard (hx : x.Silent) : (discard x).Silent := by
  unfold Functor.discard Functor.mapConst
  exact hx.bind fun _ _ => rfl

theorem Silent.within {get : σ → τ} {set : τ → σ → σ} {x : Track τ α} (hx : x.Silent) :
    (within get set x).Silent := fun s => hx (get s)

theorem Silent.ite {c : Prop} [Decidable c] {y : Track σ α} (hx : x.Silent) (hy : y.Silent) :
    (if c then x else y).Silent := by
  split
  · exact hx
  · exact hy

theorem Silent.forM {f : β → Track σ PUnit} (hf : ∀ b, (f b).Silent) :
    ∀ bs : List β, (bs.forM f).Silent
  | [] => fun _ => rfl
  | b :: bs => (hf b).bind fun _ => Silent.forM hf bs

/-- Questions asked one after another are one question. -/
theorem on_forM_query (question : β → σ → Except Violation Unit) (s : σ) : ∀ bs : List β,
    (bs.forM fun b => query (question b)).on s = ⟨bs.forM fun b => question b s, s, []⟩
  | [] => rfl
  | b :: bs => by
      show ((query (question b)) >>= fun _ => bs.forM fun b => query (question b)).on s =
        ⟨question b s >>= fun _ => bs.forM fun b => question b s, s, []⟩
      cases hb : question b s with
      | ok u =>
          rw [on_bind_of_ok (by rw [on_query, hb]), on_forM_query question s bs]
          rfl
      | error v => rw [on_bind_of_error (by rw [on_query, hb])]; rfl

/-- Warnings about some elements of a list are left in the order of the list. -/
theorem on_forM_warn (p : β → Prop) [DecidablePred p] (cause : β → Violation) (s : σ) :
    ∀ bs : List β, (bs.forM fun b => if p b then warn (cause b) else pure ⟨⟩ : Track σ PUnit).on s =
      ⟨.ok ⟨⟩, s, (bs.filter p).map fun b => .warning (cause b).toWarning⟩
  | [] => rfl
  | b :: bs => by
      show ((if p b then warn (cause b) else pure ⟨⟩) >>= fun _ =>
        bs.forM fun b => if p b then warn (cause b) else pure ⟨⟩ : Track σ PUnit).on s = _
      by_cases hb : p b
      · rw [if_pos hb, on_bind_of_ok (on_warn _ s), on_forM_warn p cause s bs]
        simp [hb]
      · rw [if_neg hb, on_bind_of_ok (on_pure _ s), on_forM_warn p cause s bs]
        simp [hb]

end Track

/-! ## What a command needs -/

/-- A resource was created for a use: it is of the kind that is asked for, and what it was
created for contains it. -/
def ResourceInfo.Serves : ResourceInfo → RequiredUsage → Prop
  | .buffer info, .buffer required => info.usage.contains required = true
  | .image info, .image required => info.usage.contains required = true
  | _, _ => False

theorem ResourceTracker.requireUsage_eq_ok_iff {t : ResourceTracker} {r : Handle}
    {usage : RequiredUsage} {v : Unit} : t.requireUsage r usage = .ok v ↔
      ∃ x, t.find? r = some x ∧ x.info.Serves usage := by
  unfold requireUsage
  simp only [bind_eq_ok_iff, lookup_eq_ok_iff]
  refine exists_congr fun x => and_congr_right fun _ => ?_
  unfold ResourceInfo.Serves requireUsage.refuse
  cases x.info with
  | buffer _ => cases usage <;> simp
  | image _ => cases usage <;> simp

theorem ResourceTracker.toOption_lookup (t : ResourceTracker) (r : Handle) :
    (t.lookup r).toOption = t.find? r := by
  cases hl : t.lookup r with
  | ok x => exact (lookup_eq_ok_iff.mp hl).symm
  | error v =>
      symm
      rw [Except.toOption, Option.eq_none_iff_forall_ne_some]
      intro x found
      rw [lookup_eq_ok_iff.mpr found] at hl
      cases hl

/-- A resource is known and has no memory. -/
def ResourceTracker.isUnbound (t : ResourceTracker) (r : Handle) : Bool :=
  (t.find? r).any (·.binding = .unbound)

/-- The record of an allocation that lists a command buffer.  One that is listed already is
not counted again. -/
def MemoryObject.listing (cb : Handle) (m : MemoryObject) : MemoryObject :=
  if cb ∈ m.commandBuffers then m else m.retain cb

namespace MemoryObject

variable {m : MemoryObject} {cb : Handle}

theorem mem_listing : cb ∈ (m.listing cb).commandBuffers := by
  unfold listing
  split
  next listed => exact listed
  next _ => exact Handle.mem_insert.mpr (.inl rfl)

theorem listing_listing : (m.listing cb).listing cb = m.listing cb := if_pos mem_listing

theorem Tallied.listing (h : m.Tallied) (cb : Handle) : (m.listing cb).Tallied := by
  unfold MemoryObject.listing
  split
  next _ => exact h
  next new => exact h.retain new

end MemoryObject

namespace Trackers

variable {t u : Trackers} {cb memory : Handle} {command : Command} {b : CommandBuffer}
  {m : MemoryObject} {memories : List Handle}

/-- The command buffer is recording, and every resource that the command touches is known and
serves the use made of it. -/
structure MayRecord (t : Trackers) (cb : Handle) (command : Command) : Prop where
  /-- The command buffer is recording. -/
  recording : ∃ b, t.commands.buffers.find? cb = some b ∧ b.state = .recording
  /-- The resources serve. -/
  served : ∀ use ∈ command.uses,
    ∃ x, t.resources.find? use.resource = some x ∧ x.info.Serves use.usage

/-- A resource that the command touches is bound to the allocation. -/
def Uses (t : Trackers) (command : Command) (memory : Handle) : Prop :=
  ∃ use ∈ command.uses, t.resources.BoundTo use.resource memory

/-- The allocations that the resources of a command are bound to, one for each use. -/
def memoriesOf (t : Trackers) (command : Command) : List Handle :=
  (t.resourcesOf command).filterMap fun (_, r) => r.memory?

theorem mem_resourcesOf {r : Handle} {x : Resource} : (r, x) ∈ t.resourcesOf command ↔
    t.resources.find? r = some x ∧ ∃ use ∈ command.uses, use.resource = r := by
  simp only [resourcesOf, ResourceTracker.toOption_lookup, List.mem_filterMap,
    Option.map_eq_some_iff, Prod.mk.injEq]
  constructor
  · rintro ⟨use, hu, y, hy, rfl, rfl⟩
    exact ⟨hy, use, hu, rfl⟩
  · rintro ⟨hx, use, hu, rfl⟩
    exact ⟨use, hu, x, hx, rfl, rfl⟩

theorem mem_memoriesOf : memory ∈ t.memoriesOf command ↔ t.Uses command memory := by
  unfold memoriesOf Uses ResourceTracker.BoundTo
  rw [List.mem_filterMap]
  constructor
  · rintro ⟨⟨r, x⟩, hx, bound⟩
    obtain ⟨found, use, hu, rfl⟩ := mem_resourcesOf.mp hx
    exact ⟨use, hu, x, found, bound⟩
  · rintro ⟨use, hu, x, found, bound⟩
    exact ⟨(use.resource, x), mem_resourcesOf.mpr ⟨found, use, hu, rfl⟩, bound⟩

/-- The resources found without memory are those of the uses, in the same order. -/
theorem unbound_resourcesOf : ((t.resourcesOf command).filter fun e =>
      e.2.binding = .unbound).map (·.1) =
    (command.uses.filter fun use => t.resources.isUnbound use.resource).map (·.resource) := by
  simp only [resourcesOf, ResourceTracker.toOption_lookup, ResourceTracker.isUnbound]
  induction command.uses with
  | nil => rfl
  | cons use uses ih =>
      cases hx : t.resources.find? use.resource with
      | none => simpa [hx] using ih
      | some x => by_cases unbound : x.binding = .unbound <;> simpa [hx, unbound] using ih

/-! ## Links -/

/-- Exactly the links of a command buffer to some allocations are entered. -/
structure LinksTo (t : Trackers) (cb : Handle) (memories : List Handle) (u : Trackers) : Prop where
  /-- The allocations list the command buffer. -/
  memory : ∀ g, u.memory.objects.find? g =
    if g ∈ memories then (t.memory.objects.find? g).map (·.listing cb)
    else t.memory.objects.find? g
  /-- The command buffer touches them. -/
  commands : u.commands = t.commands.change cb fun b =>
    { b with memoryRefs := b.memoryRefs.insertMany memories }
  /-- The resources stay. -/
  resources : u.resources = t.resources
  /-- The queues stay. -/
  queues : u.queues = t.queues

theorem linksTo_nil (t : Trackers) (cb : Handle) : t.LinksTo cb [] t where
  memory g := by simp
  commands := by
    refine CommandTracker.ext_find? rfl fun g => ?_
    rw [CommandTracker.find?_change]
    cases t.commands.buffers.find? g <;> simp
  resources := rfl
  queues := rfl

/-- One more link is entered. -/
theorem LinksTo.concat (h : t.LinksTo cb memories u) (memory : Handle) :
    t.LinksTo cb (memories ++ [memory]) { u with
      memory := u.memory.change memory (·.listing cb)
      commands := u.commands.change cb fun b =>
        { b with memoryRefs := b.memoryRefs.insert memory } } where
  memory g := by
    rw [MemoryTracker.find?_change, h.memory]
    by_cases here : g = memory
    · have last : g ∈ memories ++ [memory] := by simp [here]
      rw [if_pos here, if_pos last]
      -- What is listed already is listed again.
      split
      next _ =>
        rw [Option.map_map]
        congr 1
        funext m
        exact MemoryObject.listing_listing
      next _ => rfl
    · simp [here]
  commands := by
    rw [h.commands, CommandTracker.change_change]
    refine congrArg (t.commands.change cb) (funext fun b => ?_)
    have same : (b.memoryRefs.insertMany memories).insert memory =
        b.memoryRefs.insertMany (memories ++ [memory]) := by
      refine Std.ExtTreeSet.ext_mem fun g => ?_
      simp only [Handle.mem_insert, Handle.mem_insertMany, List.mem_append, List.mem_singleton]
      exact or_comm.trans or_assoc
    exact congrArg (fun refs => { b with memoryRefs := refs }) same
  resources := h.resources
  queues := h.queues

/-- Links to live allocations that have room for them can be entered one after another. -/
theorem recordLinks_ends (tallied : t.memory.Tallied) (hb : t.commands.buffers.find? cb = some b)
    (recording : b.state = .recording)
    (live : ∀ g ∈ memories, ∃ m, t.memory.objects.find? g = some m)
    (room : ∀ g ∈ memories, ∀ m, t.memory.objects.find? g = some m → cb ∉ m.commandBuffers →
      m.refCount < maxRefCount) :
    (memories.forM (recordLink cb)).Ends t (fun _ u => t.LinksTo cb memories u)
      fun _ _ => False := by
  refine Track.Ends.forM (t.LinksTo cb) (linksTo_nil t cb) fun front g back u parts links => ?_
  have hg : g ∈ memories := by simp [parts]
  obtain ⟨m, hm⟩ := live g hg
  have passes : u.commands.checkRecording cb = .ok () := by
    refine CommandTracker.checkRecording_eq_ok_iff.mpr
      ⟨{ b with memoryRefs := b.memoryRefs.insertMany front }, ?_, recording⟩
    rw [links.commands, CommandTracker.find?_change, if_pos rfl, hb]
    rfl
  -- The record is the first one, or the one that a use before this has left.
  obtain ⟨x, hx, counts, fits⟩ : ∃ x, u.memory.objects.find? g = some x ∧ x.Tallied ∧
      (cb ∉ x.commandBuffers → x.refCount < maxRefCount) := by
    rw [links.memory, hm]
    split
    next _ =>
      exact ⟨_, rfl, (tallied g m hm).listing cb, fun new => absurd MemoryObject.mem_listing new⟩
    next _ => exact ⟨m, rfl, tallied g m hm, room g hg m hm⟩
  unfold recordLink
  rw [Track.ends_bind, Track.ends_query, passes, Track.ends_ofExcept_ok, Track.ends_bind,
    Track.ends_discard, onMemory, Track.ends_within]
  refine (MemoryTracker.addCommandBuffer_ends hx counts).mono (fun _ v hv => ?_) fun _ _ hf =>
    absurd (fits hf.2.1) (Nat.not_lt.mpr hf.2.2)
  have listed : v = u.memory.change g (·.listing cb) := by
    rw [hv]
    split
    next old =>
      refine MemoryTracker.ext_find? fun k => ?_
      rw [MemoryTracker.find?_change]
      split
      next here => rw [here, hx, Option.map_some, MemoryObject.listing, if_pos old]
      next _ => rfl
    next new => exact MemoryTracker.change_congr hx (if_neg new).symm
  rw [Track.ends_modify, listed]
  exact links.concat g

theorem silent_recordLink (cb memory : Handle) : (recordLink cb memory).Silent := by
  refine Track.Silent.bind (fun _ => rfl) fun _ => Track.Silent.bind ?_ fun _ _ => rfl
  refine Track.Silent.discard (Track.Silent.within (Track.Silent.bind (fun _ => rfl) fun m => ?_))
  refine Track.Silent.ite (fun _ => rfl) ?_
  exact Track.Silent.bind (fun _ => rfl) fun _ => Track.Silent.bind (fun _ => rfl) fun _ =>
    Track.Silent.bind (fun _ => rfl) fun _ _ => rfl

/-! ## Commands -/

/-- What a command leaves beside the links: a warning for each use of a resource that has no
memory. -/
def warningsOf (t : Trackers) (command : Command) : List Diagnostic :=
  (command.uses.filter fun use => t.resources.isUnbound use.resource).map fun use =>
    (Violation.missingBindings use.resource).toWarning

theorem warn_unbound (t : Trackers) (command : Command) :
    ((t.resourcesOf command).forM fun (resource, r) => do
      if r.binding = .unbound then
        Track.warn (.missingBindings resource) : Track Trackers Unit).on t =
      ⟨.ok ⟨⟩, t, (t.warningsOf command).map .warning⟩ := by
  have each := congrArg (List.map fun r => Note.warning (Violation.missingBindings r).toWarning)
    (@unbound_resourcesOf t command)
  rw [List.map_map, List.map_map] at each
  refine (Track.on_forM_warn (fun e : Handle × Resource => e.2.binding = .unbound)
    (fun e => .missingBindings e.1) t _).trans ?_
  rw [warningsOf, List.map_map]
  exact congrArg (Outcome.mk _ t) each

/-- A command that may be recorded leaves its warnings and enters its links. -/
theorem record_of_may (may : t.MayRecord cb command) :
    (record cb command).on t =
      ⟨(((t.memoriesOf command).forM (recordLink cb)).on t).value,
        (((t.memoriesOf command).forM (recordLink cb)).on t).state,
        (t.warningsOf command).map .warning⟩ := by
  have recording : t.commands.checkRecording cb = .ok () :=
    CommandTracker.checkRecording_eq_ok_iff.mpr may.recording
  have served : (command.uses.forM fun use => Track.query fun (t : Trackers) =>
      t.resources.requireUsage use.resource use.usage).on t = ⟨.ok (), t, []⟩ := by
    refine (Track.on_forM_query (fun (use : ResourceUse) (t : Trackers) =>
      t.resources.requireUsage use.resource use.usage) t command.uses).trans ?_
    refine congrArg (Outcome.mk · t []) (forM_eq_ok_iff.mpr fun use hu => ?_)
    exact ResourceTracker.requireUsage_eq_ok_iff.mpr (may.served use hu)
  have links := Track.Silent.forM (silent_recordLink cb) (t.memoriesOf command) t
  unfold record
  rw [Track.on_bind_of_ok (by rw [Track.on_query, recording]), Track.on_bind_of_ok served,
    Track.on_bind_of_ok (Track.on_get t), Track.on_bind_of_ok (warn_unbound t command)]
  unfold memoriesOf at links ⊢
  rw [links]
  simp

/-- A command that may not be recorded is refused. -/
theorem record_of_not_may (may : ¬t.MayRecord cb command) :
    ∃ v : Violation, v.isFatal = false ∧ (record cb command).on t = ⟨.error v, t, []⟩ := by
  unfold record
  cases hr : t.commands.checkRecording cb with
  | error v =>
      refine ⟨v, t.commands.mild_checkRecording cb v hr, ?_⟩
      rw [Track.on_bind_of_error (by rw [Track.on_query, hr])]
  | ok _ =>
      have asked := Track.on_forM_query (fun (use : ResourceUse) (t : Trackers) =>
        t.resources.requireUsage use.resource use.usage) t command.uses
      rw [Track.on_bind_of_ok (by rw [Track.on_query, hr])]
      cases hs : command.uses.forM fun use =>
          t.resources.requireUsage use.resource use.usage with
      | error v =>
          refine ⟨v, Track.Raises.forM (fun use => t.resources.mild_requireUsage use.resource
            use.usage) command.uses v hs, ?_⟩
          rw [hs] at asked
          rw [Track.on_bind_of_error asked]
          rfl
      | ok _ =>
          refine absurd ⟨CommandTracker.checkRecording_eq_ok_iff.mp hr, fun use hu => ?_⟩ may
          exact ResourceTracker.requireUsage_eq_ok_iff.mp (forM_eq_ok_iff.mp hs use hu)

/-- A command is recorded: each allocation that its resources are bound to lists the command
buffer, counted where this is new, and nothing else changes. -/
structure RecordsCommand (t : Trackers) (cb : Handle) (command : Command) (u : Trackers) : Prop where
  /-- The command buffer touches what it did and what the resources are bound to. -/
  own : ∃ b refs, t.commands.buffers.find? cb = some b ∧
    u.commands.buffers.find? cb = some { b with memoryRefs := refs } ∧
    ∀ g, g ∈ refs ↔ g ∈ b.memoryRefs ∨ t.Uses command g
  /-- The other command buffers stay. -/
  others : ∀ c ≠ cb, u.commands.buffers.find? c = t.commands.buffers.find? c
  /-- The pools stay. -/
  pools : u.commands.pools = t.commands.pools
  /-- The allocations list the command buffer, and count it once. -/
  counts : ∀ g, t.Uses command g → ∃ m, t.memory.objects.find? g = some m ∧
    u.memory.objects.find? g = some (if cb ∈ m.commandBuffers then m else { m with
      refCount := m.refCount + 1, commandBuffers := m.commandBuffers.insert cb })
  /-- The other allocations stay. -/
  stays : ∀ g, ¬t.Uses command g → u.memory.objects.find? g = t.memory.objects.find? g
  /-- The resources stay. -/
  resources : u.resources = t.resources
  /-- The queues stay. -/
  queues : u.queues = t.queues

theorem Uses.live (h : t.Linked) (used : t.Uses command memory) :
    ∃ m, t.memory.objects.find? memory = some m := by
  obtain ⟨use, -, bound⟩ := used
  obtain ⟨m, hm, -⟩ := h.live bound
  exact ⟨m, hm⟩

theorem LinksTo.records (h : t.LinksTo cb (t.memoriesOf command) u) (linked : t.Linked)
    (hb : t.commands.buffers.find? cb = some b) : t.RecordsCommand cb command u where
  own := by
    refine ⟨b, b.memoryRefs.insertMany (t.memoriesOf command), hb, ?_, fun g => ?_⟩
    · rw [h.commands, CommandTracker.find?_change, if_pos rfl, hb]
      rfl
    · rw [Handle.mem_insertMany, mem_memoriesOf]
  others c other := by rw [h.commands, CommandTracker.find?_change, if_neg other]
  pools := by rw [h.commands, CommandTracker.pools_change]
  counts g used := by
    obtain ⟨m, hm⟩ := used.live linked
    refine ⟨m, hm, ?_⟩
    rw [h.memory, if_pos (mem_memoriesOf.mpr used), hm]
    exact rfl
  stays g unused := by rw [h.memory, if_neg (mt mem_memoriesOf.mp unused)]
  resources := h.resources
  queues := h.queues

/-- Where the books agree, only an allocation with as many links as can be counted stands in
the way of a command that may be recorded. -/
theorem Sound.record_exactly (h : t.Sound) (cb : Handle) (command : Command)
    (room : ∀ g m, t.Uses command g → t.memory.objects.find? g = some m →
      cb ∉ m.commandBuffers → m.refCount < maxRefCount) :
    (record cb command).Exactly t (t.MayRecord cb command) (·.isFatal = false)
      fun _ u => t.RecordsCommand cb command u := by
  unfold Track.Exactly Track.Ends
  by_cases may : t.MayRecord cb command
  · obtain ⟨b, hb, recording⟩ := may.recording
    have live : ∀ g ∈ t.memoriesOf command, ∃ m, t.memory.objects.find? g = some m :=
      fun g hg => (mem_memoriesOf.mp hg).live h.linked
    have links := recordLinks_ends h.linked.tallied hb recording live
      fun g hg m => room g m (mem_memoriesOf.mp hg)
    obtain ⟨_, answer, linked⟩ := links.answers
    rw [record_of_may may, answer]
    exact ⟨may, linked.records h.linked hb⟩
  · obtain ⟨v, mild, refused⟩ := record_of_not_may may
    rw [refused]
    exact ⟨rfl, may, mild⟩

/-- The warnings of a command, which it leaves exactly if it is recorded. -/
theorem warnings_of_record (t : Trackers) (cb : Handle) (command : Command) :
    (t.MayRecord cb command →
      ((record cb command).on t).notes.filterMap (·.warning?) = t.warningsOf command) ∧
    (¬t.MayRecord cb command →
      ((record cb command).on t).notes.filterMap (·.warning?) = []) := by
  constructor
  · intro may
    rw [record_of_may may, List.filterMap_map]
    exact List.filterMap_some
  · intro may
    obtain ⟨v, -, refused⟩ := record_of_not_may may
    rw [refused]
    rfl

end Trackers

namespace Layer

variable {l : Layer} {config : Config} {device : Handle} {session : Session}

/-- In every session of every run a command is recorded exactly if the command buffer is
recording and every resource that the command touches is known and serves the use made of it.
Then the command buffer touches, beside what it did, the allocations that the resources are
bound to; these list the command buffer, each counted once; and the uses of resources without
memory are warned of in their order.  Otherwise nothing changes and nothing is warned of. -/
theorem commands_exactly (h : Reached Sheltered config l)
    (hs : l.sessions[device]? = some session)
    (few : session.halted = true → session.trackers.memory.Counted) (cb : Handle)
    (command : Command)
    (room : ∀ g m, session.trackers.Uses command g →
      session.trackers.memory.objects.find? g = some m → cb ∉ m.commandBuffers →
      m.refCount < maxRefCount) :
    ((Trackers.record cb command).Exactly session.trackers
      (session.trackers.MayRecord cb command) (·.isFatal = false)
      fun _ u => session.trackers.RecordsCommand cb command u) ∧
    (session.trackers.MayRecord cb command →
      ((Trackers.record cb command).on session.trackers).notes.filterMap (·.warning?) =
        session.trackers.warningsOf command) ∧
    (¬session.trackers.MayRecord cb command →
      ((Trackers.record cb command).on session.trackers).notes.filterMap (·.warning?) = []) :=
  ⟨(books_of_sheltered h hs few).sound.record_exactly cb command room,
    Trackers.warnings_of_record session.trackers cb command⟩

/-- Of three buffers for vertices one is bound, one is not, and one was created for something
else.  A command buffer is being recorded. -/
def vertexBuffers : List Hook :=
  [.post (.createDevice ⟨1, .device⟩) .success,
   .post (.allocateMemory ⟨1, .device⟩ ⟨2, .deviceMemory⟩ { size := 4096 }) .success,
   .post (.createBuffer ⟨1, .device⟩ ⟨3, .buffer⟩ ⟨256, .vertexBuffer, false⟩) .success,
   .post (.createBuffer ⟨1, .device⟩ ⟨4, .buffer⟩ ⟨256, .vertexBuffer, false⟩) .success,
   .post (.createBuffer ⟨1, .device⟩ ⟨5, .buffer⟩ ⟨256, .transferDst, false⟩) .success,
   .pre (.bindBufferMemory ⟨1, .device⟩ ⟨3, .buffer⟩ ⟨2, .deviceMemory⟩ 0),
   .post (.createCommandPool ⟨1, .device⟩ ⟨6, .commandPool⟩ .empty) .success,
   .post (.allocateCommandBuffers ⟨1, .device⟩ ⟨6, .commandPool⟩ [⟨7, .commandBuffer⟩]) .success,
   .pre (.beginCommandBuffer ⟨7, .commandBuffer⟩ .empty)]

/-- The bound buffer is bound for vertices twice, with the other one between: the allocation
is counted once, and there is one warning.  With the buffer for something else at the end
nothing happens. -/
theorem commands_of_vertexBuffers :
    ∃ session ∈ ((start {}).run vertexBuffers).sessions[(⟨1, .device⟩ : Handle)]?,
      let binding (buffers : List Handle) := (Trackers.record ⟨7, .commandBuffer⟩
        (.bindVertexBuffers buffers)).on session.trackers
      (∃ m, session.trackers.memory.objects.find? ⟨2, .deviceMemory⟩ = some m ∧
        (binding [⟨3, .buffer⟩, ⟨4, .buffer⟩, ⟨3, .buffer⟩]).state.memory.objects.find?
          ⟨2, .deviceMemory⟩ = some (m.listing ⟨7, .commandBuffer⟩)) ∧
      (binding [⟨3, .buffer⟩, ⟨4, .buffer⟩, ⟨3, .buffer⟩]).notes.filterMap (·.warning?) =
        [(Violation.missingBindings ⟨4, .buffer⟩).toWarning] ∧
      (binding [⟨3, .buffer⟩, ⟨4, .buffer⟩, ⟨5, .buffer⟩]).state = session.trackers := by
  have reached : Reached Sheltered {} ((start {}).run vertexBuffers) :=
    Reached.start.run (by decide +kernel)
  have found : ∃ session ∈ ((start {}).run vertexBuffers).sessions[(⟨1, .device⟩ : Handle)]?,
      let binding (buffers : List Handle) := (Trackers.record ⟨7, .commandBuffer⟩
        (.bindVertexBuffers buffers)).on session.trackers
      (session.halted = true → session.trackers.memory.Counted) ∧
      (∀ e ∈ session.trackers.memory.objects.entries, e.2.refCount < maxRefCount) ∧
      (∃ x ∈ session.trackers.resources.find? ⟨3, .buffer⟩,
        x.memory? = some ⟨2, .deviceMemory⟩) ∧
      session.trackers.warningsOf (.bindVertexBuffers [⟨3, .buffer⟩, ⟨4, .buffer⟩, ⟨3, .buffer⟩]) =
        [(Violation.missingBindings ⟨4, .buffer⟩).toWarning] ∧
      (binding [⟨3, .buffer⟩, ⟨4, .buffer⟩, ⟨3, .buffer⟩]).value = .ok ⟨⟩ ∧
      (binding [⟨3, .buffer⟩, ⟨4, .buffer⟩, ⟨5, .buffer⟩]).value = .error
        (.invalidUsage ⟨5, .buffer⟩ ("requires BufferUsage(VERTEX_BUFFER) but was created " ++
          "with BufferUsage(TRANSFER_DST)")) := by
    decide +kernel
  obtain ⟨session, hs, few, room, bound, warned, recorded, refused⟩ := found
  have exact := fun buffers => commands_exactly reached hs few ⟨7, .commandBuffer⟩
    (.bindVertexBuffers buffers) fun g m _ hm _ => room (g, m) (Registry.mem_entries.mpr hm)
  obtain ⟨ends, warnings, -⟩ := exact [⟨3, .buffer⟩, ⟨4, .buffer⟩, ⟨3, .buffer⟩]
  have done := ends.good_of_ok recorded
  refine ⟨session, hs, done.2.counts _ ⟨_, List.mem_cons_self, bound⟩, ?_, ?_⟩
  · exact (warnings done.1).trans warned
  · exact ((exact _).1.bad_of_error refused).1

end Layer

end GpuAudit
