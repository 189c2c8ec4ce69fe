import GpuAudit.Proofs.Commands
import GpuAudit.Proofs.Tracking

/-!
# Calls that name what is gone

A call that names a queue, an allocation or a command buffer that its device does not track is
refused (`validate_missed`).  The violation is that there is no such object, unless a check
that comes before finds something else: such a check `Hides` the missing handle.

Where a call names several handles they are checked in the order of the list, so what hides a
handle comes `Behind` nothing that passes: the first mention counts.
-/

namespace GpuAudit

/-- The queues, allocations and command buffers that a call names and does not create. -/
def Call.mentions : Call → List Handle
  | .freeMemory _ memory | .mapMemory _ memory .. | .unmapMemory _ memory
  | .bindBufferMemory _ _ memory _ | .bindImageMemory _ _ memory _ => [memory]
  | .queueBindSparse queue binds => queue :: binds.filterMap (·.memory)
  | .freeCommandBuffers _ _ cbs => cbs
  | .beginCommandBuffer cb _ | .endCommandBuffer cb | .resetCommandBuffer cb
  | .recordCommand cb _ => [cb]
  | .queueSubmit queue submits _ => queue :: submits.flatMap (·.commandBuffers)
  | .queueWaitIdle queue => [queue]
  | _ => []

/-! ## Lists -/

/-- A handle is mentioned first after another one that fails. -/
def Behind (fails : Handle → Prop) (h : Handle) (hs : List Handle) : Prop :=
  ∃ front back, hs = front ++ h :: back ∧ h ∉ front ∧ ∃ c ∈ front, fails c

/-- The first element of a list that yields a handle. -/
theorem first_yielding {β : Type} {f : β → Option Handle} {h : Handle} {bs : List β}
    (named : h ∈ bs.filterMap f) :
    ∃ front b back, bs = front ++ b :: back ∧ f b = some h ∧ h ∉ front.filterMap f := by
  obtain ⟨as, cs, parts, first⟩ := List.eq_append_cons_of_mem named
  obtain ⟨front, rest, rfl, rfl, later⟩ := List.filterMap_eq_append_iff.mp parts
  obtain ⟨idle, b, back, rfl, none, yields, -⟩ := List.filterMap_eq_cons_iff.mp later
  refine ⟨front ++ idle, b, back, by simp, yields, ?_⟩
  rw [List.filterMap_append, List.mem_append, not_or]
  exact ⟨first, by simpa using fun x hx => by simp [none x hx]⟩

/-- A loop of checks stops at a handle that is missing, or before it. -/
theorem Track.ends_forM_missed {σ : Type} {s : σ} {f : Handle → Track σ PUnit}
    {h : Handle} {hs : List Handle} (passes : Handle → Prop)
    (step : ∀ c, (f c).Ends s (fun _ t => t = s ∧ passes c) fun _ _ => ¬passes c)
    (missed : (f h).Ends s (fun _ _ => False) fun v _ => v.Misses h) (named : h ∈ hs) :
    (hs.forM f).Ends s (fun _ _ => False)
      fun v _ => v.Misses h ∨ Behind (fun c => ¬passes c) h hs := by
  obtain ⟨front, back, rfl, first⟩ := List.eq_append_cons_of_mem named
  have checked : (front.forM f).Ends s (fun _ t => t = s ∧ ∀ c ∈ front, passes c)
      fun _ _ => ∃ c ∈ front, ¬passes c :=
    Track.ends_forM_checks front passes _ fun c hc =>
      (step c).mono (fun _ _ ht => ht) fun _ _ fails => ⟨c, hc, fails⟩
  rw [Track.ends_forM_append]
  refine checked.mono (fun _ t ht => ?_) fun _ _ fails =>
    .inr ⟨front, back, rfl, first, fails⟩
  rw [ht.1, Track.ends_forM_cons]
  exact missed.mono (fun _ _ never => never.elim) fun _ _ misses => .inl misses

namespace Trackers

variable {t : Trackers} {owners : Owners} {device h : Handle} {call : Call}

/-! ## Sparse bindings -/

/-- What a check of sparse bindings remembers after a part of the list. -/
def remembered (bound : Std.ExtTreeMap Handle Bool) (front : List SparseBind) :
    Std.ExtTreeMap Handle Bool :=
  front.foldl (fun bound b => bound.insert b.resource b.memory.isSome) bound

theorem checkSparse_append {bs : List SparseBind} :
    ∀ {front : List SparseBind} {bound : Std.ExtTreeMap Handle Bool},
      t.checkSparse bound (front ++ bs) =
        t.checkSparse bound front >>= fun _ => t.checkSparse (remembered bound front) bs
  | [], _ => rfl
  | b :: front, bound => by
      rw [List.cons_append, checkSparse_cons, checkSparse_cons t bound b front, bind_assoc]
      refine congrArg _ (funext fun _ => ?_)
      exact checkSparse_append

/-! ## What hides a handle -/

/-- Another device owns an allocation. -/
def Elsewhere (owners : Owners) (device memory : Handle) : Prop :=
  ∃ other, owners[memory]? = some other ∧ other ≠ device

/-- A check of a call fails that comes before the one of a handle.

Memory of another device is refused before all else, also for other bindings of the list.  A
list is checked in order, and of a binding the resource comes before the memory.  What a pool
lists is live, except where an internal error has stopped an operation half way. -/
def Hides (t : Trackers) (owners : Owners) (device h : Handle) : Call → Prop
  | .bindBufferMemory _ buffer memory _ => Elsewhere owners device memory ∨
      ¬(buffer.kind = .buffer ∧ ∃ x, t.resources.find? buffer = some x)
  | .bindImageMemory _ image memory _ => Elsewhere owners device memory ∨
      ¬(image.kind = .image ∧ ∃ x, t.resources.find? image = some x)
  | .queueBindSparse queue binds => h ≠ queue ∧ (t.queues.queues.find? queue = none ∨
      (∃ memory ∈ binds.filterMap (·.memory), Elsewhere owners device memory) ∨
      ∃ front b back, binds = front ++ b :: back ∧ b.memory = some h ∧
        h ∉ front.filterMap (·.memory) ∧ (t.checkSparse ∅ front ≠ .ok () ∨
          ¬∃ x, t.resources.find? b.resource = some x ∧ x.info.isSparse = true))
  | .freeCommandBuffers _ pool cbs => t.commands.pools.find? pool = none ∨
      ∃ p, t.commands.pools.find? pool = some p ∧
        (h ∈ p.buffers ∨ Behind (· ∉ p.buffers) h cbs)
  | .queueSubmit queue submits fence => h ≠ queue ∧ (t.queues.queues.find? queue = none ∨
      (∃ f ∈ fence, t.queues.checkFenceSubmittable f ≠ .ok ()) ∨
      Behind (fun c => t.commands.checkSubmittable t.queues c ≠ .ok ()) h
        (submits.flatMap (·.commandBuffers)))
  | _ => False

theorem ne_ok_of_error {α : Type} {answer : Except Violation α} {v : Violation}
    (hv : answer = .error v) (a : α) : answer ≠ .ok a := fun ha => by
  rw [hv] at ha
  cases ha

theorem checkMemoryDevice_eq_ok_iff {resource memory : Handle} {u : Unit} :
    checkMemoryDevice owners device resource memory = .ok u ↔
      ¬Elsewhere owners device memory := by
  unfold checkMemoryDevice Elsewhere
  cases owners[memory]? with
  | none => simp
  | some other => by_cases own : other = device <;> simp [own]

theorem elsewhere_of_error {resource memory : Handle} {v : Violation}
    (hv : checkMemoryDevice owners device resource memory = .error v) :
    Elsewhere owners device memory :=
  not_not.mp fun own => ne_ok_of_error hv () (checkMemoryDevice_eq_ok_iff.mpr own)

theorem lookup_missed {kind : ObjectKind} {α : Type} {r : Registry kind α}
    (gone : r.find? h = none) : ∃ v, r.lookup h = .error v ∧ v.Misses h := by
  cases hl : r.lookup h with
  | error v => exact ⟨v, rfl, Registry.misses_lookup h v hl⟩
  | ok record =>
      rw [Registry.lookup_eq_ok_iff, gone] at hl
      cases hl

theorem find?_of_lookup_error {kind : ObjectKind} {α : Type} {r : Registry kind α} {g : Handle}
    {v : Violation} (hl : r.lookup g = .error v) : r.find? g = none := by
  rw [Option.eq_none_iff_forall_ne_some]
  intro record found
  rw [Registry.lookup_eq_ok_iff.mpr found] at hl
  cases hl

theorem lookup_bind_missed {kind : ObjectKind} {α β : Type} {r : Registry kind α}
    (f : α → Except Violation β) (gone : r.find? h = none) :
    ∃ v, (r.lookup h >>= f) = .error v ∧ v.Misses h := by
  obtain ⟨v, hv, misses⟩ := lookup_missed gone
  exact ⟨v, by rw [hv]; rfl, misses⟩

/-- A rule by which a handle is missing stops. -/
theorem ends_missed {σ α : Type} {s : σ} {answer : Except Violation α} {good : α → σ → Prop}
    {bad : Violation → σ → Prop} (missed : ∃ v, answer = .error v ∧ v.Misses h)
    (hb : ∀ v, v.Misses h → bad v s) : (Track.ofExcept answer).Ends s good bad := by
  obtain ⟨v, hv, misses⟩ := missed
  rw [hv]
  exact hb v misses

theorem not_tracks_iff : ¬t.Tracks h ↔ t.queues.queues.find? h = none ∧
    t.memory.objects.find? h = none ∧ t.commands.buffers.find? h = none := by
  simp [tracks_iff]

/-- Of a known resource, the memory is what a binding misses. -/
theorem checkBind_missed {resources : ResourceTracker} {allocations : MemoryTracker}
    {r memory : Handle} {x : Resource} {kind : ObjectKind} (offset : UInt64) (hk : r.kind = kind)
    (hx : resources.find? r = some x) (gone : allocations.objects.find? memory = none) :
    ∃ v, resources.checkBind allocations r memory offset kind = .error v ∧ v.Misses memory := by
  have known : Registry.checkKind kind r = .ok () := Registry.checkKind_eq_ok_iff.mpr hk
  obtain ⟨v, hv, misses⟩ := lookup_missed gone
  refine ⟨v, ?_, misses⟩
  unfold ResourceTracker.checkBind MemoryTracker.lookup
  rw [known, ResourceTracker.lookup_eq_ok_iff.mpr hx, hv]
  rfl

theorem bind_missed {r memory : Handle} (offset : UInt64) (kind : ObjectKind)
    (gone : t.memory.objects.find? memory = none) :
    (do Track.ofExcept (checkMemoryDevice owners device r memory)
        bind r memory offset kind).Ends t (fun _ _ => False)
      fun v _ => v.Misses memory ∨ Elsewhere owners device memory ∨
        ¬(r.kind = kind ∧ ∃ x, t.resources.find? r = some x) := by
  rw [Track.ends_bind, Track.ends_ofExcept]
  refine ⟨fun _ _ => ?_, fun v hv => .inr (.inl (elsewhere_of_error hv))⟩
  unfold bind
  rw [Track.ends_bind, Track.ends_query]
  by_cases known : r.kind = kind ∧ ∃ x, t.resources.find? r = some x
  · obtain ⟨hk, x, hx⟩ := known
    exact ends_missed (checkBind_missed offset hk hx gone) fun _ => .inl
  · refine Track.ends_ofExcept.mpr ⟨fun previous passes => ?_, fun _ _ => .inr (.inr known)⟩
    obtain ⟨-, x, m, -, hm, -⟩ := checkBind_eq_ok_iff.mp passes
    rw [gone] at hm
    cases hm

/-- A sparse resource is what a binding to a missing allocation may be refused for. -/
theorem checkSparse_single_missed (bound : Std.ExtTreeMap Handle Bool) {b : SparseBind}
    (gone : t.memory.objects.find? h = none) (asks : b.memory = some h) :
    ∃ v, t.checkSparse bound [b] = .error v ∧ (v.Misses h ∨
      ¬∃ x, t.resources.find? b.resource = some x ∧ x.info.isSparse = true) := by
  by_cases sparse : ∃ x, t.resources.find? b.resource = some x ∧ x.info.isSparse = true
  · obtain ⟨x, hx, isSparse⟩ := sparse
    obtain ⟨v, hv, misses⟩ := checkBind_missed b.offset rfl hx gone
    refine ⟨v, ?_, .inl misses⟩
    simp only [checkSparse, asks, ResourceTracker.lookup_eq_ok_iff.mpr hx, Bind.bind,
      Except.bind, isSparse, hv]
    rfl
  · cases hc : t.checkSparse bound [b] with
    | error v => exact ⟨v, rfl, .inr sparse⟩
    | ok _ =>
        simp only [checkSparse] at hc
        obtain ⟨x, hl, hc⟩ := bind_eq_ok_iff.mp hc
        refine absurd ⟨x, ResourceTracker.lookup_eq_ok_iff.mp hl, ?_⟩ sparse
        by_contra dense
        rw [if_pos (by simpa using dense)] at hc
        cases hc

/-- The first binding of a list that names a missing allocation is refused, or the list is
before that. -/
theorem checkSparse_missed {binds : List SparseBind} (gone : t.memory.objects.find? h = none)
    (named : h ∈ binds.filterMap (·.memory)) :
    ∃ v, t.checkSparse ∅ binds = .error v ∧ (v.Misses h ∨
      ∃ front b back, binds = front ++ b :: back ∧ b.memory = some h ∧
        h ∉ front.filterMap (·.memory) ∧ (t.checkSparse ∅ front ≠ .ok () ∨
          ¬∃ x, t.resources.find? b.resource = some x ∧ x.info.isSparse = true)) := by
  obtain ⟨front, b, back, rfl, asks, first⟩ := first_yielding named
  rw [checkSparse_append]
  cases hf : t.checkSparse ∅ front with
  | error v => exact ⟨v, rfl, .inr ⟨front, b, back, rfl, asks, first, .inl (by simp [hf])⟩⟩
  | ok _ =>
      obtain ⟨v, hv, why⟩ := checkSparse_single_missed (remembered ∅ front) gone asks
      refine ⟨v, ?_, why.imp_right fun dense => ⟨front, b, back, rfl, asks, first, .inr dense⟩⟩
      show t.checkSparse (remembered ∅ front) (b :: back) = _
      rw [checkSparse_cons, hv]
      rfl

/-! ## Every call -/

theorem checkDevices_ends (binds : List SparseBind) :
    (binds.forM fun b => b.memory.forM fun memory =>
        (Track.ofExcept (checkMemoryDevice owners device b.resource memory) :
          Track Trackers Unit)).Ends t
      (fun _ u => u = t)
      fun _ _ => ∃ memory ∈ binds.filterMap (·.memory), Elsewhere owners device memory := by
  refine (Track.ends_forM_checks binds (fun _ => True) _ fun b hb => ?_).mono
    (fun _ _ hu => hu.1) fun _ _ hv => hv
  cases hm : b.memory with
  | none => exact ⟨rfl, trivial⟩
  | some memory =>
      show (Track.ofExcept _).Ends t _ _
      refine Track.ends_ofExcept.mpr ⟨fun _ _ => ⟨rfl, trivial⟩, fun v hv => ?_⟩
      exact ⟨memory, List.mem_filterMap.mpr ⟨b, hb, hm⟩, elsewhere_of_error hv⟩

theorem queueBindSparse_missed {queue : Handle} {binds : List SparseBind}
    (named : h ∈ (Call.queueBindSparse queue binds).mentions) (gone : ¬t.Tracks h) :
    (validate owners device (.queueBindSparse queue binds)).Ends t (fun _ _ => False)
      fun v _ => v.Misses h ∨ t.Hides owners device h (.queueBindSparse queue binds) := by
  obtain ⟨noQueue, noMemory, -⟩ := not_tracks_iff.mp gone
  refine ends_nothing.mpr ?_
  rw [Track.ends_bind, Track.ends_discard, Track.ends_query]
  by_cases here : h = queue
  · exact ends_missed (here ▸ lookup_missed noQueue) fun _ misses => .inl (here ▸ misses)
  · have asked : h ∈ binds.filterMap (·.memory) := (List.mem_cons.mp named).resolve_left here
    refine Track.ends_ofExcept.mpr ⟨fun _ _ => ?_, fun v hv => ?_⟩
    · rw [Track.ends_bind]
      refine (checkDevices_ends binds).mono (fun _ u hu => ?_) fun _ _ elsewhere =>
        .inr ⟨here, .inr (.inl elsewhere)⟩
      obtain ⟨v, hv, why⟩ := checkSparse_missed noMemory asked
      unfold bindSparse
      rw [hu, Track.ends_bind, Track.ends_query, hv]
      exact why.imp_right fun hides => ⟨here, .inr (.inr hides)⟩
    · exact .inr ⟨here, .inl (find?_of_lookup_error hv)⟩

theorem submit_missed {queue : Handle} {submits : List SubmitBatch} {fence : Option Handle}
    (named : h ∈ (Call.queueSubmit queue submits fence).mentions) (gone : ¬t.Tracks h) :
    (submit queue submits fence).Ends t (fun _ _ => False)
      fun v _ => v.Misses h ∨ t.Hides owners device h (.queueSubmit queue submits fence) := by
  obtain ⟨noQueue, -, noBuffer⟩ := not_tracks_iff.mp gone
  unfold submit
  rw [Track.ends_bind, Track.ends_query]
  by_cases here : h = queue
  · exact ends_missed (here ▸ lookup_missed noQueue) fun _ misses => .inl (here ▸ misses)
  have asked : h ∈ submits.flatMap (·.commandBuffers) :=
    (List.mem_cons.mp named).resolve_left here
  -- The command buffers come after the fence, and before the semaphores.
  have buffers : ((submits.flatMap (·.commandBuffers)).forM fun cb =>
      Track.query fun t : Trackers => t.commands.checkSubmittable t.queues cb).Ends t
      (fun _ _ => False) fun v _ => v.Misses h ∨
        t.Hides owners device h (.queueSubmit queue submits fence) := by
    refine (Track.ends_forM_missed (fun c => t.commands.checkSubmittable t.queues c = .ok ())
      (fun c => Track.ends_query.mpr (Track.ends_ofExcept.mpr ⟨fun _ passes => ⟨rfl, passes⟩,
        fun v hv => ne_ok_of_error hv ()⟩)) ?_ asked).mono
      (fun _ _ never => never) fun _ _ hv => hv.imp_right fun behind => ⟨here, .inr (.inr behind)⟩
    rw [Track.ends_query]
    exact ends_missed (lookup_bind_missed _ noBuffer) fun _ misses => misses
  refine Track.ends_ofExcept.mpr ⟨fun q _ => ?_, fun v hv =>
    .inr ⟨here, .inl (find?_of_lookup_error hv)⟩⟩
  cases fence with
  | none =>
      dsimp only
      rw [Track.ends_bind]
      exact buffers.mono (fun _ _ never => never.elim) fun _ _ hv => hv
  | some f =>
      dsimp only
      rw [Track.ends_bind, Track.ends_query]
      refine Track.ends_ofExcept.mpr ⟨fun _ _ => ?_, fun v hv =>
        .inr ⟨here, .inr (.inl ⟨f, rfl, ne_ok_of_error hv ()⟩)⟩⟩
      rw [Track.ends_bind]
      exact buffers.mono (fun _ _ never => never.elim) fun _ _ hv => hv

theorem freeCommandBuffers_missed {d pool : Handle} {cbs : List Handle} (named : h ∈ cbs)
    (gone : ¬t.Tracks h) : (freeCommandBuffers pool cbs).Ends t (fun _ _ => False)
      fun v _ => v.Misses h ∨ t.Hides owners device h (.freeCommandBuffers d pool cbs) := by
  obtain ⟨-, -, noBuffer⟩ := not_tracks_iff.mp gone
  by_cases listed : ∃ p, t.commands.pools.find? pool = some p ∧ h ∈ p.buffers
  · -- What the pool lists is missed later, when the command buffers before it are destroyed.
    obtain ⟨p, hp, listed⟩ := listed
    refine (freeCommandBuffers_gone t pool cbs).mono (fun _ _ gone => ?_) fun _ _ _ =>
      .inr (.inr ⟨p, hp, .inl listed⟩)
    have live := (gone h named).1
    rw [noBuffer] at live
    cases live
  unfold freeCommandBuffers
  rw [Track.ends_bind, Track.ends_query]
  refine Track.ends_ofExcept.mpr ⟨fun p hp => ?_, fun v hv =>
    .inr (.inl (find?_of_lookup_error hv))⟩
  have hp := CommandTracker.pool_eq_ok_iff.mp hp
  have absent : h ∉ p.buffers := fun own => listed ⟨p, hp, own⟩
  rw [Track.ends_bind]
  refine (Track.ends_forM_missed (· ∈ p.buffers) (fun c => ?_) ?_ named).mono
    (fun _ _ never => never.elim) fun _ _ hv => hv.imp_right fun behind =>
      .inr ⟨p, hp, .inr behind⟩
  · split
    next other => exact other
    next own => exact ⟨rfl, not_not.mp own⟩
  · rw [if_pos absent]
    exact ⟨_, rfl⟩

/-- A retirement of a queue that is not known. -/
theorem retireUpTo_missed {r : Retirement} (gone : t.queues.queues.find? r.queue = none) :
    (retireUpTo r).Ends t (fun _ _ => False) fun v _ => v.Misses r.queue := by
  unfold retireUpTo
  rw [Track.ends_bind, Track.ends_query]
  exact ends_missed (lookup_missed gone) fun _ misses => misses

/-- A call that names what is not tracked is refused, and what it misses is reported unless an
earlier check hides it. -/
theorem validate_missed (named : h ∈ call.mentions) (gone : ¬t.Tracks h) (owners : Owners)
    (device : Handle) : (validate owners device call).Ends t (fun _ _ => False)
      fun v _ => v.Misses h ∨ t.Hides owners device h call := by
  obtain ⟨noQueue, noMemory, noBuffer⟩ := not_tracks_iff.mp gone
  have onMemory {α : Type} (f : MemoryObject → Track MemoryTracker α) :
      (onMemory (Track.query (·.lookup h) >>= f)).Ends t (fun _ _ => False)
        fun v _ => v.Misses h ∨ t.Hides owners device h call := by
    rw [Trackers.onMemory, Track.ends_within, Track.ends_bind, Track.ends_query]
    exact ends_missed (lookup_missed noMemory) fun _ => .inl
  cases call with
  | freeMemory _ memory =>
      cases List.mem_singleton.mp named
      show (discard (Trackers.onMemory (MemoryTracker.free h)) >>= fun _ => pure [h]).Ends t _ _
      rw [Track.ends_bind, Track.ends_discard]
      exact (onMemory _).mono (fun _ _ never => never.elim) fun _ _ hv => hv
  | mapMemory _ memory =>
      cases List.mem_singleton.mp named
      exact ends_nothing.mpr (onMemory _)
  | unmapMemory _ memory =>
      cases List.mem_singleton.mp named
      exact ends_nothing.mpr (onMemory _)
  | bindBufferMemory _ buffer memory offset =>
      cases List.mem_singleton.mp named
      exact ends_nothing.mpr (bind_missed offset .buffer noMemory)
  | bindImageMemory _ image memory offset =>
      cases List.mem_singleton.mp named
      exact ends_nothing.mpr (bind_missed offset .image noMemory)
  | beginCommandBuffer cb usage =>
      cases List.mem_singleton.mp named
      refine ends_nothing.mpr ?_
      unfold begin
      rw [Track.ends_bind, Track.ends_query]
      exact ends_missed (lookup_bind_missed _ noBuffer) fun _ => .inl
  | endCommandBuffer cb =>
      cases List.mem_singleton.mp named
      refine ends_nothing.mpr ?_
      unfold onCommands CommandTracker.finish
      rw [Track.ends_within, Track.ends_bind, Track.ends_query]
      exact ends_missed (lookup_missed noBuffer) fun _ => .inl
  | resetCommandBuffer cb =>
      cases List.mem_singleton.mp named
      refine ends_nothing.mpr ?_
      unfold reset
      rw [Track.ends_bind, Track.ends_discard, Track.ends_query]
      exact ends_missed (lookup_missed noBuffer) fun _ => .inl
  | recordCommand cb command =>
      cases List.mem_singleton.mp named
      refine ends_nothing.mpr ?_
      unfold record
      rw [Track.ends_bind, Track.ends_query]
      exact ends_missed (lookup_bind_missed _ noBuffer) fun _ => .inl
  | queueWaitIdle queue =>
      cases List.mem_singleton.mp named
      refine ends_nothing.mpr ?_
      rw [Track.ends_query]
      exact ends_missed (lookup_missed noQueue) fun _ => .inl
  | queueBindSparse queue binds => exact queueBindSparse_missed named gone
  | queueSubmit queue submits fence => exact ends_nothing.mpr (submit_missed named gone)
  | freeCommandBuffers d pool cbs =>
      show (Trackers.freeCommandBuffers pool cbs >>= fun _ => pure cbs).Ends t _ _
      rw [Track.ends_bind]
      exact (freeCommandBuffers_missed named gone).mono (fun _ _ never => never.elim)
        fun _ _ hv => hv
  | _ => cases named

end Trackers

end GpuAudit
