import GpuAudit.Validation
import GpuAudit.Proofs.Ends

/-!
# The rules blame the call

Every rule that a call is checked by refuses with a violation that blames the
call.  Only the books themselves raise internal errors: counts that differ from
the links they count, links that one record has and another lacks, and
retirements out of range.  The rules that a binding is checked by are also `Strict`:
none of them raises a mere warning.
-/

namespace GpuAudit

open Track (Raises Mild Strict)

variable {α β : Type}

/-! ## Ways to make a rule -/

/-- A sequence of rules passes when both pass. -/
theorem bind_eq_ok_iff {x : Except Violation α} {f : α → Except Violation β} {b : β} :
    x >>= f = .ok b ↔ ∃ a, x = .ok a ∧ f a = .ok b := by
  cases x with
  | ok a => simp [bind, Except.bind]
  | error v => simp [bind, Except.bind]

/-- It refuses as the first that does. -/
theorem bind_eq_error_iff {x : Except Violation α} {f : α → Except Violation β} {v : Violation} :
    x >>= f = .error v ↔ x = .error v ∨ ∃ a, x = .ok a ∧ f a = .error v := by
  cases x with
  | ok a => simp [bind, Except.bind]
  | error w => simp [bind, Except.bind]

theorem discard_eq_ok_iff {x : Except Violation α} {u : PUnit} :
    discard x = .ok u ↔ ∃ a, x = .ok a := by
  cases x with
  | ok a => exact ⟨fun _ => ⟨a, rfl⟩, fun _ => rfl⟩
  | error v =>
      constructor
      · intro h
        cases h
      · rintro ⟨_, h⟩
        cases h

/-- A list passes a rule when each of its elements does. -/
theorem forM_eq_ok_iff {f : β → Except Violation Unit} {bs : List β} {u : Unit} :
    bs.forM f = .ok u ↔ ∀ b ∈ bs, f b = .ok () := by
  induction bs with
  | nil => exact ⟨fun _ _ h => (nomatch h), fun _ => rfl⟩
  | cons b bs ih =>
      show f b >>= (fun _ => bs.forM f) = .ok u ↔ _
      rw [bind_eq_ok_iff, List.forall_mem_cons, ← ih]
      exact ⟨fun ⟨_, hb, rest⟩ => ⟨hb, rest⟩, fun ⟨hb, rest⟩ => ⟨_, hb, rest⟩⟩

section Raises

variable {P : Violation → Prop}

theorem Track.raises_ok (a : α) : Raises P (.ok a : Except Violation α) := fun _ h => nomatch h

theorem Track.raises_error {v : Violation} (h : P v) :
    Raises P (.error v : Except Violation α) := fun _ hv => by
  cases hv
  exact h

instance [DecidablePred P] (answer : Except Violation α) : Decidable (Raises P answer) :=
  match answer with
  | .ok a => isTrue (Track.raises_ok a)
  | .error v => decidable_of_iff (P v) ⟨Track.raises_error, fun raises => raises v rfl⟩

theorem Track.Raises.bind {x : Except Violation α} {f : α → Except Violation β} (hx : Raises P x)
    (hf : ∀ a, Raises P (f a)) : Raises P (x >>= f) := by
  cases x with
  | ok a => exact hf a
  | error v => exact fun _ hv => hx _ (by cases hv; rfl)

theorem Track.Raises.map {x : Except Violation α} {f : α → β} (hx : Raises P x) :
    Raises P (f <$> x) := by
  cases x with
  | ok a => exact raises_ok _
  | error v => exact raises_error (hx v rfl)

theorem Track.Raises.discard {x : Except Violation α} (hx : Raises P x) :
    Raises P (discard x) := hx.map

theorem Track.Raises.ite {c : Prop} [Decidable c] {x y : Except Violation α} (hx : Raises P x)
    (hy : Raises P y) : Raises P (if c then x else y) := by
  split
  · exact hx
  · exact hy

theorem Track.Raises.forM {f : β → Except Violation PUnit} (hf : ∀ b, Raises P (f b)) :
    ∀ bs : List β, Raises P (bs.forM f)
  | [] => raises_ok _
  | b :: bs => (hf b).bind fun _ => Raises.forM hf bs

end Raises

theorem Track.mild_error {v : Violation} (h : v.isFatal = false) :
    Mild (.error v : Except Violation α) := raises_error h

theorem Track.strict_error {v : Violation} (h : v.toDiagnostic.severity = .error) :
    Strict (.error v : Except Violation α) := raises_error h

/-- What is an error is no internal error. -/
theorem Violation.isFatal_of_error {v : Violation} (h : v.toDiagnostic.severity = .error) :
    v.isFatal = false := by
  cases v with
  | internal objects detail =>
      have fatal : Severity.fatal = .error := h
      cases fatal
  | _ => rfl

/-- The violation says that there is no such object. -/
def Violation.Misses (h : Handle) (v : Violation) : Prop := ∃ detail, v = .invalidObject h detail

theorem Violation.Misses.kind {h : Handle} {v : Violation} (misses : v.Misses h) :
    v.kind = .invalidObject := by
  obtain ⟨detail, rfl⟩ := misses
  rfl

theorem Track.Strict.mild {answer : Except Violation α} (h : Strict answer) : Mild answer :=
  fun v hv => Violation.isFatal_of_error (h v hv)

open Track (raises_ok mild_error strict_error)

/-! ## Registries -/

namespace Registry

variable {kind : ObjectKind} {r : Registry kind α}

theorem strict_checkKind (kind : ObjectKind) (h : Handle) : Strict (checkKind kind h) :=
  (raises_ok _).ite (strict_error rfl)

theorem mild_checkKind (kind : ObjectKind) (h : Handle) : Mild (checkKind kind h) :=
  (strict_checkKind kind h).mild

theorem strict_lookup (h : Handle) : Strict (r.lookup h) := by
  refine (strict_checkKind kind h).bind fun _ => ?_
  split
  · exact raises_ok _
  · exact strict_error rfl

theorem mild_lookup (h : Handle) : Mild (r.lookup h) := (strict_lookup h).mild

theorem misses_checkKind (kind : ObjectKind) (h : Handle) :
    Raises (Violation.Misses h) (checkKind kind h) :=
  (raises_ok _).ite (Track.raises_error ⟨_, rfl⟩)

/-- What is not live is no object. -/
theorem misses_lookup (h : Handle) : Raises (Violation.Misses h) (r.lookup h) := by
  refine (misses_checkKind kind h).bind fun _ => ?_
  split
  · exact raises_ok _
  · exact Track.raises_error ⟨_, rfl⟩

theorem kind_of_lookup (h : Handle) : Raises (·.kind = .invalidObject) (r.lookup h) :=
  fun v hv => (misses_lookup h v hv).kind

theorem strict_register (h : Handle) (record : α) : Strict (r.register h record) :=
  (strict_checkKind kind h).bind fun _ =>
    (strict_error rfl).ite ((strict_error rfl).ite (raises_ok _))

theorem mild_register (h : Handle) (record : α) : Mild (r.register h record) :=
  (strict_register h record).mild

theorem mild_unregister (h : Handle) : Mild (r.unregister h) :=
  (mild_lookup h).bind fun _ => raises_ok _

end Registry

theorem strict_expectKind (h : Handle) (kind : ObjectKind) : Strict (expectKind h kind) :=
  (Registry.strict_checkKind kind h).bind fun _ => (strict_error rfl).ite (raises_ok _)

theorem mild_expectKind (h : Handle) (kind : ObjectKind) : Mild (expectKind h kind) :=
  (strict_expectKind h kind).mild

theorem expectKind_eq_ok_iff {h : Handle} {kind : ObjectKind} {u : Unit} :
    expectKind h kind = .ok u ↔ h.kind = kind ∧ h.isNull = false := by
  unfold expectKind
  rw [bind_eq_ok_iff]
  simp [Registry.checkKind_eq_ok_iff]

theorem expectNew_eq_ok_iff {known : Bool} {h : Handle} {u : Unit} :
    expectNew known h = .ok u ↔ known = false := by
  unfold expectNew
  cases known <;> simp

theorem strict_expectNew (known : Bool) (h : Handle) : Strict (expectNew known h) :=
  (strict_error rfl).ite (raises_ok _)

theorem mild_expectNew (known : Bool) (h : Handle) : Mild (expectNew known h) :=
  (strict_expectNew known h).mild

theorem strict_checkMemoryDevice (owners : Owners) (device resource memory : Handle) :
    Strict (checkMemoryDevice owners device resource memory) := by
  unfold checkMemoryDevice
  split
  · exact (raises_ok _).ite (strict_error rfl)
  · exact raises_ok _

theorem mild_checkMemoryDevice (owners : Owners) (device resource memory : Handle) :
    Mild (checkMemoryDevice owners device resource memory) :=
  (strict_checkMemoryDevice owners device resource memory).mild

/-! ## Memory and resources -/

theorem MemoryTracker.strict_lookup (t : MemoryTracker) (memory : Handle) :
    Strict (t.lookup memory) := Registry.strict_lookup memory

theorem MemoryTracker.mild_lookup (t : MemoryTracker) (memory : Handle) :
    Mild (t.lookup memory) := Registry.mild_lookup memory

theorem MemoryObject.mild_rangeAt (m : MemoryObject) (memory : Handle) (offset size : UInt64) :
    Mild (m.rangeAt memory offset size) :=
  (mild_error rfl).ite ((mild_error rfl).ite ((raises_ok _).ite (mild_error rfl)))

namespace ResourceTracker

variable (t : ResourceTracker) (resource : Handle)

theorem strict_lookup : Strict (t.lookup resource) := by
  unfold lookup
  split
  · exact Registry.strict_lookup resource
  · exact Registry.strict_lookup resource
  · exact strict_error rfl

theorem mild_lookup : Mild (t.lookup resource) := (t.strict_lookup resource).mild

theorem misses_lookup : Raises (Violation.Misses resource) (t.lookup resource) := by
  unfold lookup
  split
  · exact Registry.misses_lookup resource
  · exact Registry.misses_lookup resource
  · exact Track.raises_error ⟨_, rfl⟩

theorem mild_requireUsage (usage : RequiredUsage) : Mild (t.requireUsage resource usage) := by
  refine (t.mild_lookup resource).bind fun r => ?_
  split
  · exact (raises_ok _).ite (mild_error rfl)
  · exact (raises_ok _).ite (mild_error rfl)
  · exact mild_error rfl
  · exact mild_error rfl

theorem strict_checkBindUsage (info : ResourceInfo) (properties : MemoryProperties) :
    Strict (checkBindUsage resource info properties) := by
  refine (strict_error rfl).ite (Raises.ite ?_ (raises_ok _))
  cases info with
  | buffer _ => exact strict_error rfl
  | image _ => exact (raises_ok _).ite (strict_error rfl)

theorem strict_replaced (memory : Handle) (r : Resource) :
    Strict (replaced resource memory r) := by
  unfold replaced
  split
  · exact strict_error rfl
  · exact (raises_ok _).ite (strict_error rfl)
  · exact raises_ok _

theorem strict_checkBind (allocations : MemoryTracker) (memory : Handle) (offset : UInt64)
    (kind : ObjectKind) : Strict (t.checkBind allocations resource memory offset kind) :=
  (Registry.strict_checkKind kind resource).bind fun _ =>
    (t.strict_lookup resource).bind fun r =>
      (allocations.strict_lookup memory).bind fun _ =>
        (strict_replaced resource memory r).bind fun _ =>
          (strict_checkBindUsage resource _ _).bind fun _ => (raises_ok _).ite (strict_error rfl)

theorem mild_checkBind (allocations : MemoryTracker) (memory : Handle) (offset : UInt64)
    (kind : ObjectKind) : Mild (t.checkBind allocations resource memory offset kind) :=
  (t.strict_checkBind resource allocations memory offset kind).mild

end ResourceTracker

theorem Trackers.mild_checkSparse (t : Trackers) :
    ∀ (bound : Std.ExtTreeMap Handle Bool) (bs : List SparseBind), Mild (t.checkSparse bound bs)
  | _, [] => raises_ok _
  | bound, b :: bs => by
      refine (t.resources.mild_lookup b.resource).bind fun r => (mild_error rfl).ite ?_
      split
      · exact ((t.resources.mild_checkBind _ _ _ _ _).discard).bind fun _ =>
          mild_checkSparse t _ bs
      · exact Raises.ite (mild_checkSparse t _ bs) (mild_error rfl)

/-! ## Command buffers -/

namespace CommandTracker

variable (t : CommandTracker) (queues : QueueTracker)

theorem strict_pool (pool : Handle) : Strict (t.pool pool) := Registry.strict_lookup pool

theorem mild_pool (pool : Handle) : Mild (t.pool pool) := (t.strict_pool pool).mild

theorem mild_lookup (cb : Handle) : Mild (t.lookup cb) := Registry.mild_lookup cb

theorem mild_owned (pool : Handle) : Mild (t.owned pool) :=
  (t.mild_pool pool).bind fun _ => raises_ok _

theorem strict_checkDistinct : ∀ seen hs, Strict (checkDistinct seen hs)
  | _, [] => raises_ok _
  | seen, h :: hs => Raises.ite (strict_error rfl) (strict_checkDistinct (h :: seen) hs)

theorem strict_ensureDistinct (hs : List Handle) : Strict (ensureDistinct hs) :=
  strict_checkDistinct [] hs

theorem mild_ensureDistinct (hs : List Handle) : Mild (ensureDistinct hs) :=
  (strict_ensureDistinct hs).mild

theorem kind_of_checkDistinct :
    ∀ seen hs, Raises (·.kind = .invalidObject) (checkDistinct seen hs)
  | _, [] => raises_ok _
  | seen, h :: hs => Raises.ite (Track.raises_error rfl) (kind_of_checkDistinct (h :: seen) hs)

theorem mild_ensureRetired (cbs : List Handle) : Mild (t.ensureRetired queues cbs) :=
  (raises_ok _).ite (mild_error rfl)

theorem mild_checkRecording (cb : Handle) : Mild (t.checkRecording cb) :=
  (t.mild_lookup cb).bind fun _ => (raises_ok _).ite (mild_error rfl)

theorem mild_checkBegin (cb : Handle) : Mild (t.checkBegin queues cb) := by
  refine (t.mild_lookup cb).bind fun b => ?_
  split
  · exact raises_ok _
  · exact mild_error rfl
  · exact (t.mild_pool b.pool).bind fun _ =>
      (t.mild_ensureRetired queues [cb]).ite (mild_error rfl)

theorem mild_checkSubmittable (cb : Handle) : Mild (t.checkSubmittable queues cb) := by
  refine (t.mild_lookup cb).bind fun b => (mild_error rfl).ite ?_
  split
  · exact (mild_error rfl).ite (raises_ok _)
  · exact raises_ok _

end CommandTracker

/-! ## Queues, fences and semaphores -/

namespace QueueTracker

variable (t : QueueTracker)

theorem strict_queue (queue : Handle) : Strict (t.queue queue) := Registry.strict_lookup queue

theorem mild_queue (queue : Handle) : Mild (t.queue queue) := (t.strict_queue queue).mild

theorem mild_fence (fence : Handle) : Mild (t.fence fence) := Registry.mild_lookup fence

theorem mild_semaphore (semaphore : Handle) : Mild (t.semaphore semaphore) :=
  Registry.mild_lookup semaphore

theorem mild_idleRetirement (queue : Handle) : Mild (t.idleRetirement queue) :=
  (t.mild_queue queue).bind fun _ => raises_ok _

theorem mild_fenceRetirement (fence : Handle) : Mild (t.fenceRetirement fence) :=
  (t.mild_fence fence).bind fun _ => raises_ok _

theorem mild_fenceInFlight (fence : Handle) : Mild (t.fenceInFlight fence) := by
  refine (t.mild_fence fence).bind fun f => ?_
  split
  · exact (t.mild_queue _).bind fun _ => raises_ok _
  · exact raises_ok _

theorem mild_checkFenceSubmittable (fence : Handle) : Mild (t.checkFenceSubmittable fence) :=
  (t.mild_fence fence).bind fun _ => (t.mild_fenceInFlight fence).bind fun _ =>
    (mild_error rfl).ite ((mild_error rfl).ite (raises_ok _))

end QueueTracker

/-! ## Creations -/

namespace Trackers

theorem strict_newResource (resource : Handle) (kind : ObjectKind) (t : Trackers) :
    Strict (validate.newResource resource kind t) :=
  (strict_expectKind resource kind).bind fun _ => strict_expectNew _ resource

theorem mild_newResource (resource : Handle) (kind : ObjectKind) (t : Trackers) :
    Mild (validate.newResource resource kind t) :=
  (strict_newResource resource kind t).mild

theorem strict_newCommandBuffers (pool : Handle) (cbs : List Handle) (t : Trackers) :
    Strict (validate.newCommandBuffers pool cbs t) :=
  (t.commands.strict_pool pool).discard.bind fun _ =>
    (CommandTracker.strict_ensureDistinct cbs).bind fun _ =>
      Raises.forM (fun cb => (strict_expectKind cb .commandBuffer).bind fun _ =>
        strict_expectNew _ cb) cbs

theorem mild_newCommandBuffers (pool : Handle) (cbs : List Handle) (t : Trackers) :
    Mild (validate.newCommandBuffers pool cbs t) :=
  (strict_newCommandBuffers pool cbs t).mild

end Trackers

end GpuAudit
