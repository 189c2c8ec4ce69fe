import GpuAudit.Trace.Calls
import GpuAudit.Proofs.FlagText
import GpuAudit.Proofs.Records

/-!
# Written forms of the data of calls

What a call carries is read back from its written form.  Handles, flags and extents have
one form, the one `toJson` writes.  Five structures have members that may be left out
where they are the default: their `Written` says which, and every form of them is read as
the same structure.

The parameters of calls come in a few kinds.  For each there is a `Field`, and a rule that
it is read (`Record.reads_handle` and the like).

Beside each reading stands what the form nests, so that a trace can be seen to stay
within the depth its reader allows.
-/

namespace GpuAudit

open Json
open Json.Value (Fits)

variable {n : Nat}

/-! ## Handles and flags -/

@[simp] theorem ObjectKind.ofJson?_toJson (k : ObjectKind) :
    ObjectKind.ofJson? k.toJson = some k := by
  cases k <;> rfl

@[simp] theorem ObjectKind.fits_toJson (k : ObjectKind) : Fits n k.toJson := .string _

namespace Handle

@[simp] theorem ofJson?_toJson (h : Handle) : ofJson? h.toJson = some h := by
  simp [ofJson?, toJson, Record.decode]

@[simp] theorem fits_toJson (h : Handle) : Fits (n + 1) h.toJson := by
  simp [toJson, toNat64_lt]

theorem ofJson?_handlesToJson (hs : List Handle) :
    listOf ofJson? (handlesToJson hs) = some hs := by
  have hwritten : List.Forall₂ (fun h v => toJson h = v) hs (hs.map toJson) :=
    forall₂_map (fun _ => rfl) hs
  exact listOf_of_forall₂ hwritten fun h _ hv => hv ▸ h.ofJson?_toJson

@[simp] theorem fits_handlesToJson (hs : List Handle) : Fits (n + 2) (handlesToJson hs) := by
  simp [handlesToJson]

end Handle

namespace Flags

variable {set : FlagSet}

@[simp] theorem ofJson?_toJson (f : Flags set) : ofJson? f.toJson = some f := by
  simp [ofJson?, toJson, f.ofText?_toText]

@[simp] theorem fits_toJson (f : Flags set) : Fits n f.toJson := .string _

end Flags

namespace Extent

@[simp] theorem ofJson?_toJson (e : Extent) : ofJson? e.toJson = some e := by
  simp [ofJson?, toJson]

@[simp] theorem fits_toJson (e : Extent) : Fits (n + 1) e.toJson := by
  simp [toJson, toNat32_lt]

end Extent

/-! ## Parameters -/

namespace Json

namespace Field

/-- A handle. -/
def handle (name : String) (h : Handle) : Field := .fixed name h.toJson

/-- Handles. -/
def handles (name : String) (hs : List Handle) : Field := .fixed name (handlesToJson hs)

/-- A number of bytes. -/
def bytes (name : String) (b : UInt64) : Field := .fixed name (.nat b.toNat)

/-- Flags. -/
def flags {set : FlagSet} (name : String) (f : Flags set) : Field := .fixed name f.toJson

/-- A yes or a no. -/
def yesNo (name : String) (b : Bool) : Field := .fixed name (.bool b)

/-- A structure in any of its written forms. -/
def form (name : String) (shows : Value → Prop) : Field := ⟨name, shows, False⟩

/-- Structures, each in any of its written forms. -/
def each {α : Type} (name : String) (writes : α → Value → Prop) (as : List α) : Field :=
  .form name fun v => ∃ vs, List.Forall₂ writes as vs ∧ v = .array vs

section Names

variable {name : String}

@[simp] theorem name_fixed (v : Value) : (fixed name v).name = name := rfl

@[simp] theorem name_defaulted (v : Value) (p : Prop) : (defaulted name v p).name = name := rfl

@[simp] theorem name_handle (h : Handle) : (handle name h).name = name := rfl

@[simp] theorem name_handles (hs : List Handle) : (handles name hs).name = name := rfl

@[simp] theorem name_bytes (b : UInt64) : (bytes name b).name = name := rfl

@[simp] theorem name_flags {set : FlagSet} (f : Flags set) : (flags name f).name = name := rfl

@[simp] theorem name_yesNo (b : Bool) : (yesNo name b).name = name := rfl

@[simp] theorem name_form (shows : Value → Prop) : (form name shows).name = name := rfl

@[simp] theorem name_each {α : Type} (writes : α → Value → Prop) (as : List α) :
    (each name writes as).name = name := rfl

end Names

/-- The written forms of a field fit into a depth. -/
def Within (n : Nat) (f : Field) : Prop := ∀ v, f.shows v → Fits n v

section Depths

variable {name : String}

theorem within_fixed {v : Value} (h : Fits n v) : (fixed name v).Within n := fun _ hv => hv ▸ h

theorem within_defaulted {v : Value} {p : Prop} (h : Fits n v) :
    (defaulted name v p).Within n := fun _ hv => hv ▸ h

@[simp] theorem within_handle (h : Handle) : (handle name h).Within (n + 1) :=
  within_fixed h.fits_toJson

@[simp] theorem within_handles (hs : List Handle) : (handles name hs).Within (n + 2) :=
  within_fixed (Handle.fits_handlesToJson hs)

@[simp] theorem within_bytes (b : UInt64) : (bytes name b).Within n :=
  within_fixed (.nat (toNat64_lt b))

@[simp] theorem within_flags {set : FlagSet} (f : Flags set) : (flags name f).Within n :=
  within_fixed f.fits_toJson

@[simp] theorem within_yesNo (b : Bool) : (yesNo name b).Within n := within_fixed (.bool b)

theorem within_each {α : Type} {writes : α → Value → Prop} {as : List α}
    (h : ∀ a v, writes a v → Fits n v) : (each name writes as).Within (n + 1) :=
  fun _ ⟨_, hvs, he⟩ => he ▸ fits_of_forall₂ hvs h

end Depths

end Field

namespace Record

variable {fs : List Field} {name : String}

theorem reads_handle {h : Handle} (names : (fs.map (·.name)).Nodup) (hf : .handle name h ∈ fs) :
    Reads (handleField name) fs h :=
  reads_fixed names hf h.ofJson?_toJson

theorem reads_handles {hs : List Handle} (names : (fs.map (·.name)).Nodup)
    (hf : .handles name hs ∈ fs) : Reads (handlesField name) fs hs :=
  reads_fixed names hf (Handle.ofJson?_handlesToJson hs)

theorem reads_bytes {b : UInt64} (names : (fs.map (·.name)).Nodup) (hf : .bytes name b ∈ fs) :
    Reads (required name word64) fs b :=
  reads_fixed names hf (word64_nat b)

theorem reads_flags {set : FlagSet} {f : Flags set} (names : (fs.map (·.name)).Nodup)
    (hf : .flags name f ∈ fs) : Reads (required name Flags.ofJson?) fs f :=
  reads_fixed names hf f.ofJson?_toJson

theorem reads_yesNo {b : Bool} (names : (fs.map (·.name)).Nodup) (hf : .yesNo name b ∈ fs) :
    Reads (required name Json.bool) fs b :=
  reads_fixed names hf (bool_bool b)

theorem reads_form {α : Type} {shows : Value → Prop} {d : Decoder α} {a : α}
    (names : (fs.map (·.name)).Nodup) (hf : .form name shows ∈ fs)
    (hd : ∀ v, shows v → d v = some a) : Reads (required name d) fs a :=
  reads_required (f := .form name shows) names hf id hd

theorem reads_each {α : Type} {writes : α → Value → Prop} {d : Decoder α} {as : List α}
    (names : (fs.map (·.name)).Nodup) (hf : .each name writes as ∈ fs)
    (hd : ∀ a v, writes a v → d v = some a) : Reads (required name (listOf d)) fs as :=
  reads_form names hf fun _ ⟨_, hvs, he⟩ => he ▸ listOf_of_forall₂ hvs hd

end Record

end Json

/-! ## Create-time parameters -/

namespace AllocationInfo

/-- All but the size may be left out. -/
def fields (i : AllocationInfo) : List Field :=
  [.fixed "size" (.nat i.size.toNat),
    .defaulted "memory_type_index" (.nat i.memoryTypeIndex.toNat) (i.memoryTypeIndex = 0),
    .defaulted "properties" i.properties.toJson (i.properties = .empty)]

/-- The written forms of the parameters of an allocation. -/
def Written (i : AllocationInfo) : Value → Prop := Field.Object i.fields

theorem names_nodup (i : AllocationInfo) : (i.fields.map (·.name)).Nodup := by
  simp [fields]

theorem ofJson?_of_written {i : AllocationInfo} {v : Value} (h : i.Written v) :
    ofJson? v = some i := by
  have hsize : (Record.required "size" word64).Reads i.fields i.size :=
    Record.reads_fixed i.names_nodup (.head _) (word64_nat _)
  have hindex : (Record.withDefault "memory_type_index" 0 word32).Reads i.fields
      i.memoryTypeIndex :=
    Record.reads_defaulted i.names_nodup (.tail _ (.head _)) id (word32_nat _)
  have hproperties : (Record.withDefault "properties" .empty Flags.ofJson?).Reads i.fields
      i.properties :=
    Record.reads_defaulted i.names_nodup (.tail _ (.tail _ (.head _))) id (Flags.ofJson?_toJson _)
  exact (hsize.bind (hindex.bind (hproperties.bind (.pure i)))).decode h

theorem fits_of_written {i : AllocationInfo} {v : Value} (h : i.Written v) : Fits (n + 1) v :=
  h.fits <| by simp [fields, Field.fixed, Field.defaulted, toNat64_lt, toNat32_lt]

theorem written_toJson (i : AllocationInfo) : i.Written i.toJson :=
  ⟨_, .given rfl (.given rfl (.given rfl .nil)), rfl⟩

end AllocationInfo

namespace BufferCreateInfo

/-- That a buffer is not sparse may be left out. -/
def fields (i : BufferCreateInfo) : List Field :=
  [.fixed "size" (.nat i.size.toNat), .fixed "usage" i.usage.toJson,
    .defaulted "sparse" (.bool i.sparse) (i.sparse = false)]

/-- The written forms of the parameters of a buffer. -/
def Written (i : BufferCreateInfo) : Value → Prop := Field.Object i.fields

theorem names_nodup (i : BufferCreateInfo) : (i.fields.map (·.name)).Nodup := by
  simp [fields]

theorem ofJson?_of_written {i : BufferCreateInfo} {v : Value} (h : i.Written v) :
    ofJson? v = some i := by
  have hsize : (Record.required "size" word64).Reads i.fields i.size :=
    Record.reads_fixed i.names_nodup (.head _) (word64_nat _)
  have husage : (Record.required "usage" Flags.ofJson?).Reads i.fields i.usage :=
    Record.reads_fixed i.names_nodup (.tail _ (.head _)) (Flags.ofJson?_toJson _)
  have hsparse : (Record.withDefault "sparse" false Json.bool).Reads i.fields i.sparse :=
    Record.reads_defaulted i.names_nodup (.tail _ (.tail _ (.head _))) id (bool_bool _)
  exact (hsize.bind (husage.bind (hsparse.bind (.pure i)))).decode h

theorem fits_of_written {i : BufferCreateInfo} {v : Value} (h : i.Written v) : Fits (n + 1) v :=
  h.fits <| by simp [fields, Field.fixed, Field.defaulted, toNat64_lt]

theorem written_toJson (i : BufferCreateInfo) : i.Written i.toJson :=
  ⟨_, .given rfl (.given rfl (.given rfl .nil)), rfl⟩

end BufferCreateInfo

namespace ImageCreateInfo

/-- That an image is not sparse may be left out. -/
def fields (i : ImageCreateInfo) : List Field :=
  [.fixed "extent" i.extent.toJson, .fixed "memory_size" (.nat i.memorySize.toNat),
    .fixed "usage" i.usage.toJson, .defaulted "sparse" (.bool i.sparse) (i.sparse = false)]

/-- The written forms of the parameters of an image. -/
def Written (i : ImageCreateInfo) : Value → Prop := Field.Object i.fields

theorem names_nodup (i : ImageCreateInfo) : (i.fields.map (·.name)).Nodup := by
  simp [fields]

theorem ofJson?_of_written {i : ImageCreateInfo} {v : Value} (h : i.Written v) :
    ofJson? v = some i := by
  have hextent : (Record.required "extent" Extent.ofJson?).Reads i.fields i.extent :=
    Record.reads_fixed i.names_nodup (.head _) (Extent.ofJson?_toJson _)
  have hsize : (Record.required "memory_size" word64).Reads i.fields i.memorySize :=
    Record.reads_fixed i.names_nodup (.tail _ (.head _)) (word64_nat _)
  have husage : (Record.required "usage" Flags.ofJson?).Reads i.fields i.usage :=
    Record.reads_fixed i.names_nodup (.tail _ (.tail _ (.head _))) (Flags.ofJson?_toJson _)
  have hsparse : (Record.withDefault "sparse" false Json.bool).Reads i.fields i.sparse :=
    Record.reads_defaulted i.names_nodup (.tail _ (.tail _ (.tail _ (.head _)))) id (bool_bool _)
  exact (hextent.bind (hsize.bind (husage.bind (hsparse.bind (.pure i))))).decode h

theorem fits_of_written {i : ImageCreateInfo} {v : Value} (h : i.Written v) : Fits (n + 2) v :=
  h.fits <| by simp [fields, Field.fixed, Field.defaulted, toNat64_lt]

theorem written_toJson (i : ImageCreateInfo) : i.Written i.toJson :=
  ⟨_, .given rfl (.given rfl (.given rfl (.given rfl .nil))), rfl⟩

end ImageCreateInfo

/-! ## Submissions and sparse bindings -/

namespace SubmitBatch

/-- Each list may be left out if it is empty. -/
def fields (s : SubmitBatch) : List Field :=
  [.defaulted "wait_semaphores" (handlesToJson s.waitSemaphores) (s.waitSemaphores = []),
    .defaulted "command_buffers" (handlesToJson s.commandBuffers) (s.commandBuffers = []),
    .defaulted "signal_semaphores" (handlesToJson s.signalSemaphores) (s.signalSemaphores = [])]

/-- The written forms of a unit of work. -/
def Written (s : SubmitBatch) : Value → Prop := Field.Object s.fields

theorem names_nodup (s : SubmitBatch) : (s.fields.map (·.name)).Nodup := by
  simp [fields]

theorem ofJson?_of_written {s : SubmitBatch} {v : Value} (h : s.Written v) :
    ofJson? v = some s := by
  have hwaits : (Record.withDefault "wait_semaphores" [] (listOf Handle.ofJson?)).Reads s.fields
      s.waitSemaphores :=
    Record.reads_defaulted s.names_nodup (.head _) id (Handle.ofJson?_handlesToJson _)
  have hcbs : (Record.withDefault "command_buffers" [] (listOf Handle.ofJson?)).Reads s.fields
      s.commandBuffers :=
    Record.reads_defaulted s.names_nodup (.tail _ (.head _)) id (Handle.ofJson?_handlesToJson _)
  have hsignals : (Record.withDefault "signal_semaphores" [] (listOf Handle.ofJson?)).Reads
      s.fields s.signalSemaphores :=
    Record.reads_defaulted s.names_nodup (.tail _ (.tail _ (.head _))) id
      (Handle.ofJson?_handlesToJson _)
  exact (hwaits.bind (hcbs.bind (hsignals.bind (.pure s)))).decode h

theorem fits_of_written {s : SubmitBatch} {v : Value} (h : s.Written v) : Fits (n + 3) v :=
  h.fits <| by simp [fields, Field.defaulted]

theorem written_toJson (s : SubmitBatch) : s.Written s.toJson :=
  ⟨_, .given rfl (.given rfl (.given rfl .nil)), rfl⟩

end SubmitBatch

/-- A handle that may be absent, with null for an absent one. -/
theorem Handle.nullable_ofOption (o : Option Handle) :
    nullable ofJson? (Value.ofOption toJson o) = some o := by
  cases o with
  | none => rfl
  | some h =>
      have hread : nullable ofJson? h.toJson = (ofJson? h.toJson).map some := rfl
      rw [Value.ofOption, hread, ofJson?_toJson]
      rfl

theorem Handle.fits_ofOption (o : Option Handle) : Fits (n + 1) (Value.ofOption toJson o) := by
  cases o <;> simp [Value.ofOption]

namespace SparseBind

/-- Without a memory the member may be left out, and so may a zero offset. -/
def fields (b : SparseBind) : List Field :=
  [.fixed "resource" b.resource.toJson,
    .defaulted "memory" (Value.ofOption Handle.toJson b.memory) (b.memory = none),
    .defaulted "offset" (.nat b.offset.toNat) (b.offset = 0)]

/-- The written forms of a sparse binding. -/
def Written (b : SparseBind) : Value → Prop := Field.Object b.fields

theorem names_nodup (b : SparseBind) : (b.fields.map (·.name)).Nodup := by
  simp [fields]

theorem ofJson?_of_written {b : SparseBind} {v : Value} (h : b.Written v) :
    ofJson? v = some b := by
  have hresource : (handleField "resource").Reads b.fields b.resource :=
    Record.reads_fixed b.names_nodup (.head _) (Handle.ofJson?_toJson _)
  have hmemory : (Record.optional "memory" Handle.ofJson?).Reads b.fields b.memory :=
    Record.reads_optional (f := .defaulted "memory" _ _) b.names_nodup (.tail _ (.head _)) id
      fun _ hv => hv ▸ Handle.nullable_ofOption _
  have hoffset : (Record.withDefault "offset" 0 word64).Reads b.fields b.offset :=
    Record.reads_defaulted b.names_nodup (.tail _ (.tail _ (.head _))) id (word64_nat _)
  exact (hresource.bind (hmemory.bind (hoffset.bind (.pure b)))).decode h

theorem fits_of_written {b : SparseBind} {v : Value} (h : b.Written v) : Fits (n + 2) v :=
  h.fits <| by simp [fields, Field.fixed, Field.defaulted, toNat64_lt, Handle.fits_ofOption]

theorem written_toJson (b : SparseBind) : b.Written b.toJson :=
  ⟨_, .given rfl (.given rfl (.given rfl .nil)), rfl⟩

end SparseBind

end GpuAudit
