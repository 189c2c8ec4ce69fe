import GpuAudit.Trace
import GpuAudit.Proofs.WrittenForms

/-!
# Traces from their text

A trace is read back from its text: every call with its parameters and answer, every
completion report, in order (`Trace.ofText?_written`).

A command or a call is its name with its parameters, which `Command.fields` and
`Call.fields` list: they are written as the fields of a structure are, in any of their forms
and left out where they may be.  An entry may leave out the answer if it is success
(`TraceEntry.fields`).  The same trace therefore has many texts, and more still by the
space between tokens; all of them are read as that trace.

An entry is tried as a call before it is tried as a report.  One that is written here
gives just one of the members `call` and `complete`, so a report is no call
(`TraceEntry.callRecord_of_complete`).
-/

namespace GpuAudit

open Json
open Json.Value (Fits)

variable {n : Nat}

/-! ## Commands -/

namespace Command

/-- The parameters of a command. -/
def fields : Command → List Field
  | copyBuffer src dst | copyImage src dst | blitImage src dst | resolveImage src dst
  | copyBufferToImage src dst | copyImageToBuffer src dst =>
      [.handle "src" src, .handle "dst" dst]
  | fillBuffer buffer | updateBuffer buffer | bindIndexBuffer buffer | drawIndirect buffer
  | drawIndexedIndirect buffer | dispatchIndirect buffer => [.handle "buffer" buffer]
  | clearColorImage image | clearDepthStencilImage image => [.handle "image" image]
  | bindVertexBuffers buffers => [.handles "buffers" buffers]

theorem names_nodup (c : Command) : (c.fields.map (·.name)).Nodup := by
  cases c <;> simp [fields]

/-- The parameters are read by the name of the command. -/
theorem ofTagged?_of_fields {c : Command} {body : Value} (h : Field.Object c.fields body) :
    ofTagged? c.toTagged.1 body = some c := by
  have names := c.names_nodup
  cases c with
  | copyBuffer src dst | copyImage src dst | blitImage src dst | resolveImage src dst
  | copyBufferToImage src dst | copyImageToBuffer src dst =>
      have hsrc := Record.reads_handle names (.head _)
      have hdst := Record.reads_handle names (.tail _ (.head _))
      exact (hsrc.two _ hdst).decode h
  | fillBuffer buffer | updateBuffer buffer | bindIndexBuffer buffer | drawIndirect buffer
  | drawIndexedIndirect buffer | dispatchIndirect buffer =>
      exact (Record.Reads.map _ (Record.reads_handle names (.head _))).decode h
  | clearColorImage image | clearDepthStencilImage image =>
      exact (Record.Reads.map _ (Record.reads_handle names (.head _))).decode h
  | bindVertexBuffers buffers => exact (Record.Reads.map _ (Record.reads_handles names (.head _))).decode h

/-- A command is written in full. -/
theorem object_toTagged (c : Command) : Field.Object c.fields c.toTagged.2 := by
  cases c with
  | copyBuffer | copyImage | blitImage | resolveImage | copyBufferToImage | copyImageToBuffer =>
      exact ⟨_, .given rfl (.given rfl .nil), rfl⟩
  | _ => exact ⟨_, .given rfl .nil, rfl⟩

@[simp] theorem ofJson?_toJson (c : Command) : ofJson? c.toJson = some c :=
  ofTagged?_of_fields c.object_toTagged

@[simp] theorem fits_toJson (c : Command) : Fits (n + 4) c.toJson := by
  have hwithin : ∀ f ∈ c.fields, f.Within (n + 2) := by
    cases c <;> simp [fields]
  have hbody : Fits (n + 3) c.toTagged.2 := c.object_toTagged.fits hwithin
  exact .object (by simpa using hbody)

end Command

/-! ## Calls -/

namespace Call

/-- The parameters of a call.  The usage of presentable images may be left out if there is
none, and so may the fence of a submission. -/
def fields : Call → List Field
  | createDevice device | destroyDevice device | deviceWaitIdle device => [.handle "device" device]
  | getDeviceQueue device queue => [.handle "device" device, .handle "queue" queue]
  | allocateMemory device memory info =>
      [.handle "device" device, .handle "memory" memory, .form "info" info.Written]
  | freeMemory device memory | unmapMemory device memory =>
      [.handle "device" device, .handle "memory" memory]
  | mapMemory device memory offset size =>
      [.handle "device" device, .handle "memory" memory, .bytes "offset" offset,
        .bytes "size" size]
  | createBuffer device buffer info =>
      [.handle "device" device, .handle "buffer" buffer, .form "info" info.Written]
  | createImage device image info =>
      [.handle "device" device, .handle "image" image, .form "info" info.Written]
  | destroyBuffer device buffer => [.handle "device" device, .handle "buffer" buffer]
  | destroyImage device image => [.handle "device" device, .handle "image" image]
  | bindBufferMemory device buffer memory offset =>
      [.handle "device" device, .handle "buffer" buffer, .handle "memory" memory,
        .bytes "offset" offset]
  | bindImageMemory device image memory offset =>
      [.handle "device" device, .handle "image" image, .handle "memory" memory,
        .bytes "offset" offset]
  | unbindMemory device resource => [.handle "device" device, .handle "resource" resource]
  | queueBindSparse queue binds =>
      [.handle "queue" queue, .each "binds" SparseBind.Written binds]
  | createSwapchain device swapchain images usage =>
      [.handle "device" device, .handle "swapchain" swapchain, .handles "images" images,
        .defaulted "image_usage" usage.toJson (usage = .empty)]
  | destroySwapchain device swapchain =>
      [.handle "device" device, .handle "swapchain" swapchain]
  | createCommandPool device pool flags =>
      [.handle "device" device, .handle "pool" pool, .flags "flags" flags]
  | destroyCommandPool device pool | resetCommandPool device pool =>
      [.handle "device" device, .handle "pool" pool]
  | allocateCommandBuffers device pool cbs | freeCommandBuffers device pool cbs =>
      [.handle "device" device, .handle "pool" pool, .handles "command_buffers" cbs]
  | beginCommandBuffer cb flags => [.handle "command_buffer" cb, .flags "flags" flags]
  | endCommandBuffer cb | resetCommandBuffer cb => [.handle "command_buffer" cb]
  | recordCommand cb command =>
      [.handle "command_buffer" cb, .fixed "command" command.toJson]
  | createFence device fence signaled =>
      [.handle "device" device, .handle "fence" fence, .yesNo "signaled" signaled]
  | destroyFence device fence | getFenceStatus device fence =>
      [.handle "device" device, .handle "fence" fence]
  | resetFences device fences => [.handle "device" device, .handles "fences" fences]
  | waitForFences device fences waitAll =>
      [.handle "device" device, .handles "fences" fences, .yesNo "wait_all" waitAll]
  | createSemaphore device semaphore | destroySemaphore device semaphore =>
      [.handle "device" device, .handle "semaphore" semaphore]
  | queueSubmit queue submits fence =>
      [.handle "queue" queue, .each "submits" SubmitBatch.Written submits,
        .defaulted "fence" (Value.ofOption Handle.toJson fence) (fence = none)]
  | queueWaitIdle queue => [.handle "queue" queue]

/-- The written forms of a call: its name, and its parameters as a structure. -/
def Written (c : Call) (v : Value) : Prop :=
  ∃ body, Field.Object c.fields body ∧ v = .object [(c.toTagged.1, body)]

theorem names_nodup (c : Call) : (c.fields.map (·.name)).Nodup := by
  cases c <;> simp [fields]

/-- The parameters are read by the name of the call. -/
theorem ofTagged?_of_fields {c : Call} {body : Value} (h : Field.Object c.fields body) :
    ofTagged? c.toTagged.1 body = some c := by
  have names := c.names_nodup
  cases c with
  | createDevice device | destroyDevice device | deviceWaitIdle device =>
      have hdevice := Record.reads_handle names (.head _)
      exact (hdevice.one _).decode h
  | queueWaitIdle queue =>
      have hqueue := Record.reads_handle names (.head _)
      exact (hqueue.one _).decode h
  | endCommandBuffer cb | resetCommandBuffer cb =>
      have hcb := Record.reads_handle names (.head _)
      exact (hcb.one _).decode h
  | getDeviceQueue device object | freeMemory device object | unmapMemory device object
  | destroyBuffer device object | destroyImage device object | unbindMemory device object
  | destroySwapchain device object | destroyCommandPool device object
  | resetCommandPool device object | destroyFence device object | getFenceStatus device object
  | createSemaphore device object | destroySemaphore device object =>
      have hdevice := Record.reads_handle names (.head _)
      have hobject := Record.reads_handle names (.tail _ (.head _))
      exact (hdevice.two _ hobject).decode h
  | allocateMemory device memory info =>
      have hdevice := Record.reads_handle names (.head _)
      have hmemory := Record.reads_handle names (.tail _ (.head _))
      have hinfo := Record.reads_form names (.tail _ (.tail _ (.head _)))
        fun _ => AllocationInfo.ofJson?_of_written
      exact (hdevice.three _ hmemory hinfo).decode h
  | createBuffer device buffer info =>
      have hdevice := Record.reads_handle names (.head _)
      have hbuffer := Record.reads_handle names (.tail _ (.head _))
      have hinfo := Record.reads_form names (.tail _ (.tail _ (.head _)))
        fun _ => BufferCreateInfo.ofJson?_of_written
      exact (hdevice.three _ hbuffer hinfo).decode h
  | createImage device image info =>
      have hdevice := Record.reads_handle names (.head _)
      have himage := Record.reads_handle names (.tail _ (.head _))
      have hinfo := Record.reads_form names (.tail _ (.tail _ (.head _)))
        fun _ => ImageCreateInfo.ofJson?_of_written
      exact (hdevice.three _ himage hinfo).decode h
  | mapMemory device memory offset size =>
      have hdevice := Record.reads_handle names (.head _)
      have hmemory := Record.reads_handle names (.tail _ (.head _))
      have hoffset := Record.reads_bytes names (.tail _ (.tail _ (.head _)))
      have hsize := Record.reads_bytes names (.tail _ (.tail _ (.tail _ (.head _))))
      exact (hdevice.four _ hmemory hoffset hsize).decode h
  | bindBufferMemory device resource memory offset | bindImageMemory device resource memory offset =>
      have hdevice := Record.reads_handle names (.head _)
      have hresource := Record.reads_handle names (.tail _ (.head _))
      have hmemory := Record.reads_handle names (.tail _ (.tail _ (.head _)))
      have hoffset := Record.reads_bytes names (.tail _ (.tail _ (.tail _ (.head _))))
      exact (hdevice.four _ hresource hmemory hoffset).decode h
  | queueBindSparse queue binds =>
      have hqueue := Record.reads_handle names (.head _)
      have hbinds := Record.reads_each names (.tail _ (.head _))
        fun _ _ => SparseBind.ofJson?_of_written
      exact (hqueue.two _ hbinds).decode h
  | createSwapchain device swapchain images usage =>
      have hdevice := Record.reads_handle names (.head _)
      have hswapchain := Record.reads_handle names (.tail _ (.head _))
      have himages := Record.reads_handles names (.tail _ (.tail _ (.head _)))
      have husage := Record.reads_defaulted names (.tail _ (.tail _ (.tail _ (.head _)))) id
        usage.ofJson?_toJson
      exact (hdevice.four _ hswapchain himages husage).decode h
  | createCommandPool device pool flags =>
      have hdevice := Record.reads_handle names (.head _)
      have hpool := Record.reads_handle names (.tail _ (.head _))
      have hflags := Record.reads_flags names (.tail _ (.tail _ (.head _)))
      exact (hdevice.three _ hpool hflags).decode h
  | allocateCommandBuffers device pool cbs | freeCommandBuffers device pool cbs =>
      have hdevice := Record.reads_handle names (.head _)
      have hpool := Record.reads_handle names (.tail _ (.head _))
      have hcbs := Record.reads_handles names (.tail _ (.tail _ (.head _)))
      exact (hdevice.three _ hpool hcbs).decode h
  | beginCommandBuffer cb flags =>
      have hcb := Record.reads_handle names (.head _)
      have hflags := Record.reads_flags names (.tail _ (.head _))
      exact (hcb.two _ hflags).decode h
  | recordCommand cb command =>
      have hcb := Record.reads_handle names (.head _)
      have hcommand := Record.reads_fixed names (.tail _ (.head _)) command.ofJson?_toJson
      exact (hcb.two _ hcommand).decode h
  | createFence device fence signaled =>
      have hdevice := Record.reads_handle names (.head _)
      have hfence := Record.reads_handle names (.tail _ (.head _))
      have hsignaled := Record.reads_yesNo names (.tail _ (.tail _ (.head _)))
      exact (hdevice.three _ hfence hsignaled).decode h
  | resetFences device fences =>
      have hdevice := Record.reads_handle names (.head _)
      have hfences := Record.reads_handles names (.tail _ (.head _))
      exact (hdevice.two _ hfences).decode h
  | waitForFences device fences waitAll =>
      have hdevice := Record.reads_handle names (.head _)
      have hfences := Record.reads_handles names (.tail _ (.head _))
      have hwaitAll := Record.reads_yesNo names (.tail _ (.tail _ (.head _)))
      exact (hdevice.three _ hfences hwaitAll).decode h
  | queueSubmit queue submits fence =>
      have hqueue := Record.reads_handle names (.head _)
      have hsubmits := Record.reads_each names (.tail _ (.head _))
        fun _ _ => SubmitBatch.ofJson?_of_written
      have hfence := Record.reads_optional names (.tail _ (.tail _ (.head _))) id
        fun _ hv => hv ▸ Handle.nullable_ofOption fence
      exact (hqueue.three _ hsubmits hfence).decode h

/-- Every written form of a call is read as the call. -/
theorem ofJson?_of_written {c : Call} {v : Value} (h : c.Written v) : ofJson? v = some c := by
  obtain ⟨body, hbody, rfl⟩ := h
  exact ofTagged?_of_fields hbody

theorem within_of_mem (c : Call) {f : Field} (hf : f ∈ c.fields) : f.Within (n + 4) := by
  revert f
  cases c with
  | allocateMemory _ _ info =>
      have hinfo : (Field.form "info" info.Written).Within (n + 4) := fun _ =>
        AllocationInfo.fits_of_written
      simp [fields, hinfo]
  | createBuffer _ _ info =>
      have hinfo : (Field.form "info" info.Written).Within (n + 4) := fun _ =>
        BufferCreateInfo.fits_of_written
      simp [fields, hinfo]
  | createImage _ _ info =>
      have hinfo : (Field.form "info" info.Written).Within (n + 4) := fun _ =>
        ImageCreateInfo.fits_of_written
      simp [fields, hinfo]
  | queueBindSparse _ binds =>
      have hbinds : (Field.each "binds" SparseBind.Written binds).Within (n + 4) :=
        Field.within_each fun _ _ => SparseBind.fits_of_written
      simp [fields, hbinds]
  | queueSubmit _ submits fence =>
      have hsubmits : (Field.each "submits" SubmitBatch.Written submits).Within (n + 4) :=
        Field.within_each fun _ _ => SubmitBatch.fits_of_written
      simp [fields, hsubmits, Field.within_defaulted (Handle.fits_ofOption fence)]
  | createSwapchain _ _ _ usage => simp [fields, Field.within_defaulted usage.fits_toJson]
  | recordCommand _ command => simp [fields, Field.within_fixed command.fits_toJson]
  | _ => simp [fields]

theorem fits_of_written {c : Call} {v : Value} (h : c.Written v) : Fits (n + 6) v := by
  obtain ⟨body, hbody, rfl⟩ := h
  have hfits : Fits (n + 5) body := hbody.fits fun f hf => c.within_of_mem hf
  simpa using hfits

/-- The parameters are written with all their members. -/
theorem object_toTagged (c : Call) : Field.Object c.fields c.toTagged.2 := by
  cases c with
  | createDevice | destroyDevice | deviceWaitIdle | queueWaitIdle | endCommandBuffer
  | resetCommandBuffer => exact ⟨_, .given rfl .nil, rfl⟩
  | allocateMemory _ _ info =>
      exact ⟨_, .given rfl (.given rfl (.given info.written_toJson .nil)), rfl⟩
  | createBuffer _ _ info =>
      exact ⟨_, .given rfl (.given rfl (.given info.written_toJson .nil)), rfl⟩
  | createImage _ _ info =>
      exact ⟨_, .given rfl (.given rfl (.given info.written_toJson .nil)), rfl⟩
  | queueBindSparse _ binds =>
      have hbinds := forall₂_map SparseBind.written_toJson binds
      exact ⟨_, .given rfl (.given ⟨_, hbinds, rfl⟩ .nil), rfl⟩
  | queueSubmit _ submits =>
      have hsubmits := forall₂_map SubmitBatch.written_toJson submits
      exact ⟨_, .given rfl (.given ⟨_, hsubmits, rfl⟩ (.given rfl .nil)), rfl⟩
  | mapMemory | bindBufferMemory | bindImageMemory | createSwapchain =>
      exact ⟨_, .given rfl (.given rfl (.given rfl (.given rfl .nil))), rfl⟩
  | createCommandPool | allocateCommandBuffers | freeCommandBuffers | createFence
  | waitForFences => exact ⟨_, .given rfl (.given rfl (.given rfl .nil)), rfl⟩
  | _ => exact ⟨_, .given rfl (.given rfl .nil), rfl⟩

theorem written_toJson (c : Call) : c.Written c.toJson := ⟨_, c.object_toTagged, rfl⟩

end Call

/-! ## Results and completions -/

@[simp] theorem CallResult.ofJson?_toJson (r : CallResult) :
    CallResult.ofJson? r.toJson = some r := by
  cases r <;> rfl

@[simp] theorem CallResult.fits_toJson (r : CallResult) : Fits n r.toJson := .string _

@[simp] theorem Completion.ofJson?_toJson (c : Completion) :
    Completion.ofJson? c.toJson = some c := by
  simp [ofJson?, toJson, Record.decode, handleField]

@[simp] theorem Completion.fits_toJson (c : Completion) : Fits (n + 2) c.toJson := by
  simp [toJson, toNat64_lt]

/-! ## Entries -/

namespace TraceEntry

/-- The answer to a call may be left out if it is success. -/
def fields : TraceEntry → List Field
  | call c result =>
      [⟨"call", c.Written, False⟩, .defaulted "result" result.toJson (result = .success)]
  | complete c => [.fixed "complete" c.toJson]

/-- The written forms of an entry. -/
def Written (e : TraceEntry) : Value → Prop := Field.Object e.fields

theorem names_nodup (e : TraceEntry) : (e.fields.map (·.name)).Nodup := by
  cases e <;> simp [fields, Field.fixed, Field.defaulted]

/-- A call entry is read as one. -/
theorem callRecord_of_written {c : Call} {result : CallResult} {v : Value}
    (h : (call c result).Written v) : callRecord.decode v = some (call c result) := by
  have hnames := (call c result).names_nodup
  have hcall : (Record.required "call" Call.ofJson?).Reads (call c result).fields c :=
    Record.reads_required (f := ⟨"call", c.Written, False⟩) hnames (.head _) id
      fun _ => Call.ofJson?_of_written
  have hresult : (Record.withDefault "result" .success CallResult.ofJson?).Reads
      (call c result).fields result :=
    Record.reads_defaulted hnames (.tail _ (.head _)) id result.ofJson?_toJson
  exact (hcall.bind (hresult.bind (.pure (call c result)))).decode h

theorem completeRecord_of_written {c : Completion} {v : Value} (h : (complete c).Written v) :
    completeRecord.decode v = some (complete c) := by
  have hcomplete : (Record.required "complete" Completion.ofJson?).Reads (complete c).fields c :=
    Record.reads_fixed (complete c).names_nodup (.head _) c.ofJson?_toJson
  exact (hcomplete.bind (.pure (complete c))).decode h

/-- A completion entry is not read as a call. -/
theorem callRecord_of_complete {c : Completion} {v : Value} (h : (complete c).Written v) :
    callRecord.decode v = none := by
  obtain ⟨ms, hms, rfl⟩ := h
  have hcall : ms.filter (fun m => m.1 = "call") = [] :=
    hms.filter_eq_nil (by simp [fields, Field.fixed])
  simp [callRecord, Record.decode, hcall]

/-- Every written form of an entry is read as the entry. -/
theorem ofJson?_of_written {e : TraceEntry} {v : Value} (h : e.Written v) :
    ofJson? v = some e := by
  obtain ⟨ms, rfl⟩ : ∃ ms, v = .object ms := h.imp fun _ => And.right
  cases e with
  | call c result => simp [ofJson?, callRecord_of_written h]
  | complete c => simp [ofJson?, callRecord_of_complete h, completeRecord_of_written h]

theorem fits_of_written {e : TraceEntry} {v : Value} (h : e.Written v) : Fits (n + 7) v := by
  refine h.fits ?_
  cases e with
  | call c result =>
      simpa [fields, Field.defaulted] using fun v hv => Call.fits_of_written hv
  | complete c => simp [fields, Field.fixed]

theorem written_toJson (e : TraceEntry) : e.Written e.toJson := by
  cases e with
  | call c result => exact ⟨_, .given c.written_toJson (.given rfl .nil), rfl⟩
  | complete c => exact ⟨_, .given rfl .nil, rfl⟩

end TraceEntry

/-! ## Traces -/

namespace Trace

/-- The written forms of a trace. -/
def Written (t : Trace) (v : Value) : Prop :=
  ∃ vs, List.Forall₂ TraceEntry.Written t vs ∧ v = .array vs

theorem written_toJson (t : Trace) : t.Written t.toJson :=
  ⟨_, forall₂_map TraceEntry.written_toJson t, rfl⟩

theorem ofJson?_of_written {t : Trace} {v : Value} (h : t.Written v) : ofJson? v = some t := by
  obtain ⟨vs, hvs, rfl⟩ := h
  exact listOf_of_forall₂ hvs fun _ _ => TraceEntry.ofJson?_of_written

theorem fits_of_written {t : Trace} {v : Value} (h : t.Written v) : Fits 8 v := by
  obtain ⟨vs, hvs, rfl⟩ := h
  exact fits_of_forall₂ hvs fun _ _ => TraceEntry.fits_of_written

theorem ofText?_of_written {t : Trace} {v : Value} {s : String} (hv : t.Written v)
    (hs : Laid v.tokens s.toList) : ofText? s = some t := by
  have hvalue : Value.ofTextWithin? maxNesting s = some v :=
    (fits_of_written hv).ofTextWithin?_eq (by decide) hs
  simp [ofText?, hvalue, ofJson?_of_written hv]

theorem ofText?_toText (t : Trace) : ofText? t.toText = some t :=
  ofText?_of_written t.written_toJson (fits_of_written t.written_toJson).laid

/-- A trace is read back from its text, and from every text of it with members left out
where they are the default, however its tokens are spaced. -/
theorem ofText?_written (t : Trace) : ofText? t.toText = some t ∧
    ∀ v s, t.Written v → Laid v.tokens s.toList → ofText? s = some t :=
  ⟨t.ofText?_toText, fun _ _ => ofText?_of_written⟩

/-- A submission of one empty unit of work, with nothing written that need not be and a
space in front. -/
theorem ofText?_shortest :
    ofText? (" [\x7b\"call\":\x7b\"QueueSubmit\":" ++
        "\x7b\"queue\":\x7b\"raw\":1,\"kind\":\"queue\"\x7d,\"submits\":[\x7b\x7d]\x7d\x7d\x7d]")
      = some [.call (.queueSubmit ⟨1, .queue⟩ [{}] none) .success] := by
  let body : Value := .object
    [("queue", Handle.toJson ⟨1, .queue⟩), ("submits", .array [.object []])]
  let v : Value := .array [.object [("call", .object [("QueueSubmit", body)])]]
  have hbatch : SubmitBatch.Written {} (.object []) :=
    ⟨_, .left rfl (.left rfl (.left rfl .nil)), rfl⟩
  have hcall : (Call.queueSubmit ⟨1, .queue⟩ [{}] none).Written (.object [("QueueSubmit", body)]) :=
    ⟨_, ⟨_, .given rfl (.given ⟨_, .cons hbatch .nil, rfl⟩ (.left rfl .nil)), rfl⟩, rfl⟩
  have hv : Trace.Written [.call (.queueSubmit ⟨1, .queue⟩ [{}] none) .success] v :=
    ⟨_, .cons ⟨_, .given hcall (.left rfl .nil), rfl⟩ .nil, rfl⟩
  have hlaid : Laid v.tokens (' ' :: v.compact.toList) :=
    .space (by decide) (fits_of_written hv).laid
  refine (ofText?_written _).2 v _ hv (Eq.mp (congrArg (Laid v.tokens) ?_) hlaid)
  simp only [v, body]
  decide +kernel

end Trace

end GpuAudit
