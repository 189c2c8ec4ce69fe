import GpuAudit.Resource
import GpuAudit.Proofs.Entering

/-!
# Resources and the images of swapchains

`find?` is the view of the buffers and images together.  An `Edit` is what one
operation on the resources may do: make a resource, remove one that is not bound,
enter a swapchain or strike one out.

A swapchain is entered with the images it lists, one after another, and the entry
stops at a handle that cannot be registered.  So a swapchain may own a first part
of its list only.  `Chained` says that this part is as it should be and that the
list goes on, if at all, with a handle that stops its removal too.  So striking
out a swapchain never removes a resource that is bound to memory.
-/

namespace GpuAudit.ResourceTracker

open Track (Refused)

variable {t u : ResourceTracker} {r g : Handle} {x : Resource}

/-! ## The view -/

/-- The record of a handle, if it is a live buffer or image. -/
def find? (t : ResourceTracker) (r : Handle) : Option Resource :=
  (t.buffers.find? r).or (t.images.find? r)

/-- A resource is bound to an allocation. -/
def BoundTo (t : ResourceTracker) (r memory : Handle) : Prop :=
  ∃ x, t.find? r = some x ∧ x.memory? = some memory

theorem boundTo_iff {memory : Handle} : t.BoundTo r memory ↔
    ∃ x offset, t.find? r = some x ∧ x.binding = .memory memory offset := by
  constructor
  · rintro ⟨x, hx, hm⟩
    unfold Resource.memory? at hm
    split at hm
    next memory offset hb =>
      cases hm
      exact ⟨x, offset, hx, hb⟩
    next _ => cases hm
  · rintro ⟨x, offset, hx, hb⟩
    refine ⟨x, hx, ?_⟩
    unfold Resource.memory?
    rw [hb]

theorem find?_of_buffer (h : r.kind = .buffer) : t.find? r = t.buffers.find? r := by
  unfold find?
  rw [Registry.find?_eq_none_of_kind (r := t.images) (by rw [h]; decide), Option.or_none]

theorem find?_of_not_buffer (h : r.kind ≠ .buffer) : t.find? r = t.images.find? r := by
  unfold find?
  rw [Registry.find?_eq_none_of_kind h, Option.none_or]

theorem lookup_eq_ok_iff : t.lookup r = .ok x ↔ t.find? r = some x := by
  unfold lookup
  split
  next h => rw [Registry.lookup_eq_ok_iff, find?_of_buffer h]
  next h => rw [Registry.lookup_eq_ok_iff, find?_of_not_buffer (by rw [h]; decide)]
  next hb hi =>
    rw [find?_of_not_buffer hb, Registry.find?_eq_none_of_kind hi]
    simp

theorem lookup_of_absent {u : ResourceTracker}
    (ht : t.find? r = none) (hu : u.find? r = none) :
    ∃ v, t.lookup r = .error v ∧ u.lookup r = .error v := by
  unfold lookup
  split
  next h =>
    rw [find?_of_buffer h] at ht hu
    exact Registry.lookup_of_absent ht hu
  next h =>
    rw [find?_of_not_buffer (by rw [h]; decide)] at ht hu
    exact Registry.lookup_of_absent ht hu
  next => exact ⟨_, rfl, rfl⟩

theorem find?_rebound (binding : Binding) :
    (t.rebound r binding).find? g =
      if g = r then (t.find? g).map fun x => { x with binding } else t.find? g := by
  unfold find? rebound
  rw [Registry.find?_modify, Registry.find?_modify]
  split
  · cases t.buffers.find? g <;> simp
  · rfl

theorem boundTo_rebound {binding : Binding} {memory : Handle} (hx : t.find? r = some x) :
    (t.rebound r binding).BoundTo g memory ↔
      if g = r then ({ x with binding } : Resource).memory? = some memory
      else t.BoundTo g memory := by
  unfold BoundTo
  rw [find?_rebound]
  split
  next he => simp [he, hx]
  next he => exact Iff.rfl

/-- Of two bindings of a resource the later one counts. -/
theorem rebound_rebound (a b : Binding) : (t.rebound r a).rebound r b = t.rebound r b := by
  unfold rebound
  congr 1
  · refine Registry.ext fun g => ?_
    simp only [Registry.find?_modify]
    split <;> simp [Function.comp_def]
  · refine Registry.ext fun g => ?_
    simp only [Registry.find?_modify]
    split <;> simp [Function.comp_def]

/-! ## Edits -/

/-- A list goes on with a handle that cannot be registered after the handles before it. -/
def Stops (own rest : List Handle) : Prop :=
  ∀ i more, rest = i :: more → i.isNull = true ∨ i ∈ own

/-- What one operation on the resources does. -/
inductive Edit : ResourceTracker → ResourceTracker → Prop
  /-- A resource that is not bound is entered. -/
  | made {t u : ResourceTracker} {r : Handle} {x : Resource} (new : t.find? r = none)
      (named : r.isNull = false) (unbound : x.binding = .unbound)
      (view : ∀ g, u.find? g = if g = r then some x else t.find? g)
      (swapchains : u.swapchains = t.swapchains) : Edit t u
  /-- A resource that is not bound is struck out. -/
  | removed {t u : ResourceTracker} {r : Handle} {x : Resource} (old : t.find? r = some x)
      (unbound : x.binding = .unbound)
      (view : ∀ g, u.find? g = if g = r then none else t.find? g)
      (swapchains : u.swapchains = t.swapchains) : Edit t u
  /-- A swapchain is entered, with a first part of its list. -/
  | chained {t u : ResourceTracker} {s : Handle} {own rest : List Handle} {usage : ImageUsage}
      (distinct : own.Nodup) (stops : Stops own rest)
      (new : ∀ i ∈ own, t.find? i = none ∧ i.isNull = false ∧ i.kind = .image)
      (view : ∀ g, u.find? g = if g ∈ own then some (.presentable s usage) else t.find? g)
      (swapchains : ∀ g, u.swapchains.find? g =
        if g = s then some (own ++ rest) else t.swapchains.find? g) : Edit t u
  /-- A swapchain is struck out with the images it owns. -/
  | unchained {t u : ResourceTracker} {s : Handle} {own : List Handle}
      (owned : ∀ i ∈ own, ∃ x, t.find? i = some x ∧ x.binding = .swapchain s)
      (view : ∀ g, u.find? g = if g ∈ own then none else t.find? g)
      (swapchains : ∀ g, u.swapchains.find? g = if g = s then none else t.swapchains.find? g) :
      Edit t u

theorem memory?_eq_none_of_unbound (h : x.binding = .unbound) : x.memory? = none := by
  unfold Resource.memory?
  rw [h]

theorem memory?_eq_none_of_swapchain {s : Handle} (h : x.binding = .swapchain s) :
    x.memory? = none := by
  unfold Resource.memory?
  rw [h]

/-- An edit that strikes out nothing. -/
structure Adds (t u : ResourceTracker) : Prop where
  /-- It is an edit. -/
  edit : Edit t u
  /-- What is live stays as it is. -/
  stays : ∀ g y, t.find? g = some y → u.find? g = some y

theorem adds_made (new : t.find? r = none) (named : r.isNull = false)
    (unbound : x.binding = .unbound) (view : ∀ g, u.find? g = if g = r then some x else t.find? g)
    (swapchains : u.swapchains = t.swapchains) : Adds t u := by
  refine ⟨.made new named unbound view swapchains, fun g y hy => ?_⟩
  rw [view, if_neg fun here => ?_, hy]
  rw [here, new] at hy
  cases hy

/-- A swapchain is struck out with the images it owns. -/
structure Unchains (s : Handle) (t u : ResourceTracker) : Prop where
  /-- What is struck out belonged to the swapchain. -/
  images : ∃ own : List Handle, (∀ i ∈ own, ∃ x, t.find? i = some x ∧ x.binding = .swapchain s) ∧
    ∀ g, u.find? g = if g ∈ own then none else t.find? g
  /-- Other swapchains stay. -/
  swapchains : ∀ g, u.swapchains.find? g = if g = s then none else t.swapchains.find? g

theorem Unchains.edit {s : Handle} (h : Unchains s t u) : Edit t u := by
  obtain ⟨own, owned, view⟩ := h.images
  exact .unchained owned view h.swapchains

/-- No edit of the resources binds one or releases a binding. -/
theorem Edit.boundTo (h : Edit t u) {memory : Handle} :
    u.BoundTo g memory ↔ t.BoundTo g memory := by
  unfold BoundTo
  cases h with
  | made new _ unbound view _ =>
      rw [view]
      split
      next he => simp [he, new, memory?_eq_none_of_unbound unbound]
      next _ => exact Iff.rfl
  | removed old unbound view _ =>
      rw [view]
      split
      next he => simp [he, old, memory?_eq_none_of_unbound unbound]
      next _ => exact Iff.rfl
  | chained _ _ new view _ =>
      rw [view]
      split
      next hi => simp [(new g hi).1, Resource.presentable, Resource.memory?]
      next _ => exact Iff.rfl
  | unchained owned view _ =>
      rw [view]
      split
      next hi =>
        obtain ⟨x, hx, hb⟩ := owned g hi
        simp [hx, memory?_eq_none_of_swapchain hb]
      next _ => exact Iff.rfl

/-! ## Swapchains own their images -/

/-- A swapchain owns a first part of a list, which ends where the list stops. -/
def Owns (t : ResourceTracker) (s : Handle) (images : List Handle) : Prop :=
  ∃ own rest, images = own ++ rest ∧ own.Nodup ∧ Stops own rest ∧
    ∀ i ∈ own, ∃ x, t.find? i = some x ∧ x.binding = .swapchain s

theorem Owns.mono {s : Handle} {images : List Handle} (h : t.Owns s images)
    (keep : ∀ i x, t.find? i = some x → x.binding = .swapchain s → u.find? i = some x) :
    u.Owns s images := by
  obtain ⟨own, rest, hl, distinct, stops, owned⟩ := h
  refine ⟨own, rest, hl, distinct, stops, fun i hi => ?_⟩
  obtain ⟨x, hx, hb⟩ := owned i hi
  exact ⟨x, keep i x hx hb, hb⟩

/-- Every swapchain owns a first part of its list, and what belongs to a swapchain is
an image as the swapchain makes it. -/
structure Chained (t : ResourceTracker) : Prop where
  /-- No resource has the null handle. -/
  named : ∀ r x, t.find? r = some x → r.isNull = false
  /-- What belongs to a swapchain is an image made for it. -/
  presentable : ∀ r x s, t.find? r = some x → x.binding = .swapchain s →
    r.kind = .image ∧ ∃ usage, x = .presentable s usage
  /-- A swapchain owns a first part of its list. -/
  owns : ∀ s images, t.swapchains.find? s = some images → t.Owns s images

theorem chained_empty : empty.Chained := by
  constructor
  · intro r x hx
    simp [find?, empty] at hx
  · intro r x s hx
    simp [find?, empty] at hx
  · intro s images hs
    simp [empty] at hs

/-- A change keeps the swapchains theirs if the records it makes are as they should be
and the swapchains it leaves own a part of their lists. -/
theorem Chained.change (h : t.Chained)
    (record : ∀ g y, u.find? g = some y → t.find? g = some y ∨ g.isNull = false ∧
      ∀ s, y.binding = .swapchain s → g.kind = .image ∧ ∃ usage, y = .presentable s usage)
    (owns : ∀ s images, u.swapchains.find? s = some images → u.Owns s images) : u.Chained where
  named := by
    intro g y hy
    rcases record g y hy with hy | ⟨named, -⟩
    · exact h.named g y hy
    · exact named
  presentable := by
    intro g y s hy hs
    rcases record g y hy with hy | ⟨-, made⟩
    · exact h.presentable g y s hy hs
    · exact made s hs
  owns := owns

theorem Chained.edit (h : t.Chained) (he : Edit t u) : u.Chained := by
  cases he with
  | @made r x new named unbound view swapchains =>
      refine h.change (fun g y hy => ?_) fun s images hs => ?_
      · rw [view] at hy
        split at hy
        next hg =>
          cases hy
          exact .inr ⟨hg ▸ named, fun s hs => by simp [unbound] at hs⟩
        next _ => exact .inl hy
      · refine (h.owns s images (swapchains ▸ hs)).mono fun i y hy _ => ?_
        have hne : i ≠ r := by
          rintro rfl
          simp [new] at hy
        rw [view, if_neg hne, hy]
  | @removed r x old unbound view swapchains =>
      refine h.change (fun g y hy => ?_) fun s images hs => ?_
      · rw [view] at hy
        split at hy
        next _ => cases hy
        next _ => exact .inl hy
      · refine (h.owns s images (swapchains ▸ hs)).mono fun i y hy hb => ?_
        have hne : i ≠ r := by
          rintro rfl
          rw [old] at hy
          cases hy
          simp [unbound] at hb
        rw [view, if_neg hne, hy]
  | @chained s own rest usage distinct stops new view swapchains =>
      refine h.change (fun g y hy => ?_) fun k images hk => ?_
      · rw [view] at hy
        split at hy
        next hg =>
          cases hy
          obtain ⟨-, named, image⟩ := new g hg
          refine .inr ⟨named, fun k hk => ?_⟩
          cases hk
          exact ⟨image, usage, rfl⟩
        next _ => exact .inl hy
      · rw [swapchains] at hk
        split at hk
        next hks =>
          cases hk
          exact ⟨own, rest, rfl, distinct, stops, fun i hi =>
            ⟨.presentable s usage, by rw [view, if_pos hi], by rw [hks]; rfl⟩⟩
        next _ =>
          refine (h.owns k images hk).mono fun i y hy _ => ?_
          have hni : i ∉ own := fun hio => by simp [(new i hio).1] at hy
          rw [view, if_neg hni, hy]
  | @unchained s own owned view swapchains =>
      refine h.change (fun g y hy => ?_) fun k images hk => ?_
      · rw [view] at hy
        split at hy
        next _ => cases hy
        next _ => exact .inl hy
      · rw [swapchains] at hk
        split at hk
        next _ => cases hk
        next hks =>
          refine (h.owns k images hk).mono fun i y hy hb => ?_
          have hni : i ∉ own := fun hio => by
            obtain ⟨z, hz, hs⟩ := owned i hio
            rw [hz] at hy
            cases hy
            rw [hb] at hs
            exact hks (Binding.swapchain.inj hs)
          rw [view, if_neg hni, hy]

/-- Binding a resource that belongs to no swapchain leaves the swapchains theirs. -/
theorem Chained.rebound (h : t.Chained) (hx : t.find? r = some x) {binding : Binding}
    (hb : ∀ s, x.binding ≠ .swapchain s) (hn : ∀ s, binding ≠ .swapchain s) :
    (t.rebound r binding).Chained := by
  refine h.change (fun g y hy => ?_) fun s images hs => ?_
  · rw [find?_rebound] at hy
    split at hy
    next hg =>
      rw [hg, hx, Option.map_some] at hy
      cases hy
      exact .inr ⟨hg ▸ h.named r x hx, fun s hs => absurd hs (hn s)⟩
    next _ => exact .inl hy
  · refine (h.owns s images hs).mono fun i y hy hb' => ?_
    have hne : i ≠ r := by
      rintro rfl
      rw [hx] at hy
      cases hy
      exact hb s hb'
    rw [find?_rebound, if_neg hne, hy]

/-! ## Operations -/

theorem find?_register_buffer {buffers : Registry .buffer Resource}
    (h : t.buffers.register r x = .ok buffers) :
    ({ t with buffers } : ResourceTracker).find? g = if g = r then some x else t.find? g := by
  unfold find?
  rw [Registry.find?_register h]
  split <;> simp

theorem find?_register_image {images : Registry .image Resource}
    (h : t.images.register r x = .ok images) :
    ({ t with images } : ResourceTracker).find? g = if g = r then some x else t.find? g := by
  obtain ⟨hk, -, -, -⟩ := Registry.register_eq_ok_iff.mp h
  unfold find?
  rw [Registry.find?_register h]
  split
  next he => rw [he, Registry.find?_eq_none_of_kind (by rw [hk]; decide), Option.none_or]
  next _ => rfl

theorem find?_unregister_buffer {buffers : Registry .buffer Resource}
    (h : t.buffers.unregister r = .ok (x, buffers)) :
    ({ t with buffers } : ResourceTracker).find? g = if g = r then none else t.find? g := by
  obtain ⟨hf, -⟩ := Registry.unregister_eq_ok_iff.mp h
  unfold find?
  rw [Registry.find?_unregister h]
  split
  next he =>
    have hk := Registry.kind_of_find hf
    rw [he, Registry.find?_eq_none_of_kind (by rw [hk]; decide), Option.none_or]
  next _ => rfl

theorem find?_unregister_image {images : Registry .image Resource}
    (h : t.images.unregister r = .ok (x, images)) :
    ({ t with images } : ResourceTracker).find? g = if g = r then none else t.find? g := by
  obtain ⟨hf, -⟩ := Registry.unregister_eq_ok_iff.mp h
  unfold find?
  rw [Registry.find?_unregister h]
  split
  next he =>
    have hk := Registry.kind_of_find hf
    rw [he, Registry.find?_eq_none_of_kind (by rw [hk]; decide), Option.none_or]
  next _ => rfl

theorem createBuffer_ends (t : ResourceTracker) (buffer : Handle) (info : BufferCreateInfo) :
    (createBuffer buffer info).Ends t (fun _ u => Adds t u) (Refused t) := by
  unfold createBuffer
  rw [Track.ends_bind, Track.ends_update_bind]
  constructor
  · intro buffers hr
    obtain ⟨hk, named, new, -⟩ := Registry.register_eq_ok_iff.mp hr
    rw [← find?_of_buffer hk] at new
    exact adds_made new named rfl (fun g => find?_register_buffer hr) rfl
  · intro v hv
    exact ⟨Registry.mild_register buffer _ v hv, rfl⟩

theorem createImage_ends (t : ResourceTracker) (image : Handle) (info : ImageCreateInfo) :
    (createImage image info).Ends t (fun _ u => Adds t u) (Refused t) := by
  unfold createImage
  rw [Track.ends_bind, Track.ends_update_bind]
  constructor
  · intro images hr
    obtain ⟨hk, named, new, -⟩ := Registry.register_eq_ok_iff.mp hr
    rw [← find?_of_not_buffer (by rw [hk]; decide)] at new
    exact adds_made new named rfl (fun g => find?_register_image hr) rfl
  · intro v hv
    exact ⟨Registry.mild_register image _ v hv, rfl⟩

/-- A live resource can be removed. -/
theorem remove_strikes (hx : t.find? r = some x) :
    (remove r).Ends t (fun _ u => (∀ g, u.find? g = if g = r then none else t.find? g) ∧
      u.swapchains = t.swapchains) fun _ _ => False := by
  unfold remove
  rw [Track.ends_bind, Track.ends_get, Track.ends_bind, lookup_eq_ok_iff.mpr hx,
    Track.ends_ofExcept_ok]
  split
  next hk =>
    have hr := Registry.unregister_eq_ok_iff.mpr ⟨(find?_of_buffer hk).symm.trans hx, rfl⟩
    rw [Track.ends_bind, Track.ends_update, hr]
    exact ⟨fun g => find?_unregister_buffer hr, rfl⟩
  next hk =>
    have hr := Registry.unregister_eq_ok_iff.mpr ⟨(find?_of_not_buffer hk).symm.trans hx, rfl⟩
    rw [Track.ends_bind, Track.ends_update, hr]
    exact ⟨fun g => find?_unregister_image hr, rfl⟩

theorem remove_ends (hx : t.find? r = some x) (unbound : x.binding = .unbound) :
    (remove r).Ends t (fun _ u => Edit t u) fun _ _ => False :=
  (remove_strikes hx).mono (fun _ _ hu => .removed hx unbound hu.1 hu.2) fun _ _ hf => hf

/-! ## Swapchains -/

/-- Handles of images that are not live. -/
def UnusedImages (t : ResourceTracker) (images : List Handle) : Prop :=
  ∀ i ∈ images, i.kind = .image ∧ t.images.find? i = none

/-- A swapchain has been entered; `entry` says which of its images have been. -/
structure Enters (t : ResourceTracker) (s : Handle) (images : List Handle)
    (entry : Registry .image Resource → Prop) (u : ResourceTracker) : Prop where
  /-- The swapchain keeps the whole list. -/
  swapchains : t.swapchains.Entered images [s] u.swapchains
  /-- The images. -/
  images : entry u.images
  /-- The buffers stay. -/
  buffers : u.buffers = t.buffers

/-- A swapchain is entered with its images, or not at all, or with those before an image
that cannot be entered. -/
theorem createSwapchain_enters (t : ResourceTracker) (s : Handle) (images : List Handle)
    (usage : ImageUsage) :
    (createSwapchain s images usage).Ends t
      (fun _ u => (t.swapchains.Admits s ∧ t.images.AdmitsAll images) ∧
        t.Enters s images (t.images.Entered (.presentable s usage) images) u)
      fun v u => v.toDiagnostic.severity = .error ∧
        (u = t ∧ ¬(t.swapchains.Admits s ∧ t.UnusedImages images) ∨
          (t.swapchains.Admits s ∧ t.UnusedImages images) ∧
            t.Enters s images (t.images.Stopped (.presentable s usage) images) u) := by
  unfold createSwapchain
  rw [Track.ends_bind, Track.ends_get]
  by_cases known : t.swapchains.contains s = true
  · simp only [if_pos known]
    refine ⟨rfl, .inl ⟨rfl, fun ⟨admits, _⟩ => ?_⟩⟩
    rw [Registry.contains_eq_isSome, admits.2] at known
    cases known
  · simp only [if_neg known]
    rw [Track.ends_bind]
    refine (Track.ends_forM_checks images
      (fun i => i.kind = ObjectKind.image ∧ t.images.find? i = none)
      (fun v u => v.toDiagnostic.severity = .error ∧ u = t ∧ ¬t.UnusedImages images)
      fun i hi => ?_).mono (fun _ u hu => ?_) fun v u hv =>
        ⟨hv.1, .inl ⟨hv.2.1, fun ready => hv.2.2 ready.2⟩⟩
    · split
      next used =>
        refine ⟨rfl, rfl, fun unused => used.elim (· (unused i hi).1) fun live => ?_⟩
        rw [Registry.contains_eq_isSome, (unused i hi).2] at live
        cases live
      next unused =>
        rw [not_or, not_not, Registry.contains_eq_isSome, Option.not_isSome_iff_eq_none] at unused
        exact ⟨rfl, unused⟩
    · obtain ⟨rfl, unused⟩ := hu
      rw [Track.ends_bind]
      refine Registry.enter_ends.mono (fun _ w hs => ?_) fun v w hv =>
        ⟨hv.1, .inl ⟨hv.2.2, fun ready => hv.2.1 ready.1⟩⟩
      obtain ⟨admits, swapchains, rfl, entered⟩ := hs
      have entered : u.swapchains.Entered images [s] swapchains := fun g => by
        simpa using entered g
      rw [Track.ends_bind]
      refine (Registry.enterAll_ends (fun t : ResourceTracker => t.images)
        (fun t images => { t with images }) rfl (fun _ _ => rfl) (fun _ _ _ => rfl) images).mono
        (fun _ w hi => ?_) fun v w hv => ?_
      · obtain ⟨all, entries, rfl, listed⟩ := hi
        exact ⟨⟨admits, all⟩, entered, listed, rfl⟩
      · obtain ⟨error, entries, rfl, stopped⟩ := hv
        exact ⟨error, .inr ⟨⟨admits, unused⟩, entered, stopped, rfl⟩⟩

/-- The view after a swapchain has been entered with some images. -/
theorem Enters.find? {s : Handle} {images own : List Handle} {x : Resource}
    (h : t.Enters s images (t.images.Entered x own) u) (admitted : t.images.AdmitsAll own)
    (g : Handle) : u.find? g = if g ∈ own then some x else t.find? g := by
  unfold ResourceTracker.find?
  rw [h.buffers, h.images g]
  split
  next hg =>
    rw [Registry.find?_eq_none_of_kind (by rw [(admitted.2 g hg).1.1]; decide), Option.none_or]
  next => rfl

/-- A swapchain that is entered, with a first part of its list, strikes out nothing. -/
theorem Enters.adds {s : Handle} {own rest : List Handle} {usage : ImageUsage}
    (h : t.Enters s (own ++ rest) (t.images.Entered (.presentable s usage) own) u)
    (admitted : t.images.AdmitsAll own) (stops : Stops own rest) : Adds t u := by
  have new : ∀ i ∈ own, t.find? i = none ∧ i.isNull = false ∧ i.kind = .image := fun i hi => by
    obtain ⟨⟨kind, named⟩, new⟩ := admitted.2 i hi
    exact ⟨(find?_of_not_buffer (by rw [kind]; decide)).trans new, named, kind⟩
  have view := h.find? admitted
  refine ⟨.chained admitted.1 stops new view fun g => by simpa using h.swapchains g,
    fun g y hy => ?_⟩
  rw [view, if_neg fun mine => ?_, hy]
  rw [(new g mine).1] at hy
  cases hy

/-- A swapchain is entered with a first part of its list, or not at all. -/
theorem createSwapchain_ends (t : ResourceTracker) (s : Handle) (images : List Handle)
    (usage : ImageUsage) :
    (createSwapchain s images usage).Ends t (fun _ u => Adds t u)
      fun v u => Refused t v u ∨ Adds t u := by
  refine (createSwapchain_enters t s images usage).mono (fun _ u hu => ?_) fun v u hv => ?_
  · have enters : t.Enters s (images ++ []) (t.images.Entered (.presentable s usage) images) u := by
      rw [List.append_nil]
      exact hu.2
    have whole : Stops images [] := fun _ _ h => nomatch h
    exact enters.adds hu.1.2 whole
  · obtain ⟨error, ⟨rfl, -⟩ | ⟨⟨-, unused⟩, swapchains, stopped, buffers⟩⟩ := hv
    · exact .inl ⟨Violation.isFatal_of_error error, rfl⟩
    · obtain ⟨own, i, more, rfl, admitted, fails, entered⟩ := stopped
      have enters : t.Enters s (own ++ i :: more) (t.images.Entered _ own) u :=
        ⟨swapchains, entered, buffers⟩
      refine .inr (enters.adds admitted fun j _ hj => ?_)
      obtain ⟨rfl, -⟩ := List.cons.inj hj
      -- An unused image is entered unless it is null or listed before.
      refine Decidable.or_iff_not_imp_left.mpr fun named => Decidable.byContradiction fun new =>
        fails ⟨?_, fun k hk => ?_⟩
      · exact List.nodup_append.mpr ⟨admitted.1, List.nodup_singleton i, fun k hk j hj => by
          rintro rfl
          exact new (List.mem_singleton.mp hj ▸ hk)⟩
      · rcases List.mem_append.mp hk with hk | hk
        · exact admitted.2 k hk
        · obtain ⟨kind, free⟩ := unused i (by simp)
          exact List.mem_singleton.mp hk ▸ ⟨⟨kind, by simpa using named⟩, free⟩

/-- The images that a swapchain owns can be removed. -/
theorem removeImages_ends {s : Handle} {own : List Handle} (chained : t.Chained)
    {swapchains : Registry .swapchain (List Handle)} (distinct : own.Nodup)
    (owned : ∀ i ∈ own, ∃ x, t.find? i = some x ∧ x.binding = .swapchain s) :
    (own.forM fun image =>
        (Track.update fun t => return { t with images := (← t.images.unregister image).2 }).restate
          (inconsistent image)).Ends
      { t with swapchains }
      (fun _ u => u.swapchains = swapchains ∧
        ∀ g, u.find? g = if g ∈ own then none else t.find? g) fun _ _ => False := by
  refine Track.Ends.forM (fun front (u : ResourceTracker) => u.swapchains = swapchains ∧
      ∀ g, u.find? g = if g ∈ front then none else t.find? g)
    ⟨rfl, fun g => by simp [find?]⟩ fun front i back u parts hu => ?_
  obtain ⟨hs, view⟩ := hu
  obtain ⟨x, hx, hb⟩ := owned i (by simp [parts])
  have hk := (chained.presentable i x s hx hb).1
  have hi : i ∉ front := Track.not_mem_front (parts ▸ distinct)
  have hu : u.images.find? i = some x := by
    rw [← find?_of_not_buffer (by rw [hk]; decide), view, if_neg hi, hx]
  have hr := Registry.unregister_eq_ok_iff.mpr ⟨hu, rfl⟩
  rw [Track.ends_restate, Track.ends_update, hr]
  refine ⟨hs, fun g => ?_⟩
  rw [find?_unregister_image hr, view]
  by_cases hg : g = i <;> simp [hg]

/-- A swapchain is struck out with what it owns, or not at all. -/
theorem destroySwapchain_ends (chained : t.Chained) (s : Handle) :
    (destroySwapchain s).Ends t (fun _ u => Unchains s t u)
      fun v u => Refused t v u ∨ Unchains s t u := by
  unfold destroySwapchain
  rw [Track.ends_bind, Track.ends_get, Track.ends_bind, Track.ends_ofExcept]
  constructor
  · rintro ⟨images, swapchains⟩ hr
    have hs := (Registry.unregister_eq_ok_iff.mp hr).1
    obtain ⟨own, rest, rfl, distinct, stops, owned⟩ := chained.owns s images hs
    have gone := Registry.find?_unregister hr
    rw [Track.ends_bind, Track.ends_set, Track.ends_bind, Track.ends_forM_append]
    refine (removeImages_ends chained distinct owned).mono (fun _ u hu => ?_) fun _ _ h => h.elim
    obtain ⟨hsu, view⟩ := hu
    have struck : Unchains s t u := ⟨⟨own, owned, view⟩, fun g => by rw [hsu, gone]⟩
    cases rest with
    | nil => exact struck
    | cons i more =>
        -- What stopped the entry of the list stops its removal.
        have missing : u.find? i = none := by
          rw [view]
          split
          next _ => rfl
          next hio =>
            have null := (stops i more rfl).resolve_right hio
            refine Option.eq_none_iff_forall_ne_some.mpr fun x hx => ?_
            have := chained.named i x hx
            rw [null] at this
            cases this
        have hn : u.images.find? i = none := by
          unfold find? at missing
          exact (Option.or_eq_none_iff.mp missing).2
        rw [Track.ends_forM_cons, Track.ends_restate, Track.ends_update_bind]
        constructor
        · intro found hr
          have live := (Registry.unregister_eq_ok_iff.mp hr).1
          rw [hn] at live
          cases live
        · intro v _
          exact .inr struck
  · intro v hv
    exact .inl ⟨Registry.mild_unregister s v hv, rfl⟩

end GpuAudit.ResourceTracker
