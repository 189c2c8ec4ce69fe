import GpuAudit.Proofs.Rebinding

/-!
# Swapchains from their creation to their end

`Presents` says that a swapchain is live with its whole list, and owns every image of it.
Creating a swapchain leads there if it succeeds, and no operation on the resources leads
away from there but the destruction of the swapchain itself: bindings and destructions of
images are refused, another swapchain neither takes nor strikes out images that are owned,
and the handle of the swapchain stays in use.  So the destruction always finds what it has
to strike out.

A creation that fails has changed nothing if it is the swapchain that cannot be entered, or
an image is in use.  Nobody asks before the entry whether an image is listed twice or null,
and such a list leaves a swapchain behind that cannot be destroyed (`createsWhole_iff`).
-/

namespace GpuAudit

open Track (Mild Preserves confined_update confined_debug confined_get confined_ofExcept confined_pure)

/-! ## Operations on resources -/

/-- The operations on the resources of a device. -/
inductive ResourceOperation
  | createBuffer (buffer : Handle) (info : BufferCreateInfo)
  | createImage (image : Handle) (info : ImageCreateInfo)
  | bind (resource memory : Handle) (offset : UInt64) (kind : ObjectKind)
  | unbind (resource : Handle)
  | destroyResource (resource : Handle)
  | createSwapchain (swapchain : Handle) (images : List Handle) (usage : ImageUsage)
  | destroySwapchain (swapchain : Handle)
deriving DecidableEq

namespace ResourceOperation

open Trackers (onResources)

/-- An operation, without its answer. -/
def run : ResourceOperation → Track Trackers Unit
  | createBuffer buffer info => onResources (ResourceTracker.createBuffer buffer info)
  | createImage image info => onResources (ResourceTracker.createImage image info)
  | bind resource memory offset kind => Trackers.bind resource memory offset kind
  | unbind resource => discard (Trackers.unbind resource)
  | destroyResource resource => discard (Trackers.destroyResource resource)
  | createSwapchain swapchain images usage =>
      onResources (ResourceTracker.createSwapchain swapchain images usage)
  | destroySwapchain swapchain => discard (onResources (ResourceTracker.destroySwapchain swapchain))

end ResourceOperation

namespace ResourceTracker

variable {t u : ResourceTracker} {s : Handle} {images : List Handle} {usage : ImageUsage}

/-- The resources that operations lead to.  Each operation may find the other books of the
device in any state. -/
inductive Operated : ResourceTracker → Prop
  | start : Operated empty
  | step {t : Trackers} (h : Operated t.resources) (op : ResourceOperation) :
      Operated (op.run.on t).state.resources

/-- The resources that operations lead to which do not destroy a swapchain. -/
inductive Later (s : Handle) (t : ResourceTracker) : ResourceTracker → Prop
  | refl : Later s t t
  | step {u : Trackers} (h : Later s t u.resources) (op : ResourceOperation)
      (other : op ≠ .destroySwapchain s) : Later s t (op.run.on u).state.resources

/-! ## The list of a live swapchain -/

/-- A swapchain is live with a list of images. -/
def Lists (t : ResourceTracker) (s : Handle) (images : List Handle) : Prop :=
  t.swapchains.find? s = some images

theorem createBuffer_keepsList (buffer : Handle) (info : BufferCreateInfo) :
    (createBuffer buffer info).Confined (Preserves (·.Lists s images)) := by
  refine (confined_update fun t u hu => ?_).bind fun _ => confined_debug _
  obtain ⟨buffers, -, he⟩ := bind_eq_ok_iff.mp hu
  cases he
  exact id

theorem createImage_keepsList (image : Handle) (info : ImageCreateInfo) :
    (createImage image info).Confined (Preserves (·.Lists s images)) := by
  refine (confined_update fun t u hu => ?_).bind fun _ => confined_debug _
  obtain ⟨entries, -, he⟩ := bind_eq_ok_iff.mp hu
  cases he
  exact id

theorem remove_keepsList (r : Handle) : (remove r).Confined (Preserves (·.Lists s images)) := by
  refine confined_get.bind fun _ => (confined_ofExcept _).bind fun _ => ?_
  split
  · refine (confined_update fun t u hu => ?_).bind fun _ => confined_pure _
    obtain ⟨struck, -, he⟩ := bind_eq_ok_iff.mp hu
    cases he
    exact id
  · refine (confined_update fun t u hu => ?_).bind fun _ => confined_pure _
    obtain ⟨struck, -, he⟩ := bind_eq_ok_iff.mp hu
    cases he
    exact id

/-- A swapchain is entered under a handle that is not in use. -/
theorem createSwapchain_keepsList (s' : Handle) (own : List Handle) (usage : ImageUsage) :
    (createSwapchain s' own usage).Confined (Preserves (·.Lists s images)) := by
  refine Track.confined_preserves fun t h => ?_
  have keeps {entry : Registry .image Resource → Prop} {u : ResourceTracker}
      (admits : t.swapchains.Admits s') (enters : t.Enters s' own entry u) :
      u.Lists s images := by
    refine (enters.swapchains s).trans ?_
    rw [if_neg fun here => ?_]
    · exact h
    · cases h.symm.trans (List.mem_singleton.mp here ▸ admits.2)
  refine (createSwapchain_enters t s' own usage).mono (fun _ u hu => keeps hu.1.1 hu.2)
    fun v u hv => ?_
  rcases hv.2 with ⟨rfl, -⟩ | ⟨⟨admits, -⟩, enters⟩
  · exact h
  · exact keeps admits enters

theorem destroySwapchain_keepsList {s' : Handle} (other : s ≠ s') :
    (destroySwapchain s').Confined (Preserves (·.Lists s images)) := by
  refine Track.confined_preserves fun t h => ?_
  unfold destroySwapchain
  rw [Track.ends_bind, Track.ends_get, Track.ends_bind, Track.ends_ofExcept]
  refine ⟨fun ⟨own, swapchains⟩ hr => ?_, fun _ _ => h⟩
  rw [Track.ends_bind, Track.ends_set, Track.ends_bind]
  refine Track.Ends.forM_keeps (fun u : ResourceTracker => u.Lists s images) ?_ fun i _ u hu => ?_
  · exact (Registry.find?_unregister hr s).trans ((if_neg other).trans h)
  · rw [Track.ends_restate, Track.ends_update_bind]
    exact ⟨fun _ _ => hu, fun _ _ => hu⟩

/-! ## What a live swapchain presents -/

/-- A swapchain is live with a list of images, and owns each of them. -/
structure Presents (t : ResourceTracker) (s : Handle) (images : List Handle) (usage : ImageUsage) :
    Prop where
  /-- The swapchain has the list. -/
  listed : t.Lists s images
  /-- Each image is as the swapchain has made it. -/
  owned : ∀ i ∈ images, t.find? i = some (.presentable s usage)

/-- What a swapchain presents stays while the resources and the list of the swapchain do. -/
theorem Presents.edit (h : t.Presents s images usage) (edit : Edit t u)
    (listed : u.Lists s images) : u.Presents s images usage := by
  refine ⟨listed, fun i hi => ?_⟩
  have hx := h.owned i hi
  cases edit with
  | made new _ _ view _ =>
      rw [view, if_neg fun here => ?_, hx]
      rw [here, new] at hx
      cases hx
  | removed old unbound view _ =>
      rw [view, if_neg fun here => ?_, hx]
      rw [here, old] at hx
      cases hx
      cases unbound
  | chained _ _ new view _ =>
      rw [view, if_neg fun mine => ?_, hx]
      rw [(new i mine).1] at hx
      cases hx
  | @unchained s' own owned view swapchains =>
      rw [view, if_neg fun mine => ?_, hx]
      obtain ⟨x, hx', theirs⟩ := owned i mine
      cases hx.symm.trans hx'
      -- What is struck out belonged to a swapchain that is gone, and this one is listed.
      cases theirs
      cases listed.symm.trans ((swapchains s).trans (if_pos rfl))

/-- A swapchain that presents its images can be destroyed, and exactly the swapchain and
the images are struck out. -/
theorem Presents.destroys (h : t.Presents s images usage) (chained : t.Chained)
    (distinct : images.Nodup) :
    (destroySwapchain s).Ends t
      (fun answer u => answer = images ∧
        (∀ g, u.swapchains.find? g = if g = s then none else t.swapchains.find? g) ∧
        ∀ g, u.find? g = if g ∈ images then none else t.find? g) fun _ _ => False := by
  unfold destroySwapchain
  rw [Track.ends_bind, Track.ends_get, Track.ends_bind]
  have hr := Registry.unregister_eq_ok_iff.mpr ⟨h.listed, rfl⟩
  rw [hr, Track.ends_ofExcept_ok, Track.ends_bind, Track.ends_set, Track.ends_bind]
  refine (removeImages_ends chained distinct fun i hi => ⟨_, h.owned i hi, rfl⟩).mono
    (fun _ u hu => ?_) fun _ _ hf => hf
  obtain ⟨swapchains, view⟩ := hu
  exact ⟨rfl, fun g => swapchains ▸ Registry.find?_unregister hr g, view⟩

end ResourceTracker

/-! ## Any operation -/

namespace ResourceOperation

open ResourceTracker (Presents Edit)
open Trackers (Rebinds onResources)

variable {t u : Trackers} {s : Handle} {images : List Handle} {usage : ImageUsage}

/-- What an operation does to the resources.  None that a swapchain owns is named. -/
inductive Acts (t u : Trackers) : Prop
  /-- It leaves them. -/
  | same (resources : u.resources = t.resources)
  /-- It edits them. -/
  | edited (edit : t.resources.Edit u.resources)
  /-- It binds them differently, or strikes one out. -/
  | rebound {named : Handle → Prop} (rebinds : Rebinds named t u)
      (free : ∀ r x k, named r → t.resources.find? r = some x → x.binding ≠ .swapchain k)

theorem Acts.chained (acts : Acts t u) (h : t.resources.Chained) : u.resources.Chained := by
  cases acts with
  | same resources => exact resources ▸ h
  | edited edit => exact h.edit edit
  | rebound rebinds _ => exact rebinds.chained h

theorem Acts.presents (acts : Acts t u) (h : t.resources.Presents s images usage)
    (listed : u.resources.Lists s images) :
    u.resources.Presents s images usage := by
  cases acts with
  | same resources => exact resources ▸ h
  | edited edit => exact h.edit edit listed
  | rebound rebinds free =>
      exact ⟨listed, fun i hi => rebinds.kept i _ (h.owned i hi) (.inl ⟨s, rfl⟩) fun named =>
        free i _ s named (h.owned i hi) rfl⟩

theorem acts_of_edit {α : Type} {x : Track ResourceTracker α}
    (ends : x.Ends t.resources (fun _ r => t.resources.Edit r)
      fun v r => Track.Refused t.resources v r ∨ t.resources.Edit r) :
    (onResources x).Ends t (fun _ => Acts t) fun _ => Acts t := by
  refine Track.ends_within.mpr (ends.mono (fun _ _ edit => .edited edit) fun _ r hr => ?_)
  rcases hr with ⟨-, rfl⟩ | edit
  · exact .same rfl
  · exact .edited edit

/-- Every operation acts so, wherever it stops. -/
theorem run_acts (op : ResourceOperation) (h : t.resources.Chained) :
    op.run.Ends t (fun _ => Acts t) fun _ => Acts t := by
  cases op with
  | createBuffer buffer info =>
      exact acts_of_edit ((t.resources.createBuffer_ends buffer info).mono (fun _ _ a => a.edit)
        fun _ _ => .inl)
  | createImage image info =>
      exact acts_of_edit ((t.resources.createImage_ends image info).mono (fun _ _ a => a.edit)
        fun _ _ => .inl)
  | createSwapchain s images usage =>
      exact acts_of_edit ((t.resources.createSwapchain_ends s images usage).mono (fun _ _ a => a.edit)
        fun _ _ hv => hv.imp_right (·.edit))
  | destroySwapchain s =>
      exact Track.ends_discard.mpr (acts_of_edit ((ResourceTracker.destroySwapchain_ends h s).mono
        (fun _ _ hu => hu.edit) fun _ _ hv => hv.imp_right (·.edit)))
  | bind r memory offset kind =>
      have none : ∀ g x k, (fun _ => False) g → t.resources.find? g = some x →
          x.binding ≠ .swapchain k := fun _ _ _ hf => hf.elim
      exact (Trackers.bind_rebinds r memory offset kind t).mono (fun _ _ hu => .rebound hu none)
        fun _ _ hu => .rebound hu none
  | unbind r =>
      have rebinds : (Trackers.unbind r).Ends t (fun _ => t.Rebinds (· = r))
          fun _ => t.Rebinds (· = r) := Trackers.unbind_rebinds t fun _ _ _ => rfl
      refine Track.ends_discard.mpr ((rebinds.and (Trackers.unbind_views t r)).mono
        (fun _ u hu => ?_) fun _ u hu => .same hu.2)
      obtain ⟨rebinds, x, memory, offset, hx, bound, -⟩ := hu
      refine .rebound rebinds fun g y k here hy owned => ?_
      cases hx.symm.trans (here ▸ hy)
      cases bound.symm.trans owned
  | destroyResource r =>
      have rebinds : (Trackers.destroyResource r).Confined (Trackers.Rebinds (· = r)) :=
        Trackers.destroyResource_rebinds r rfl
      refine Track.ends_discard.mpr (((rebinds t).and (Trackers.destroyResource_views t r)).mono
        (fun _ u hu => ?_) fun _ u hu => .same hu.2)
      exact .rebound hu.1 fun g x k here hx => hu.2.1 x k (here ▸ hx)

/-- A live swapchain keeps its list until it is destroyed. -/
theorem run_keepsList (op : ResourceOperation) (other : op ≠ .destroySwapchain s) :
    op.run.Confined (Preserves (·.resources.Lists s images)) := by
  have here {α : Type} {x : Track ResourceTracker α}
      (keeps : x.Confined (Preserves fun r : ResourceTracker => r.Lists s images)) :
      (onResources x).Confined (Preserves fun t : Trackers => t.resources.Lists s images) :=
    keeps.within fun _ _ h => h
  have links : ∀ (t : Trackers) memory,
      Preserves (·.resources.Lists s images) t { t with memory } := fun _ _ => id
  have rebinds : ∀ (t : Trackers) resource binding, Preserves (·.resources.Lists s images) t
      { t with resources := t.resources.rebound resource binding } := fun _ _ _ => id
  cases op with
  | createBuffer buffer info => exact here (ResourceTracker.createBuffer_keepsList buffer info)
  | createImage image info => exact here (ResourceTracker.createImage_keepsList image info)
  | bind r memory offset kind => exact Trackers.confined_bind links rebinds r memory offset kind
  | unbind r => exact (Trackers.confined_unbind links rebinds r).discard
  | destroyResource r =>
      have removes := here (ResourceTracker.remove_keepsList r)
      exact (Trackers.confined_destroyResource links rebinds removes).discard
  | createSwapchain s' own usage =>
      exact here (ResourceTracker.createSwapchain_keepsList s' own usage)
  | destroySwapchain s' =>
      have apart : s ≠ s' := fun same => other (same ▸ rfl)
      exact (here (ResourceTracker.destroySwapchain_keepsList apart)).discard

/-- What a swapchain presents stays until it is destroyed. -/
theorem run_presents (op : ResourceOperation) (other : op ≠ .destroySwapchain s)
    (chained : t.resources.Chained) (h : t.resources.Presents s images usage) :
    (op.run.on t).state.resources.Presents s images usage :=
  have acts := (run_acts op chained).state
  acts.presents h ((run_keepsList op other).state t h.listed)

end ResourceOperation

namespace ResourceTracker

variable {t u : ResourceTracker} {s : Handle} {images : List Handle} {usage : ImageUsage}

/-! ## Runs -/

theorem Operated.chained (h : t.Operated) : t.Chained := by
  induction h with
  | start => exact chained_empty
  | step _ op ih => exact (op.run_acts ih).state.chained ih

/-- Until it is destroyed a swapchain presents its images. -/
theorem Later.presents (later : Later s t u) (chained : t.Chained)
    (h : t.Presents s images usage) : u.Chained ∧ u.Presents s images usage := by
  induction later with
  | refl => exact ⟨chained, h⟩
  | step _ op other ih => exact ⟨(op.run_acts ih.1).state.chained ih.1, op.run_presents other ih.1 ih.2⟩

/-! ## Creation and destruction -/

/-- A swapchain can be destroyed, which strikes out it and some images, and nothing else. -/
def Destroys (t : ResourceTracker) (s : Handle) (images : List Handle) : Prop :=
  (destroySwapchain s).Ends t
    (fun answer u => answer = images ∧
      (∀ g, u.swapchains.find? g = if g = s then none else t.swapchains.find? g) ∧
      ∀ g, u.find? g = if g ∈ images then none else t.find? g)
    fun _ _ => False

/-- A swapchain is created with all its images or not at all, and can be undone. -/
structure CreatesWhole (t : ResourceTracker) (s : Handle) (images : List Handle)
    (usage : ImageUsage) : Prop where
  /-- A creation that fails changes nothing. -/
  refused : ∀ v, ((createSwapchain s images usage).on t).value = .error v →
    ((createSwapchain s images usage).on t).state = t
  /-- A creation that succeeds makes the swapchain own every image. -/
  entered : ((createSwapchain s images usage).on t).value = .ok () →
    ∀ i ∈ images, ((createSwapchain s images usage).on t).state.find? i =
      some (.presentable s usage)
  /-- The swapchain can be destroyed whenever nothing else has destroyed it. -/
  undone : ((createSwapchain s images usage).on t).value = .ok () →
    ∀ u, Later s ((createSwapchain s images usage).on t).state u → u.Destroys s images

/-- A swapchain that has been created presents its images. -/
theorem Enters.presents (enters : t.Enters s images
      (t.images.Entered (.presentable s usage) images) u)
    (all : t.images.AdmitsAll images) : u.Presents s images usage where
  listed := (enters.swapchains s).trans (if_pos (List.mem_singleton_self s))
  owned i hi := (enters.find? all i).trans (if_pos hi)

/-- The creation of a swapchain is all or nothing, and can be undone, exactly if the list
of its images names none twice, and not null, whenever the swapchain and the images are
new. -/
theorem createsWhole_iff (operated : t.Operated) :
    t.CreatesWhole s images usage ↔ (t.swapchains.Admits s → t.UnusedImages images →
      images.Nodup ∧ ∀ i ∈ images, i.isNull = false) := by
  have ends := t.createSwapchain_enters s images usage
  constructor
  · intro whole admits unused
    cases ha : ((createSwapchain s images usage).on t).value with
    | ok _ =>
        obtain ⟨⟨-, distinct, all⟩, -⟩ := ends.good_of_ok ha
        exact ⟨distinct, fun i hi => (all i hi).1.2⟩
    | error v =>
        have same := whole.refused v ha
        have bad := (ends.bad_of_error ha).2
        rw [same] at bad
        rcases bad with ⟨-, unready⟩ | ⟨-, enters⟩
        · exact absurd ⟨admits, unused⟩ unready
        · -- A swapchain that has been entered is live, and was not before.
          have live := (enters.swapchains s).trans (if_pos (List.mem_singleton_self s))
          cases admits.2.symm.trans live
  · intro distinct
    have presents (ha : ((createSwapchain s images usage).on t).value = .ok ()) :=
      have created := ends.good_of_ok ha
      created.2.presents created.1.2
    refine ⟨fun v hv => ?_, fun ha => (presents ha).owned, fun ha u later => ?_⟩
    · rcases (ends.bad_of_error hv).2 with ⟨same, -⟩ | ⟨⟨admits, unused⟩, enters⟩
      · exact same
      · obtain ⟨once, named⟩ := distinct admits unused
        refine absurd ⟨once, fun i hi => ?_⟩ enters.images.not_admitsAll
        exact ⟨⟨(unused i hi).1, named i hi⟩, (unused i hi).2⟩
    · have edit := ((t.createSwapchain_ends s images usage).good_of_ok ha).edit
      obtain ⟨chained, h⟩ := later.presents (operated.chained.edit edit) (presents ha)
      exact h.destroys chained (ends.good_of_ok ha).1.2.1

/-- The resources with one swapchain that owns one image. -/
def oneSwapchain : ResourceTracker :=
  ((ResourceOperation.createSwapchain ⟨1, .swapchain⟩ [⟨2, .image⟩] .empty).run.on
    .empty).state.resources

/-- A second swapchain with two images that are new. -/
theorem createsWhole_beside_oneSwapchain :
    ((createSwapchain ⟨3, .swapchain⟩ [⟨4, .image⟩, ⟨5, .image⟩] .empty).on oneSwapchain).value =
        .ok () ∧
      oneSwapchain.CreatesWhole ⟨3, .swapchain⟩ [⟨4, .image⟩, ⟨5, .image⟩] .empty :=
  ⟨by decide +kernel,
    (createsWhole_iff (Operated.step .start _)).mpr fun _ _ => ⟨by decide, by decide⟩⟩

/-- A list that names an image twice is refused, but the swapchain and the image are live
afterwards, and to destroy the swapchain raises an internal error. -/
theorem createsPart_of_repeatedImage :
    Operated empty ∧
      ¬empty.CreatesWhole ⟨1, .swapchain⟩ [⟨2, .image⟩, ⟨2, .image⟩] .empty ∧
      ¬Mild ((destroySwapchain ⟨1, .swapchain⟩).on ((createSwapchain ⟨1, .swapchain⟩
        [⟨2, .image⟩, ⟨2, .image⟩] .empty).on empty).state).value := by
  refine ⟨.start, fun whole => ?_, by decide +kernel⟩
  have stopped : ((createSwapchain ⟨1, .swapchain⟩ [⟨2, .image⟩, ⟨2, .image⟩] .empty).on
      empty).value = .error (.alreadyRegistered ⟨2, .image⟩) := by decide +kernel
  have same := whole.refused _ stopped
  have changed : ((createSwapchain ⟨1, .swapchain⟩ [⟨2, .image⟩, ⟨2, .image⟩] .empty).on
      empty).state ≠ empty := by decide +kernel
  exact changed same

end ResourceTracker

end GpuAudit
