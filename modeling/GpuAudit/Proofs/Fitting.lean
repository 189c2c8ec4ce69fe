import GpuAudit.Proofs.Crowding
import GpuAudit.Proofs.Freeing

/-!
# Bindings fit as long as they last

A binding is checked once, when it is made, and has to be right as long as it lasts.  An
allocation to which a resource is bound has a link, so it is not struck out, and its size
and its properties never change.  So every binding `Fits` (`Bounded`), in every session of
every run in which links are counted or internal errors halt.  Where neither holds, a sparse
resource may lose its link and keep its binding.

`Lasts` says what may become of the record of a resource.  Only a call that names the
resource releases its binding, unless the resource is sparse, and an image of a swapchain
stays until a call destroys the swapchain.
-/

namespace GpuAudit

/-! ## Resources -/

namespace ResourceTracker

variable {t u : ResourceTracker} {r : Handle} {x : Resource}

/-- What is bound to memory stays when resources are entered and struck out. -/
theorem Edit.bound_stays (h : Edit t u) {memory : Handle} {offset : UInt64}
    (bound : x.binding = .memory memory offset) :
    u.find? r = some x ↔ t.find? r = some x := by
  cases h with
  | @made s y new named unbound view _ =>
      rw [view]
      split
      next here =>
        rw [here, new]
        constructor
        · intro hy
          cases hy
          simp [unbound] at bound
        · exact fun hx => nomatch hx
      next => exact Iff.rfl
  | removed old unbound view _ =>
      rw [view]
      split
      next here =>
        rw [here, old]
        constructor
        · exact fun hx => nomatch hx
        · intro hy
          cases hy
          simp [unbound] at bound
      next => exact Iff.rfl
  | chained _ _ new view _ =>
      rw [view]
      split
      next owned =>
        rw [(new r owned).1]
        constructor
        · intro hy
          cases hy
          simp [Resource.presentable] at bound
        · exact fun hx => nomatch hx
      next => exact Iff.rfl
  | unchained owned view _ =>
      rw [view]
      split
      next listed =>
        obtain ⟨y, hy, hs⟩ := owned r listed
        rw [hy]
        constructor
        · exact fun hx => nomatch hx
        · intro hx
          cases hx
          simp [hs] at bound
      next => exact Iff.rfl

/-- An image of a swapchain stays until the swapchain is struck out. -/
theorem Unchains.presented {s k : Handle} (h : Unchains k t u) (hx : t.find? r = some x)
    (owned : x.binding = .swapchain s) : u.find? r = some x ∨ k = s ∧ u.find? r = none := by
  obtain ⟨own, theirs, view⟩ := h.images
  rw [view]
  split
  next listed =>
    obtain ⟨y, hy, bound⟩ := theirs r listed
    cases hx.symm.trans hy
    cases owned.symm.trans bound
    exact .inr ⟨rfl, rfl⟩
  next => exact .inl hx

end ResourceTracker

namespace Trackers

variable {t u : Trackers} {call : Call}

/-! ## Bindings fit -/

/-- What resources are bound to fits them. -/
def Bounded (t : Trackers) : Prop := ∀ r x, t.resources.find? r = some x → x.Fits t.memory

theorem bounded_empty : empty.Bounded := fun r x hx => by
  simp [empty, ResourceTracker.find?, ResourceTracker.empty] at hx

theorem Bounded.keeps {gone : Handle → Prop} (h : t.Bounded) (keeps : Keeps gone t u) :
    u.Bounded := fun r x hx => (h r x (keeps.resources ▸ hx)).of_sameInfo keeps.memory

theorem Bounded.rebinds {named : Handle → Prop} (h : t.Bounded) (rebinds : Rebinds named t u) :
    u.Bounded := by
  intro r x hx
  rcases rebinds.fits r x hx with old | fits
  · exact (h r x old).of_sameInfo rebinds.memory
  · exact fits

theorem Bounded.edit {resources : ResourceTracker} (h : t.Bounded)
    (edit : t.resources.Edit resources) : ({ t with resources } : Trackers).Bounded :=
  fun r x hx memory offset bound => h r x ((edit.bound_stays bound).mp hx) memory offset bound

/-- Allocations to which nothing is bound may come and go. -/
theorem Bounded.allocations {allocations : MemoryTracker} (h : t.Bounded)
    (stays : ∀ r memory, t.resources.BoundTo r memory →
      ∀ m, t.memory.objects.find? memory = some m → allocations.objects.find? memory = some m) :
    ({ t with memory := allocations } : Trackers).Bounded := by
  intro r x hx memory offset bound
  obtain ⟨used, m, hm, fits⟩ := h r x hx memory offset bound
  exact ⟨used, m, stays r memory (boundTo_of_binding hx bound) m hm, fits⟩

/-- An allocation without links is one to which nothing is bound. -/
theorem Effect.bounded (effect : Effect call t u) (linked : t.Linked) (h : t.Bounded) :
    u.Bounded := by
  cases effect with
  | kept keeps => exact h.keeps keeps
  | rebound rebinds => exact h.rebinds rebinds
  | unchained _ unchains => exact h.edit unchains.edit
  | @freed memory m allocations frees old unlinked view =>
      refine h.allocations fun r other bound m' hm' => ?_
      rw [view, if_neg fun here => ?_, hm']
      obtain ⟨k, hk, listed⟩ := linked.live (here ▸ bound)
      rw [old] at hk
      cases hk
      have := MemoryObject.links_pos_of_bound listed
      omega

theorem Entry.bounded (entry : Entry call t u) (h : t.Bounded) : u.Bounded := by
  cases entry with
  | resources adds => exact h.edit adds.edit
  | entered enters =>
      intro r x hx
      have fits : x.Fits t.memory := h r x (enters.resources ▸ hx)
      intro memory offset bound
      obtain ⟨used, m, hm, rest⟩ := fits memory offset bound
      refine ⟨used, m, ?_, rest⟩
      rcases enters.memory memory with same | ⟨new, -⟩
      · rw [same, hm]
      · rw [new] at hm
        cases hm

/-! ## Swapchains own their images -/

theorem Effect.chained (effect : Effect call t u) (h : t.resources.Chained) :
    u.resources.Chained := by
  cases effect with
  | kept keeps => exact keeps.resources ▸ h
  | rebound rebinds => exact rebinds.chained h
  | unchained _ unchains => exact h.edit unchains.edit
  | freed => exact h

theorem Entry.chained (entry : Entry call t u) (h : t.resources.Chained) :
    u.resources.Chained := by
  cases entry with
  | entered enters => exact enters.resources ▸ h
  | resources adds => exact h.edit adds.edit

/-! ## Bindings last -/

/-- What may become of the record of a resource that is bound: an image of a swapchain stays
until the swapchain is destroyed, and a resource that is not sparse keeps its binding unless
it is named, and is then released or gone. -/
structure Lasts (named : Prop) (unchained : Handle → Prop) (x : Resource)
    (after : Option Resource) : Prop where
  /-- An image of a swapchain is never bound to other memory, and goes with the swapchain. -/
  presented : ∀ s, x.binding = .swapchain s → after = some x ∨ unchained s ∧ after = none
  /-- A resource that is not sparse keeps its binding, unless it is named. -/
  bound : ∀ memory offset, x.binding = .memory memory offset → x.info.isSparse = false →
    after = some x ∨
      named ∧ (after = none ∨ after = some { x with binding := .unbound })

variable {named : Prop} {unchained : Handle → Prop} {x : Resource} {after : Option Resource}

theorem lasts_refl (x : Resource) : Lasts named unchained x (some x) :=
  ⟨fun _ _ => .inl rfl, fun _ _ _ _ => .inl rfl⟩

theorem Lasts.mono {named' : Prop} {unchained' : Handle → Prop} (h : Lasts named unchained x after)
    (names : named → named') (unchains : ∀ s, unchained s → unchained' s) :
    Lasts named' unchained' x after :=
  ⟨fun s owned => (h.presented s owned).imp_right fun ⟨hs, gone⟩ => ⟨unchains s hs, gone⟩,
    fun memory offset bound dense =>
      (h.bound memory offset bound dense).imp_right fun ⟨hn, left⟩ => ⟨names hn, left⟩⟩

theorem lasts_of_rebinds {names : Handle → Prop} (rebinds : Rebinds names t u) {r : Handle}
    (hx : t.resources.find? r = some x) (other : ¬names r) :
    Lasts named unchained x (u.resources.find? r) where
  presented s owned := .inl (rebinds.kept r x hx (.inl ⟨s, owned⟩) other)
  bound memory offset bound dense :=
    .inl (rebinds.kept r x hx (.inr ⟨dense, memory, offset, bound⟩) other)

theorem Effect.lasts (effect : Effect call t u) {r : Handle} (hx : t.resources.find? r = some x)
    (other : ¬call.Releases r) : Lasts named call.Unchains x (u.resources.find? r) := by
  cases effect with
  | kept keeps => rw [keeps.resources, hx]; exact lasts_refl x
  | rebound rebinds => exact lasts_of_rebinds rebinds hx other
  | @unchained k _ names unchains =>
      refine ⟨fun s owned => ?_, fun _ _ bound _ => .inl ((unchains.edit.bound_stays bound).mpr hx)⟩
      exact (unchains.presented hx owned).imp_right fun ⟨here, gone⟩ => ⟨here ▸ names, gone⟩
  | freed => exact hx ▸ lasts_refl x

theorem Entry.lasts (entry : Entry call t u) {r : Handle} (hx : t.resources.find? r = some x) :
    Lasts named unchained x (u.resources.find? r) := by
  cases entry with
  | entered enters => rw [enters.resources, hx]; exact lasts_refl x
  | resources adds => rw [adds.stays r x hx]; exact lasts_refl x

/-- A call that names a resource to destroy it. -/
theorem lasts_of_destroyResource {r : Handle} (hx : t.resources.find? r = some x) :
    (destroyResource r).Ends t (fun _ u => Lasts True unchained x (u.resources.find? r))
      fun _ u => Lasts True unchained x (u.resources.find? r) := by
  refine (destroyResource_views t r).mono (fun _ u hu => ?_) fun _ u hu => ?_
  · exact ⟨fun s owned => absurd owned (hu.1 x s hx), fun _ _ _ _ => .inr ⟨trivial, .inl hu.2⟩⟩
  · rw [hu, hx]
    exact lasts_refl x

/-- A call that names a resource releases its binding or destroys it, or leaves it. -/
theorem lasts_of_releases (owners : Owners) (device : Handle) {r : Handle}
    (hx : t.resources.find? r = some x) (names : call.Releases r) :
    (validate owners device call).Ends t (fun _ u => Lasts True unchained x (u.resources.find? r))
      fun _ u => Lasts True unchained x (u.resources.find? r) := by
  have destroys : ∀ kind : ObjectKind, (validate.nothing do
      Track.ofExcept (expectKind r kind)
      destroyResource r).Ends t (fun _ u => Lasts True unchained x (u.resources.find? r))
        fun _ u => Lasts True unchained x (u.resources.find? r) := fun kind => by
    rw [ends_nothing, Track.ends_bind, Track.ends_ofExcept]
    exact ⟨fun _ _ => lasts_of_destroyResource hx, fun _ _ => hx ▸ lasts_refl x⟩
  cases call with
  | unbindMemory _ resource =>
      cases (names : resource = r)
      refine ends_nothing.mpr ((unbind_views t r).mono (fun _ u hu => ?_) fun _ u hu => ?_)
      · obtain ⟨y, memory, offset, hy, bound, after⟩ := hu
        rw [hx] at hy
        cases hy
        rw [after]
        exact ⟨fun s owned => by simp [bound] at owned, fun _ _ _ _ => .inr ⟨trivial, .inr rfl⟩⟩
      · rw [hu, hx]
        exact lasts_refl x
  | destroyBuffer _ buffer =>
      cases (names : buffer = r)
      exact destroys .buffer
  | destroyImage _ image =>
      cases (names : image = r)
      exact destroys .image
  | _ => exact names.elim

/-- What may become of a resource when a call is validated. -/
theorem validate_lasts (chained : t.resources.Chained) (owners : Owners) (device : Handle)
    (call : Call) {r : Handle} (hx : t.resources.find? r = some x) :
    Lasts (call.Releases r) call.Unchains x
      (((validate owners device call).on t).state.resources.find? r) := by
  by_cases names : call.Releases r
  · exact (lasts_of_releases owners device hx names).state.mono (fun _ => names) fun _ => id
  · exact (validate_effect chained owners device call).state.lasts hx names

end Trackers

/-! ## Runs -/

/-- A hook that names a resource of a device to release its binding or to destroy it. -/
def Hook.Releases (hook : Hook) (device r : Handle) : Prop :=
  ∃ call, hook = .pre call ∧ call.scope = .device device ∧ call.Releases r

/-- A hook that names a swapchain of a device to destroy it with its images. -/
def Hook.Unchains (hook : Hook) (device s : Handle) : Prop :=
  ∃ call, hook = .pre call ∧ call.scope = .device device ∧ call.Unchains s

namespace Layer

open Trackers (Bounded Lasts lasts_refl)

variable {l : Layer} {config : Config} {device : Handle} {session : Session}
  {allowed : Layer → Hook → Prop} {call : Call}

theorem chained_invariant :
    SessionInvariant (fun _ _ t => t.resources.Chained) fun _ _ _ _ => True where
  lose _ _ _ _ _ chained := chained
  retire _ _ t r chained := (t.keeps_retired r).resources ▸ chained
  empty _ _ _ := ResourceTracker.chained_empty
  validate owners d _ call chained _ _ :=
    (Trackers.validate_effect chained owners d call).state.chained chained
  record _ d t call chained := (Trackers.recordCreation_entry t d call).state.chained chained

/-- Swapchains own their images in every session. -/
theorem chained_of_reached (h : Reached allowed config l) :
    l.Holds fun _ _ t => t.resources.Chained :=
  holds_of_reached chained_invariant (fun _ _ _ _ _ _ _ _ => trivial) h

/-! ### Bindings fit -/

/-- The books agree unless the session is halted, swapchains own their images, and what
resources are bound to fits. -/
structure FittingBooks (owners : Owners) (device : Handle) (session : Session) : Prop where
  /-- The books agree. -/
  running : RunningBooks owners device session
  /-- Swapchains own their images. -/
  chained : session.trackers.resources.Chained
  /-- Bindings fit. -/
  bounded : session.trackers.Bounded

theorem fittingBooks_law (choices : ValidationConfig) :
    SessionLaw choices FittingBooks (Shelters choices) where
  lose owners owners' d session fewer h :=
    ⟨(runningBooks_law choices).lose owners owners' d session fewer h.running, h.chained,
      h.bounded⟩
  retire owners d session r running h :=
    ⟨(runningBooks_law choices).retire owners d session r running h.running,
      chained_invariant.retire owners d session.trackers r h.chained,
      h.bounded.keeps (Trackers.keeps_retired _ r)⟩
  empty owners d none :=
    ⟨(runningBooks_law choices).empty owners d none, ResourceTracker.chained_empty,
      Trackers.bounded_empty⟩
  validate owners d session call running h may scope :=
    ⟨(runningBooks_law choices).validate owners d session call running h.running may scope,
      chained_invariant.validate owners d session.trackers call h.chained trivial scope,
      (Trackers.validate_effect h.chained owners d call).state.bounded
        (h.running running).sound.linked h.bounded⟩
  record owners d session call running h :=
    ⟨(runningBooks_law choices).record owners d session call running h.running,
      chained_invariant.record owners d session.trackers call h.chained,
      (Trackers.recordCreation_entry session.trackers d call).state.bounded h.bounded⟩

/-! ### Bindings last -/

/-- The records of a session's resources last, unless a hook names them. -/
def Outlasts (hook : Hook) (device : Handle) (session after : Session) : Prop :=
  ∀ r x, session.trackers.resources.find? r = some x →
    Lasts (hook.Releases device r) (hook.Unchains device) x (after.trackers.resources.find? r)

theorem outlasts_of_eq {hook : Hook} {session after : Session}
    (same : after.trackers.resources = session.trackers.resources) :
    Outlasts hook device session after := fun _ x hx => by
  rw [same, hx]
  exact lasts_refl x

/-- Retirement leaves the resources. -/
theorem resources_afterRetirement (r : Retirement) (hs : l.sessions[device]? = some session) :
    ∃ after, (l.afterRetirement r).sessions[device]? = some after ∧
      after.trackers.resources = session.trackers.resources := by
  rcases l.afterRetirement_cases r with same | ⟨d, own, found, -, ran⟩
  · rw [same]
    exact ⟨session, hs, rfl⟩
  · rw [ran, getElem?_ran]
    split
    next here =>
      have hd := (owningSession_eq_ok_iff.mp found).2
      rw [← here, hs] at hd
      cases hd
      exact ⟨_, rfl, (session.trackers.keeps_retired r).resources⟩
    next => exact ⟨session, hs, rfl⟩

theorem resources_afterRetirements (rs : List Retirement)
    (hs : l.sessions[device]? = some session) :
    ∃ after, (rs.foldl afterRetirement l).sessions[device]? = some after ∧
      after.trackers.resources = session.trackers.resources := by
  induction rs generalizing l session with
  | nil => exact ⟨session, hs, rfl⟩
  | cons r rs ih =>
      obtain ⟨mid, hm, first⟩ := resources_afterRetirement r hs
      obtain ⟨after, ha, rest⟩ := ih hm
      exact ⟨after, ha, rest.trans first⟩

theorem resources_drained (hs : l.sessions[device]? = some session) :
    ∃ after, l.drained.sessions[device]? = some after ∧
      after.trackers.resources = session.trackers.resources :=
  resources_afterRetirements l.pending hs

/-- A call on a device is about the session of that device. -/
theorem scope_of_found {d h : Handle} {own : Session} (scope : call.scope = .device h)
    (found : l.sessionFor call = .ok (d, own)) : call.scope = .device d := by
  unfold sessionFor at found
  rw [scope] at found
  rw [scope, (deviceSession_eq_ok_iff.mp found).1]

theorem scope_of_releases {d r : Handle} {own : Session} (names : call.Releases r)
    (found : l.sessionFor call = .ok (d, own)) : call.scope = .device d := by
  cases call with
  | unbindMemory | destroyBuffer | destroyImage => exact scope_of_found rfl found
  | _ => exact names.elim

theorem scope_of_unchains {d s : Handle} {own : Session} (names : call.Unchains s)
    (found : l.sessionFor call = .ok (d, own)) : call.scope = .device d := by
  cases call with
  | destroySwapchain => exact scope_of_found rfl found
  | _ => exact names.elim

theorem afterValidation_outlasts (h : l.Holds fun _ _ t => t.resources.Chained) (call : Call)
    (hs : l.sessions[device]? = some session) :
    ∃ after, (l.afterValidation call).sessions[device]? = some after ∧
      Outlasts (.pre call) device session after := by
  rcases l.afterValidation_cases call with same | ⟨d, own, found, -, ran⟩
  · rw [same]
    exact ⟨session, hs, outlasts_of_eq rfl⟩
  · rw [ran, getElem?_ran]
    split
    next here =>
      subst here
      have hd := (session_of_call found).1
      rw [hs] at hd
      cases hd
      refine ⟨_, rfl, fun r x hx => ?_⟩
      have lasts := Trackers.validate_lasts (h.books device session hs) l.owners device call hx
      exact lasts.mono (fun names => ⟨call, rfl, scope_of_releases names found, names⟩)
        fun s names => ⟨call, rfl, scope_of_unchains names found, names⟩
    next => exact ⟨session, hs, outlasts_of_eq rfl⟩

theorem afterRecord_outlasts {hook : Hook} (hs : l.sessions[device]? = some session) :
    ∃ after, (l.afterRecord call).sessions[device]? = some after ∧
      Outlasts hook device session after := by
  rcases l.afterRecord_cases call with same | ⟨d, own, found, -, ran⟩
  · rw [same]
    exact ⟨session, hs, outlasts_of_eq rfl⟩
  · rw [ran]
    have entered : ∃ after, (l.ran (gainedBy l.owners d
        ((Trackers.recordCreation d call).on own.trackers).value) d own
        ((Trackers.recordCreation d call).on own.trackers)).sessions[device]? = some after ∧
        Outlasts hook device session after := by
      rw [getElem?_ran]
      split
      next here =>
        have hd := (session_of_call found).1
        rw [← here, hs] at hd
        cases hd
        exact ⟨_, rfl, fun r x hx =>
          (Trackers.recordCreation_entry session.trackers d call).state.lasts hx⟩
      next => exact ⟨session, hs, outlasts_of_eq rfl⟩
    obtain ⟨mid, hm, outlasts⟩ := entered
    obtain ⟨after, ha, same⟩ := resources_drained (l := { l.ran _ d own _ with
      pending := l.pending ++ own.trackers.impliedRetirements call }) hm
    exact ⟨after, ha, fun r x hx => same ▸ outlasts r x hx⟩

/-- What a hook does to the resources of a device. -/
theorem step_outlasts (h : Reached allowed config l) (hook : Hook)
    (hs : l.sessions[device]? = some session) :
    hook = .pre (.destroyDevice device) ∧ (l.step hook).sessions[device]? = none ∨
      ∃ after, (l.step hook).sessions[device]? = some after ∧
        Outlasts hook device session after := by
  have chained := chained_of_reached h
  have drained : ∀ hook : Hook, ∃ after, l.drained.sessions[device]? = some after ∧
      Outlasts hook device session after := fun hook => by
    obtain ⟨after, ha, same⟩ := resources_drained hs
    exact ⟨after, ha, outlasts_of_eq same⟩
  rw [step_eq]
  cases hook with
  | report completion => exact .inr ⟨session, hs, outlasts_of_eq rfl⟩
  | process => exact .inr (drained _)
  | fenceStatus d fence => exact .inr (drained _)
  | retire r =>
      obtain ⟨after, ha, same⟩ := resources_afterRetirement r hs
      exact .inr ⟨after, ha, outlasts_of_eq same⟩
  | post call result =>
      refine .inr ?_
      show ∃ after, (l.afterAnswer call result).sessions[device]? = some after ∧ _
      unfold afterAnswer
      split
      · exact ⟨session, getElem?_afterCreate hs, outlasts_of_eq rfl⟩
      · exact ⟨session, hs, outlasts_of_eq rfl⟩
      · exact afterRecord_outlasts hs
      · exact ⟨session, hs, outlasts_of_eq rfl⟩
  | pre call =>
      obtain ⟨mid, hm, same⟩ := resources_drained hs
      have validated : ∃ after, (l.drained.afterValidation call).sessions[device]? = some after ∧
          Outlasts (.pre call) device session after := by
        obtain ⟨after, ha, outlasts⟩ := afterValidation_outlasts
          (chained.drained chained_invariant.toRetirementInvariant) call hm
        exact ⟨after, ha, fun r x hx => outlasts r x (same ▸ hx)⟩
      cases call with
      | createDevice d => exact .inr ⟨mid, hm, outlasts_of_eq same⟩
      | destroyDevice d =>
          have view := l.drained.getElem?_afterDestroy d device
          by_cases here : device = d
          · exact .inl ⟨here ▸ rfl, view.trans (if_pos here)⟩
          · exact .inr ⟨mid, (view.trans (if_neg here)).trans hm, outlasts_of_eq same⟩
      | _ => exact .inr validated

/-! ### Both -/

/-- The sparse buffer is bound to the full allocation, in vain. -/
def overfull : List Event :=
  beforeCrowd ++ (crowdEvents ++
    [.call (.bindBufferMemory ⟨1, .device⟩ ⟨4, .buffer⟩ ⟨3, .deviceMemory⟩ 0) .success])

/-- The allocation that the sparse buffer is bound to has lost the link to it. -/
theorem pass_overfull : ∃ u x, u.resources.find? ⟨4, .buffer⟩ = some x ∧
    x.binding = .memory ⟨2, .deviceMemory⟩ 0 ∧
    u.memory.objects.find? ⟨2, .deviceMemory⟩ =
      some ((unlinked.attach ⟨4, .buffer⟩).detach ⟨4, .buffer⟩) ∧
    (start unhalting).pass overfull = alone unhalting ownersBefore ⟨1, .device⟩ u := by
  obtain ⟨t, shift, crowding⟩ := crowdEvents_lead
  have owner : ownersBefore[(⟨3, .deviceMemory⟩ : Handle)]? = some ⟨1, .device⟩ := by
    decide +kernel
  have linked : booksBefore.memory.objects.find? ⟨2, .deviceMemory⟩ =
      some (unlinked.attach ⟨4, .buffer⟩) := by decide +kernel
  have sparse : booksBefore.resources.find? ⟨4, .buffer⟩ =
      some ⟨.buffer { crowdInfo with sparse := true }, .memory ⟨2, .deviceMemory⟩ 0⟩ := by
    decide +kernel
  have apart : (⟨4, .buffer⟩ : Handle) ∉ crowd := not_mem_crowd (by decide)
  have hx := (shift.resources _).trans ((if_neg apart).trans sparse)
  have ho := (shift.allocations ⟨2, .deviceMemory⟩ (by decide)).trans linked
  have hm : t.memory.objects.find? ⟨3, .deviceMemory⟩ = some crowded :=
    shift.allocation _ hasRoom_before.live
  have passes : t.resources.checkBind t.memory ⟨4, .buffer⟩ ⟨3, .deviceMemory⟩ 0 .buffer =
      .ok (some ⟨2, .deviceMemory⟩) := by
    refine Trackers.checkBind_eq_ok_iff.mpr ⟨rfl, _, _, hx, hm,
      Trackers.replaced_eq_ok_iff.mpr (.inr ⟨_, _, rfl, rfl, rfl⟩), ?_⟩
    rw [info_crowded]
    exact ⟨Trackers.checkBindUsage_eq_ok_iff.mpr
      ⟨by decide, fun lazily => absurd lazily (by decide)⟩, by decide⟩
  have new : (⟨4, .buffer⟩ : Handle) ∉ crowded.bindings := fun listed =>
    apart (mem_bindings_crowded.mp listed)
  obtain ⟨u, ⟨same, left⟩, last⟩ := unlinked_alone lenient_unhalting rfl owner passes ho
    (Handle.mem_insert.mpr (.inl rfl)) (by decide) (by decide) hm new
    (Nat.le_of_eq refCount_crowded.symm)
  refine ⟨u, _, same ▸ hx, rfl, left, ?_⟩
  unfold overfull
  rw [pass_append, alone_before, (crowding.append last).pass]

/-- A swapchain owns an image. -/
def presenting : List Hook :=
  [.post (.createDevice ⟨1, .device⟩) .success,
   .post (.createSwapchain ⟨1, .device⟩ ⟨2, .swapchain⟩ [⟨3, .image⟩] .empty) .success]

end Layer

end GpuAudit
