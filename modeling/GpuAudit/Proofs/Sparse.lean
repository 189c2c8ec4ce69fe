import GpuAudit.Proofs.Consistency

/-!
# Sparse bindings one at a time

`oneByOne` applies sparse bindings as lists of one.  Each is checked on the books that
those before it have left, and what has been applied stays when one is refused.  A list as
a whole is checked on the books before it, and applied afterwards.

The two agree: a list is applied exactly if its bindings can be applied one by one, and
leaves the same.  If they cannot, it is refused as the first that fails is refused there,
and nothing is applied.  The case that the links of an allocation can no longer be counted
is left out.
-/

namespace GpuAudit

/-- An operation on a list of one is the operation. -/
theorem Track.on_forM_singleton {σ β : Type} (f : β → Track σ PUnit) (b : β) (s : σ) :
    ([b].forM f).on s = (f b).on s := by
  cases h : (f b).on s with
  | mk value t notes =>
      cases value with
      | error v => exact on_bind_of_error h _
      | ok a =>
          refine (on_bind_of_ok h _).trans ?_
          show (⟨.ok ⟨⟩, t, notes ++ []⟩ : Outcome σ (Except Violation PUnit)) = _
          rw [List.append_nil]

namespace Trackers

variable {t : Trackers} {bs : List SparseBind}

/-- Applies sparse bindings one after another, up to the first that is refused. -/
def oneByOne (bs : List SparseBind) : Track Trackers Unit := bs.forM fun b => bindSparse [b]

theorem bindSparse_of_refused {v : Violation} (h : t.checkSparse ∅ bs = .error v) :
    (bindSparse bs).on t = ⟨.error v, t, []⟩ := by
  unfold bindSparse
  exact Track.on_bind_of_error (by rw [Track.on_query, h]) _

theorem bindSparse_of_passed (h : t.checkSparse ∅ bs = .ok ()) :
    (bindSparse bs).on t = (bs.forM applySparse).on t := by
  unfold bindSparse
  rw [Track.on_bind_of_ok (by rw [Track.on_query, h]), List.nil_append]

/-- What remains of a list fares one by one, after a part of it, as the check of the list
says. -/
theorem oneByOne_of_check (h : t.Sound) {bound : Std.ExtTreeMap Handle Bool} {u : Trackers}
    (edits : Edits [] t u) (foresees : Foresees t bound u)
    (few : ((oneByOne bs).on u).state.memory.Counted) :
    (t.checkSparse bound bs = .ok () → (oneByOne bs).on u = (bs.forM applySparse).on u) ∧
      ∀ v, t.checkSparse bound bs = .error v → ((oneByOne bs).on u).value = .error v := by
  induction bs generalizing bound u with
  | nil =>
      constructor
      · intro _
        rfl
      · intro v hv
        cases hv
  | cons b bs ih =>
      rw [checkSparse_cons, ← foresees.checkSparse h.chained]
      cases hc : u.checkSparse ∅ [b] with
      | error v =>
          have stopped : (oneByOne (b :: bs)).on u = ⟨.error v, u, []⟩ :=
            Track.on_bind_of_error (bindSparse_of_refused hc) _
          constructor
          · intro passed
            cases passed
          · intro w refused
            cases refused
            rw [stopped]
      | ok _ =>
          have first : (bindSparse [b]).on u = (applySparse b).on u :=
            (bindSparse_of_passed hc).trans (Track.on_forM_singleton applySparse b u)
          have ends := applySparse_of_check [] (h.edits edits) hc
          cases hx : (applySparse b).on u with
          | mk value v notes =>
              cases value with
              | error w =>
                  -- links can no longer be counted, which is left out
                  have stopped : (oneByOne (b :: bs)).on u = ⟨.error w, v, notes⟩ :=
                    Track.on_bind_of_error (first.trans hx) _
                  have uncounted := ends.bad_of_error (v := w) (by rw [hx])
                  rw [hx] at uncounted
                  rw [stopped] at few
                  exact absurd few uncounted.2
              | ok a =>
                  have step := ends.good_of_ok (a := a) (by rw [hx])
                  rw [hx] at step
                  obtain ⟨edit, same, hv⟩ := step
                  have one := Track.on_bind_of_ok (first.trans hx) fun _ => oneByOne bs
                  have whole := Track.on_bind_of_ok hx fun _ => bs.forM applySparse
                  have few : ((oneByOne bs).on v).state.memory.Counted := by
                    have state := congrArg Outcome.state one
                    exact state ▸ few
                  obtain ⟨passes, refuses⟩ :=
                    ih (edits.trans edit) (foresees.applied b same hv) few
                  constructor
                  · intro passed
                    refine one.trans (Eq.trans ?_ whole.symm)
                    rw [passes passed]
                  · intro w refused
                    exact (congrArg Outcome.value one).trans (refuses w refused)

end Trackers

namespace Layer

open Trackers (oneByOne bindSparse)

variable {l : Layer} {config : Config} {device : Handle} {session : Session}

/-- A list of sparse bindings is applied exactly if its bindings can be applied one by one,
and leaves the same; else it is refused as the first that fails is, and leaves the books as
they were. -/
theorem bindSparse_refines_oneByOne (h : Reached Tame config l)
    (hs : l.sessions[device]? = some session) (bs : List SparseBind)
    (few : ((oneByOne bs).on session.trackers).state.memory.Counted) :
    ((bindSparse bs).Answers session.trackers ↔ (oneByOne bs).Answers session.trackers) ∧
    ((oneByOne bs).Answers session.trackers →
      ((bindSparse bs).on session.trackers).state = ((oneByOne bs).on session.trackers).state) ∧
    ∀ v, ((oneByOne bs).on session.trackers).value = .error v →
      ((bindSparse bs).on session.trackers).value = .error v ∧
        ((bindSparse bs).on session.trackers).state = session.trackers := by
  have sound := ((books_of_reached h).books device session hs).sound
  obtain ⟨passes, refuses⟩ := Trackers.oneByOne_of_check sound .refl
    (Trackers.foresees_refl session.trackers) few
  cases hc : session.trackers.checkSparse ∅ bs with
  | error v =>
      have stops := refuses v hc
      have refused := Trackers.bindSparse_of_refused hc
      have unanswered : ¬(oneByOne bs).Answers session.trackers := by
        rintro ⟨a, ha⟩
        rw [stops] at ha
        cases ha
      refine ⟨⟨?_, fun answers => absurd answers unanswered⟩,
        fun answers => absurd answers unanswered, fun w hw => ?_⟩
      · rintro ⟨a, ha⟩
        rw [refused] at ha
        cases ha
      · rw [stops] at hw
        cases hw
        rw [refused]
        exact ⟨rfl, rfl⟩
  | ok _ =>
      have same := (Trackers.bindSparse_of_passed hc).trans (passes hc).symm
      refine ⟨by unfold Track.Answers; rw [same], fun _ => by rw [same], fun v hv => ?_⟩
      have ends := Trackers.applySparse_ends [] sound .refl (Trackers.foresees_refl _) hc
      rw [passes hc] at hv few
      exact absurd few (ends.bad_of_error hv).2

/-- A device has a queue, two allocations and a sparse buffer. -/
def sparseBuffer : List Hook :=
  [.post (.createDevice ⟨1, .device⟩) .success,
   .post (.getDeviceQueue ⟨1, .device⟩ ⟨2, .queue⟩) .success,
   .post (.allocateMemory ⟨1, .device⟩ ⟨3, .deviceMemory⟩ { size := 4096 }) .success,
   .post (.allocateMemory ⟨1, .device⟩ ⟨4, .deviceMemory⟩ { size := 4096 }) .success,
   .post (.createBuffer ⟨1, .device⟩ ⟨5, .buffer⟩ ⟨256, .transferDst, true⟩) .success]

/-- The buffer is bound, moved to the other allocation and released twice. -/
def releasedTwice : List SparseBind :=
  [⟨⟨5, .buffer⟩, some ⟨3, .deviceMemory⟩, 0⟩, ⟨⟨5, .buffer⟩, some ⟨4, .deviceMemory⟩, 256⟩,
   ⟨⟨5, .buffer⟩, none, 0⟩, ⟨⟨5, .buffer⟩, none, 0⟩]

/-- One by one the second release fails; as a list nothing is applied. -/
theorem bindSparse_of_releasedTwice :
    ∃ session ∈ ((start {}).run sparseBuffer).sessions[(⟨1, .device⟩ : Handle)]?,
      ((bindSparse releasedTwice).on session.trackers).value =
        .error (.clearEmptyBindings ⟨5, .buffer⟩ none) ∧
      ((bindSparse releasedTwice).on session.trackers).state = session.trackers := by
  have reached : Reached Tame {} ((start {}).run sparseBuffer) :=
    Reached.start.run (by decide +kernel)
  have fails : ∃ session ∈ ((start {}).run sparseBuffer).sessions[(⟨1, .device⟩ : Handle)]?,
      ((oneByOne releasedTwice).on session.trackers).state.memory.Counted ∧
      ((oneByOne releasedTwice).on session.trackers).value =
        .error (.clearEmptyBindings ⟨5, .buffer⟩ none) := by decide +kernel
  obtain ⟨session, hs, few, stops⟩ := fails
  obtain ⟨-, -, refused⟩ := bindSparse_refines_oneByOne reached hs releasedTwice few
  exact ⟨session, hs, refused _ stops⟩

end Layer

end GpuAudit
