import Mathlib.Data.List.Nodup
import GpuAudit.Queue
import GpuAudit.Proofs.Refusals
import GpuAudit.Proofs.Listings

/-!
# Queues keep their work in order

`Kept` says that the batches in flight are those after the last retired one up to
the last submitted one, in order, and that the memory references count, for each
allocation, the batches in flight that touch it.  Both entering a batch and
retiring batches keep it so.
-/

namespace GpuAudit

/-! ## Memory references -/

namespace Queue

/-- How many batches of a list touch an allocation. -/
def uses (bs : List Batch) (memory : Handle) : Nat := bs.countP fun b => decide (memory ∈ b.memory)

/-- A count as memory references list it: a count of zero is not listed. -/
def tally (n : Nat) : Option Nat := if n = 0 then none else some n

/-- One count less. -/
def untally : Option Nat → Option Nat
  | some (n + 2) => some (n + 1)
  | _ => none

theorem getD_tally (n : Nat) : (tally n).getD 0 = n := by
  unfold tally
  split
  next h => exact h.symm
  next _ => rfl

theorem untally_tally (n : Nat) : untally (tally (n + 1)) = tally n := by
  cases n with
  | zero => rfl
  | succ n => rfl

theorem getElem?_hold (refs : Std.ExtTreeMap Handle Nat) (memory g : Handle) :
    (hold refs memory)[g]? = if g = memory then some (refs[g]?.getD 0 + 1) else refs[g]? := by
  unfold hold
  rw [Std.ExtTreeMap.getElem?_alter]
  by_cases h : g = memory
  · subst h
    simp
  · simp [h, Ne.symm h]

theorem getElem?_release (refs : Std.ExtTreeMap Handle Nat) (memory g : Handle) :
    (release refs memory)[g]? = if g = memory then untally refs[g]? else refs[g]? := by
  unfold release
  rw [Std.ExtTreeMap.getElem?_alter]
  by_cases h : g = memory
  · subst h
    rw [if_pos Std.ReflCmp.compare_self, if_pos rfl]
    unfold untally
    rfl
  · simp [h, Ne.symm h]

theorem getElem?_holdAll : ∀ (ms : List Handle) (refs : Std.ExtTreeMap Handle Nat) (g : Handle),
    ms.Nodup → (ms.foldl hold refs)[g]? = if g ∈ ms then some (refs[g]?.getD 0 + 1) else refs[g]?
  | [], refs, g, _ => by simp
  | m :: ms, refs, g, hd => by
      obtain ⟨hm, hd⟩ := List.nodup_cons.mp hd
      rw [List.foldl_cons, getElem?_holdAll ms _ g hd, getElem?_hold]
      by_cases hg : g = m
      · simp [hg, hm]
      · simp [hg]

theorem getElem?_releaseAll : ∀ (ms : List Handle) (refs : Std.ExtTreeMap Handle Nat) (g : Handle),
    ms.Nodup → (ms.foldl release refs)[g]? = if g ∈ ms then untally refs[g]? else refs[g]?
  | [], refs, g, _ => by simp
  | m :: ms, refs, g, hd => by
      obtain ⟨hm, hd⟩ := List.nodup_cons.mp hd
      rw [List.foldl_cons, getElem?_releaseAll ms _ g hd, getElem?_release]
      by_cases hg : g = m
      · simp [hg, hm]
      · simp [hg]

/-- Memory references that count a batch count it off again. -/
theorem getElem?_releaseBatches (rest : List Batch) (g : Handle) :
    ∀ (done : List Batch) (refs : Std.ExtTreeMap Handle Nat),
      refs[g]? = tally (uses (done ++ rest) g) →
      (done.foldl (fun refs b => b.memory.toList.foldl release refs) refs)[g]? =
        tally (uses rest g)
  | [], _, h => h
  | b :: done, refs, h => by
      rw [List.foldl_cons]
      refine getElem?_releaseBatches rest g done _ ?_
      rw [getElem?_releaseAll _ _ _ (Handle.nodup_toList _), h]
      unfold uses
      rw [List.cons_append, List.countP_cons]
      by_cases hg : g ∈ b.memory
      · simp only [Std.ExtTreeSet.mem_toList, hg, if_true, decide_true]
        exact untally_tally _
      · simp [hg]

/-! ## Order -/

/-- A queue has its work in order and counts what the work touches. -/
structure Kept (q : Queue) : Prop where
  /-- Nothing retires before it is submitted. -/
  inRange : q.lastRetired ≤ q.lastSubmitted
  /-- The batches in flight are the ones submitted and not retired, in order. -/
  ordered : q.inFlight.map (·.sequence) =
    List.range' (q.lastRetired + 1) (q.lastSubmitted - q.lastRetired)
  /-- Each allocation is counted with the batches in flight that touch it. -/
  counted : ∀ memory, q.memoryRefs[memory]? = tally (uses q.inFlight memory)

theorem kept_idle : idle.Kept where
  inRange := Nat.le_refl 0
  ordered := rfl
  counted _ := by simp [idle, uses, tally]

theorem Kept.sequence {q : Queue} (h : q.Kept) {b : Batch} (hb : b ∈ q.inFlight) :
    q.lastRetired < b.sequence ∧ b.sequence ≤ q.lastSubmitted := by
  have hm : b.sequence ∈ q.inFlight.map (·.sequence) := List.mem_map_of_mem hb
  rw [h.ordered, List.mem_range'_1] at hm
  have := h.inRange
  omega

/-- An allocation is referenced exactly if some batch in flight touches it. -/
theorem Kept.mem_memoryRefs {q : Queue} (h : q.Kept) {memory : Handle} :
    memory ∈ q.memoryRefs ↔ ∃ b ∈ q.inFlight, memory ∈ b.memory := by
  rw [Std.ExtTreeMap.mem_iff_isSome_getElem?, h.counted, tally]
  by_cases hz : uses q.inFlight memory = 0
  · have none := List.countP_eq_zero.mp hz
    rw [if_pos hz]
    simpa using none
  · obtain ⟨b, hb, hm⟩ := List.countP_pos_iff.mp (Nat.pos_of_ne_zero hz)
    rw [if_neg hz]
    exact ⟨fun _ => ⟨b, hb, of_decide_eq_true hm⟩, fun _ => rfl⟩

theorem Kept.push {q : Queue} (h : q.Kept) {b : Batch} (hb : b.sequence = q.lastSubmitted + 1) :
    (q.push b).Kept where
  inRange := by
    have := h.inRange
    show q.lastRetired ≤ b.sequence
    omega
  ordered := by
    have := h.inRange
    have hs : b.sequence - q.lastRetired = (q.lastSubmitted - q.lastRetired) + 1 := by omega
    show (q.inFlight ++ [b]).map (·.sequence) =
      List.range' (q.lastRetired + 1) (b.sequence - q.lastRetired)
    rw [List.map_append, h.ordered, hs, List.range'_concat, List.map_cons, List.map_nil]
    congr 2
    omega
  counted memory := by
    show (b.memory.toList.foldl hold q.memoryRefs)[memory]? =
      tally (uses (q.inFlight ++ [b]) memory)
    rw [getElem?_holdAll _ _ _ (Handle.nodup_toList _), h.counted, getD_tally]
    unfold uses
    rw [List.countP_append]
    by_cases hm : memory ∈ b.memory
    · simp [hm, tally]
    · simp [hm]

/-- What is due and what stays in flight are numbered on either side of the target. -/
theorem ordered_split : ∀ (bs : List Batch) (a k n : Nat),
    bs.map (·.sequence) = List.range' (a + 1) k → a ≤ n → n ≤ a + k →
      (bs.takeWhile (·.sequence ≤ n)).map (·.sequence) = List.range' (a + 1) (n - a) ∧
        (bs.dropWhile (·.sequence ≤ n)).map (·.sequence) = List.range' (n + 1) (a + k - n)
  | [], a, k, n, h, h1, h2 => by
      have hk : k = 0 := by
        have := congrArg List.length h
        simpa using this.symm
      subst hk
      have : n = a := by omega
      subst this
      simp
  | b :: bs, a, k, n, h, h1, h2 => by
      cases k with
      | zero => cases h
      | succ k =>
          rw [List.map_cons, List.range'_succ] at h
          obtain ⟨hb, hr⟩ := List.cons.inj h
          by_cases hn : b.sequence ≤ n
          · obtain ⟨ht, hd⟩ := ordered_split bs (a + 1) k n hr (by omega) (by omega)
            have hs : n - a = (n - (a + 1)) + 1 := by omega
            rw [List.takeWhile_cons_of_pos (by simpa using hn),
              List.dropWhile_cons_of_pos (by simpa using hn), List.map_cons, ht, hd, hb, hs,
              List.range'_succ]
            exact ⟨rfl, by congr 1; omega⟩
          · have : n = a := by omega
            subst this
            rw [List.takeWhile_cons_of_neg (by simpa using hn),
              List.dropWhile_cons_of_neg (by simpa using hn), List.map_cons, hb, hr,
              Nat.sub_self, Nat.add_sub_cancel_left, List.range'_succ]
            exact ⟨rfl, rfl⟩

theorem Kept.retired {q : Queue} (h : q.Kept) {n : Nat} (h1 : q.lastRetired ≤ n)
    (h2 : n ≤ q.lastSubmitted) : (q.retired n).Kept where
  inRange := h2
  ordered := by
    have := h.inRange
    obtain ⟨-, hd⟩ := ordered_split q.inFlight _ _ n h.ordered h1 (by omega)
    show (q.inFlight.dropWhile (·.sequence ≤ n)).map (·.sequence) =
      List.range' (n + 1) (q.lastSubmitted - n)
    rw [hd]
    congr 1
    omega
  counted memory := by
    refine getElem?_releaseBatches _ memory (q.due n) q.memoryRefs ?_
    have whole : q.due n ++ (q.retired n).inFlight = q.inFlight := List.takeWhile_append_dropWhile
    rw [whole]
    exact h.counted memory

theorem mem_retired {q : Queue} {n : Nat} {b : Batch} (hb : b ∈ (q.retired n).inFlight) :
    b ∈ q.inFlight := (List.dropWhile_sublist _).subset hb

theorem mem_due {q : Queue} {n : Nat} {b : Batch} (hb : b ∈ q.due n) :
    b ∈ q.inFlight ∧ b.sequence ≤ n :=
  ⟨(List.takeWhile_sublist _).subset hb, by simpa using List.all_eq_true.mp List.all_takeWhile b hb⟩

/-- What stays in flight is numbered past the target. -/
theorem Kept.mem_retired_iff {q : Queue} (h : q.Kept) {n : Nat}
    (range : q.lastRetired ≤ n ∧ n ≤ q.lastSubmitted) {b : Batch} :
    b ∈ (q.retired n).inFlight ↔ b ∈ q.inFlight ∧ n < b.sequence := by
  constructor
  · intro hb
    exact ⟨mem_retired hb, ((h.retired range.1 range.2).sequence hb).1⟩
  · rintro ⟨hb, later⟩
    have whole : q.due n ++ (q.retired n).inFlight = q.inFlight := List.takeWhile_append_dropWhile
    rw [← whole] at hb
    rcases List.mem_append.mp hb with due | stays
    · exact absurd (mem_due due).2 (by omega)
    · exact stays

/-- What is due is numbered up to the target. -/
theorem Kept.mem_due_iff {q : Queue} (h : q.Kept) {n : Nat}
    (range : q.lastRetired ≤ n ∧ n ≤ q.lastSubmitted) {b : Batch} :
    b ∈ q.due n ↔ b ∈ q.inFlight ∧ b.sequence ≤ n := by
  refine ⟨mem_due, fun ⟨hb, early⟩ => ?_⟩
  have whole : q.due n ++ (q.retired n).inFlight = q.inFlight := List.takeWhile_append_dropWhile
  rw [← whole] at hb
  rcases List.mem_append.mp hb with due | stays
  · exact due
  · exact absurd ((h.mem_retired_iff range).mp stays).2 (by omega)

/-- No two batches in flight have the same number. -/
theorem Kept.eq_of_sequence {q : Queue} (h : q.Kept) {b b' : Batch} (hb : b ∈ q.inFlight)
    (hb' : b' ∈ q.inFlight) (same : b.sequence = b'.sequence) : b = b' := by
  refine List.inj_on_of_nodup_map ?_ hb hb' same
  rw [h.ordered]
  exact List.nodup_range'

end Queue

/-! ## All queues of a device -/

namespace QueueTracker

/-- Every queue has its work in order. -/
def Kept (t : QueueTracker) : Prop := ∀ queue q, t.queues.find? queue = some q → q.Kept

theorem kept_empty : empty.Kept := by
  intro queue q hq
  simp [empty] at hq

theorem queue_eq_ok_iff {t : QueueTracker} {queue : Handle} {q : Queue} :
    t.queue queue = .ok q ↔ t.queues.find? queue = some q := Registry.lookup_eq_ok_iff

theorem fence_eq_ok_iff {t : QueueTracker} {fence : Handle} {f : Fence} :
    t.fence fence = .ok f ↔ t.fences.find? fence = some f := Registry.lookup_eq_ok_iff

end QueueTracker

end GpuAudit
