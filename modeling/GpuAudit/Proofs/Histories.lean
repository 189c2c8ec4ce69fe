import GpuAudit.Proofs.Coherence
import GpuAudit.Proofs.Consistency

/-!
# Histories of queues

A history is a list of operations on the queues of a device, each run on the queues that
the one before it has left, and with any other books.  Nothing is asked of their answers:
a submission may be refused, and a retirement may stop half way.

`Turn` says what one operation makes of one queue.  A queue that takes only such turns
keeps its work in order, and agrees with its history: what was submitted to it last is in
flight, and what was submitted first has been returned by retirements.  The queues of a
session of the layer have such a history after every run.
-/

namespace GpuAudit

/-! ## Operations -/

/-- The queue that an operation is about. -/
def QueueOperation.queue? : QueueOperation → Option Handle
  | addQueue queue => some queue
  | submit queue _ _ => some queue
  | retire r => some r.queue
  | _ => none

/-- An operation on the queues of a device, with the books that it finds. -/
structure QueueEvent where
  /-- The books of the device before the operation. -/
  books : Trackers
  /-- The operation. -/
  op : QueueOperation

namespace QueueEvent

/-- The record of a queue before the operation. -/
def before (e : QueueEvent) (g : Handle) : Option Queue := e.books.queues.queues.find? g

/-- The queues, fences and semaphores after the operation, whatever its answer. -/
def outcome (e : QueueEvent) : QueueTracker := (e.op.run.on e.books).state.queues

/-- The record of a queue after the operation. -/
def after (e : QueueEvent) (g : Handle) : Option Queue := e.outcome.queues.find? g

/-- The batch that the operation submits to a queue, numbered by the answer. -/
def submitted (e : QueueEvent) (g : Handle) : List Batch :=
  match e.op with
  | .submit queue submits fence =>
      match ((Trackers.submit queue submits fence).on e.books).value with
      | .ok sequence =>
          if g = queue then
            [{ sequence, fence
               commandBuffers := submits.flatMap (·.commandBuffers)
               waitSemaphores := submits.flatMap (·.waitSemaphores)
               memory := e.books.commands.memoryOf (submits.flatMap (·.commandBuffers)) }]
          else []
      | .error _ => []
  | _ => []

/-- The batches that the operation returns as retired from a queue. -/
def returned (e : QueueEvent) (g : Handle) : List Batch :=
  match e.op with
  | .retire r =>
      match ((Trackers.retireUpTo r).on e.books).value with
      | .ok batches => if g = r.queue then batches else []
      | .error _ => []
  | _ => []

/-- A retirement in the range of its queue answers. -/
def Whole (e : QueueEvent) : Prop :=
  match e.op with
  | .retire r => ∀ q ∈ e.before r.queue, q.lastRetired ≤ r.upTo ∧ r.upTo ≤ q.lastSubmitted →
      (Trackers.retireUpTo r).Answers e.books
  | _ => True

instance : ∀ e : QueueEvent, Decidable e.Whole
  | ⟨books, .retire r⟩ => inferInstanceAs (Decidable (∀ q ∈ books.queues.queues.find? r.queue,
      q.lastRetired ≤ r.upTo ∧ r.upTo ≤ q.lastSubmitted → (Trackers.retireUpTo r).Answers books))
  | ⟨_, .addQueue _⟩ | ⟨_, .createFence ..⟩ | ⟨_, .destroyFence _⟩ | ⟨_, .resetFences _⟩
  | ⟨_, .createSemaphore _⟩ | ⟨_, .destroySemaphore _⟩ | ⟨_, .submit ..⟩ => isTrue trivial

/-! ## One operation -/

/-- What an operation makes of the record of a queue, with the batches that it submits to
the queue and those that it returns. -/
inductive Turn (e : QueueEvent) (g : Handle) : Option Queue → Option Queue → Prop
  /-- The queue stays. -/
  | rests {x : Option Queue} (submitted : e.submitted g = []) (returned : e.returned g = []) :
      Turn e g x x
  /-- The queue is entered. -/
  | opens (about : e.op.queue? = some g) (submitted : e.submitted g = [])
      (returned : e.returned g = []) : Turn e g none (some .idle)
  /-- A batch is submitted under the next number. -/
  | enters {q : Queue} {b : Batch} (about : e.op.queue? = some g)
      (next : b.sequence = q.lastSubmitted + 1) (submitted : e.submitted g = [b])
      (returned : e.returned g = []) : Turn e g (some q) (some (q.push b))
  /-- The queue moves on; what was due is returned, unless the operation stops. -/
  | retires {q : Queue} {n : Nat} (about : e.op.queue? = some g)
      (range : q.lastRetired ≤ n ∧ n ≤ q.lastSubmitted) (submitted : e.submitted g = [])
      (returned : e.Whole → e.returned g = q.due n) : Turn e g (some q) (some (q.retired n))

variable {e : QueueEvent} {g : Handle}

theorem outcome_of_discard {α : Type} {x : Track Trackers α} (h : e.op.run = discard x) :
    e.outcome = (x.on e.books).state.queues := by
  rw [outcome, h, Track.state_discard]

theorem turn_of_same (same : e.outcome.queues = e.books.queues.queues)
    (submitted : e.submitted g = []) (returned : e.returned g = []) :
    Turn e g (e.before g) (e.after g) := by
  rw [after, same]
  exact .rests submitted returned

/-- An operation that is about no queue submits and returns nothing. -/
theorem nothing_of_about_none (h : e.op.queue? = none) :
    e.submitted g = [] ∧ e.returned g = [] := by
  cases he : e.op with
  | addQueue | submit | retire => simp [QueueOperation.queue?, he] at h
  | createFence | destroyFence | resetFences | createSemaphore | destroySemaphore =>
      simp [submitted, returned, he]

/-- Operations on fences and semaphores leave the queues. -/
theorem turn_of_ends {x : Track QueueTracker Unit} {good : Unit → QueueTracker → Prop}
    (run : e.op.run = Trackers.onQueues x) (about : e.op.queue? = none)
    (ends : x.Ends e.books.queues good (Track.Refused e.books.queues))
    (same : ∀ a u, good a u → u.queues = e.books.queues.queues) :
    Turn e g (e.before g) (e.after g) := by
  obtain ⟨submitted, returned⟩ := nothing_of_about_none (g := g) about
  refine turn_of_same ?_ submitted returned
  rw [outcome, run]
  exact Track.Ends.state (P := fun u : QueueTracker => u.queues = e.books.queues.queues)
    (ends.mono same fun _ _ hu => by rw [hu.2])

theorem turn_of_addQueue (queue : Handle) (he : e.op = .addQueue queue) :
    Turn e g (e.before g) (e.after g) := by
  have hx : e.outcome = ((QueueTracker.addQueue queue).on e.books.queues).state :=
    outcome_of_discard (x := Trackers.onQueues (QueueTracker.addQueue queue)) (by rw [he]; rfl)
  have submitted : e.submitted g = [] := by simp [submitted, he]
  have returned : e.returned g = [] := by simp [returned, he]
  refine Track.Ends.state (P := fun u : QueueTracker => e.outcome = u → _)
    ((e.books.queues.addQueue_ends queue).mono (fun _ u hu same => ?_) fun _ u hu same => ?_) hx
  · rcases hu with ⟨-, rfl⟩ | ⟨-, -, new, queues, rfl, view⟩
    · exact turn_of_same (by rw [same]) submitted returned
    · rw [after, same]
      show Turn e g (e.before g) (queues.find? g)
      rw [view]
      split
      next here =>
        rw [here, before, new]
        exact .opens (by rw [he]; rfl) (here ▸ submitted) (here ▸ returned)
      next => exact .rests submitted returned
  · exact turn_of_same (by rw [same, hu.2]) submitted returned

theorem turn_of_submit (queue : Handle) (submits : List SubmitBatch) (fence : Option Handle)
    (he : e.op = .submit queue submits fence) : Turn e g (e.before g) (e.after g) := by
  have hx := outcome_of_discard (e := e) (x := Trackers.submit queue submits fence)
    (by rw [he]; rfl)
  have returned : e.returned g = [] := by simp [returned, he]
  cases ha : ((Trackers.submit queue submits fence).on e.books).value with
  | error v =>
      have refused := (Trackers.submit_ends e.books queue submits fence).bad_of_error ha
      exact turn_of_same (by rw [hx, refused.2]) (by simp [submitted, he, ha]) returned
  | ok s =>
      obtain ⟨q, hq, -, -, hu, number⟩ :=
        (Trackers.submit_ends e.books queue submits fence).good_of_ok ha
      have entered : e.outcome.queues = e.books.queues.queues.modify queue
          (·.push (e.books.batchOf q submits fence)) := by
        rw [hx, hu]
        rfl
      rw [after, entered, Registry.find?_modify]
      split
      next here =>
        rw [before, here, hq]
        refine .enters (by rw [he]; rfl) rfl ?_ (here ▸ returned)
        simp [submitted, he, ha, number, Trackers.batchOf]
      next other => exact .rests (by simp [submitted, he, ha, other]) returned

/-- Whether a retirement goes through or stops half way, its queue has moved on. -/
theorem turn_of_moved {r : Retirement} {q : Queue} (he : e.op = .retire r)
    (found : e.before r.queue = some q) (range : q.lastRetired ≤ r.upTo ∧ r.upTo ≤ q.lastSubmitted)
    (moved : e.outcome.queues = e.books.queues.queues.modify r.queue (·.retired r.upTo))
    (here : e.Whole → e.returned r.queue = q.due r.upTo)
    (elsewhere : g ≠ r.queue → e.returned g = []) : Turn e g (e.before g) (e.after g) := by
  rw [after, moved, Registry.find?_modify]
  split
  next same =>
    subst same
    rw [show e.books.queues.queues.find? r.queue = some q from found, found]
    exact .retires (by rw [he]; rfl) range (by simp [submitted, he]) here
  next other => exact .rests (by simp [submitted, he]) (elsewhere other)

theorem turn_of_retire (r : Retirement) (he : e.op = .retire r) :
    Turn e g (e.before g) (e.after g) := by
  have hx := outcome_of_discard (e := e) (x := Trackers.retireUpTo r) (by rw [he]; rfl)
  cases ha : ((Trackers.retireUpTo r).on e.books).value with
  | ok bs =>
      have passes := (Trackers.retireUpTo_effect e.books r).good_of_ok ha
      obtain ⟨q, hq, range, rfl⟩ := passes.due
      refine turn_of_moved he hq range
        (by rw [hx, passes.queues, QueueTracker.queues_passed]) (fun _ => ?_) fun other => ?_
      · simp [returned, he, ha]
      · simp [returned, he, ha, other]
  | error v =>
      have returned : ∀ g, e.returned g = [] := fun g => by simp [returned, he, ha]
      have stops := (Trackers.retireUpTo_effect e.books r).bad_of_error ha
      generalize ((Trackers.retireUpTo r).on e.books).state = u at hx stops
      cases stops with
      | refused => exact turn_of_same (by rw [hx]) (by simp [submitted, he]) (returned g)
      | halfway fatal hq range parts queues =>
          refine turn_of_moved he hq range (by rw [hx, queues, QueueTracker.queues_passed])
            (fun whole => ?_) fun _ => returned g
          rw [Whole, he] at whole
          obtain ⟨bs, hb⟩ := whole _ hq range
          rw [ha] at hb
          cases hb

/-- Every operation makes a turn of every queue, whatever the books and its answer. -/
theorem turn (e : QueueEvent) (g : Handle) : Turn e g (e.before g) (e.after g) := by
  cases he : e.op with
  | addQueue queue => exact turn_of_addQueue queue he
  | submit queue submits fence => exact turn_of_submit queue submits fence he
  | retire r => exact turn_of_retire r he
  | createFence fence signaled =>
      exact turn_of_ends (by rw [he]; rfl) (by rw [he]; rfl)
        (e.books.queues.createFence_ends fence signaled) fun _ _ h => h.2.1
  | destroyFence fence =>
      exact turn_of_ends (by rw [he]; rfl) (by rw [he]; rfl)
        (e.books.queues.destroyFence_ends fence) fun _ _ h => h.2.1
  | resetFences fences =>
      exact turn_of_ends (by rw [he]; rfl) (by rw [he]; rfl)
        (e.books.queues.resetFences_ends fences) fun _ _ h => h.2.1
  | createSemaphore semaphore =>
      exact turn_of_ends (by rw [he]; rfl) (by rw [he]; rfl)
        (e.books.queues.createSemaphore_ends semaphore) fun _ _ h => h.1
  | destroySemaphore semaphore =>
      exact turn_of_ends (by rw [he]; rfl) (by rw [he]; rfl)
        (e.books.queues.destroySemaphore_ends semaphore) fun _ _ h => h.1

/-- A queue that an operation finds is there after it, and no number of it goes back. -/
theorem Turn.grows {q : Queue} {y : Option Queue} (h : Turn e g (some q) y) :
    ∃ q', y = some q' ∧ q.lastSubmitted ≤ q'.lastSubmitted ∧ q.lastRetired ≤ q'.lastRetired := by
  cases h with
  | rests => exact ⟨q, rfl, Nat.le_refl _, Nat.le_refl _⟩
  | @enters _ b _ next =>
      refine ⟨q.push b, rfl, ?_, Nat.le_refl _⟩
      show q.lastSubmitted ≤ b.sequence
      omega
  | @retires _ n _ range => exact ⟨q.retired n, rfl, Nat.le_refl _, range.1⟩

/-- An operation leaves every queue that it is not about. -/
theorem Turn.stays {x y : Option Queue} (h : Turn e g x y) (other : e.op.queue? ≠ some g) :
    y = x := by
  cases h with
  | rests => rfl
  | opens about | enters about | retires about => exact absurd about other

end QueueEvent

/-! ## Work that is due -/

namespace Queue

variable {q : Queue} {n : Nat}

theorem due_append_retired (q : Queue) (n : Nat) : q.due n ++ (q.retired n).inFlight = q.inFlight :=
  List.takeWhile_append_dropWhile

theorem Kept.length_due (h : q.Kept) (range : q.lastRetired ≤ n ∧ n ≤ q.lastSubmitted) :
    (q.due n).length = n - q.lastRetired := by
  have inRange := h.inRange
  obtain ⟨numbers, -⟩ := ordered_split q.inFlight _ _ n h.ordered range.1 (by omega)
  simpa [due] using congrArg List.length numbers

/-- What is due is the front of the work in flight. -/
theorem Kept.due_eq_take (h : q.Kept) (range : q.lastRetired ≤ n ∧ n ≤ q.lastSubmitted) :
    q.due n = q.inFlight.take (n - q.lastRetired) := by
  rw [← q.due_append_retired n, List.take_left' (h.length_due range)]

/-- What stays in flight is the rest. -/
theorem Kept.inFlight_retired (h : q.Kept) (range : q.lastRetired ≤ n ∧ n ≤ q.lastSubmitted) :
    (q.retired n).inFlight = q.inFlight.drop (n - q.lastRetired) := by
  rw [← q.due_append_retired n, List.drop_left' (h.length_due range)]

end Queue

/-! ## Histories -/

namespace QueueEvent

/-- The batches that operations submit to a queue, one after another. -/
def submissions (es : List QueueEvent) (g : Handle) : List Batch := es.flatMap (·.submitted g)

/-- The batches that operations return as retired from a queue, one after another. -/
def returns (es : List QueueEvent) (g : Handle) : List Batch := es.flatMap (·.returned g)

theorem submissions_concat (es : List QueueEvent) (e : QueueEvent) (g : Handle) :
    submissions (es ++ [e]) g = submissions es g ++ e.submitted g := by
  simp [submissions]

theorem returns_concat (es : List QueueEvent) (e : QueueEvent) (g : Handle) :
    returns (es ++ [e]) g = returns es g ++ e.returned g := by
  simp [returns]

/-- A queue has its work in order and agrees with what operations have done. -/
structure Agrees (es : List QueueEvent) (g : Handle) (q : Queue) : Prop where
  /-- The work is in order, and what it touches is counted. -/
  kept : q.Kept
  /-- Submissions are numbered from one on, without a gap. -/
  numbered : (submissions es g).map (·.sequence) = List.range' 1 q.lastSubmitted
  /-- In flight is what was submitted after the last that has retired. -/
  inFlight : q.inFlight = (submissions es g).drop q.lastRetired
  /-- The rest has been returned, if no retirement has stopped half way. -/
  returned : (∀ e ∈ es, e.Whole) → returns es g = (submissions es g).take q.lastRetired

variable {es : List QueueEvent} {e : QueueEvent} {g : Handle} {q : Queue}

theorem agrees_idle (h : submissions es g = []) (h' : returns es g = []) :
    Agrees es g .idle where
  kept := Queue.kept_idle
  numbered := by simp [h, Queue.idle]
  inFlight := by simp [h, Queue.idle]
  returned _ := by simp [h', Queue.idle]

theorem Agrees.length (h : Agrees es g q) : (submissions es g).length = q.lastSubmitted := by
  simpa using congrArg List.length h.numbered

/-- As long as a queue has had fewer submissions than there are words for ids, its ids are
exact as words, and so is the next. -/
theorem Agrees.words (h : Agrees es g q) (few : (submissions es g).length + 1 < UInt64.size) :
    (UInt64.ofNat q.lastSubmitted + 1).toNat = q.lastSubmitted + 1 ∧
      (UInt64.ofNat q.lastRetired).toNat = q.lastRetired ∧
      ∀ b ∈ q.inFlight, (UInt64.ofNat b.sequence).toNat = b.sequence := by
  rw [h.length] at few
  have word : ∀ n ≤ q.lastSubmitted, (UInt64.ofNat n).toNat = n := fun n le =>
    UInt64.toNat_ofNat_of_lt' (by omega)
  refine ⟨?_, word _ h.kept.inRange, fun b hb => word _ (h.kept.sequence hb).2⟩
  rw [UInt64.toNat_add, word _ (Nat.le_refl _)]
  exact Nat.mod_eq_of_lt few

theorem Agrees.rests (h : Agrees es g q) (submitted : e.submitted g = [])
    (returned : e.returned g = []) : Agrees (es ++ [e]) g q := by
  have same : submissions (es ++ [e]) g = submissions es g := by
    simp [submissions_concat, submitted]
  refine ⟨h.kept, same ▸ h.numbered, same ▸ h.inFlight, fun whole => ?_⟩
  rw [same, returns_concat, returned, List.append_nil]
  exact h.returned fun e' he' => whole e' (List.mem_append_left _ he')

theorem Agrees.enters (h : Agrees es g q) {b : Batch} (next : b.sequence = q.lastSubmitted + 1)
    (submitted : e.submitted g = [b]) (returned : e.returned g = []) :
    Agrees (es ++ [e]) g (q.push b) := by
  have inside : q.lastRetired ≤ (submissions es g).length := h.length ▸ h.kept.inRange
  constructor
  case kept => exact h.kept.push next
  case numbered =>
    show _ = List.range' 1 b.sequence
    rw [submissions_concat, submitted, List.map_append, h.numbered, next, List.range'_concat]
    simp [next, Nat.add_comm]
  case inFlight =>
    show q.inFlight ++ [b] = List.drop q.lastRetired _
    rw [submissions_concat, submitted, List.drop_append_of_le_length inside, h.inFlight]
  case returned =>
    intro whole
    show _ = List.take q.lastRetired _
    rw [submissions_concat, submitted, returns_concat, returned, List.append_nil,
      List.take_append_of_le_length inside]
    exact h.returned fun e' he' => whole e' (List.mem_append_left _ he')

theorem Agrees.retires (h : Agrees es g q) {n : Nat}
    (range : q.lastRetired ≤ n ∧ n ≤ q.lastSubmitted) (submitted : e.submitted g = [])
    (returned : e.Whole → e.returned g = q.due n) : Agrees (es ++ [e]) g (q.retired n) := by
  have same : submissions (es ++ [e]) g = submissions es g := by
    simp [submissions_concat, submitted]
  have upTo : q.lastRetired + (n - q.lastRetired) = n := by omega
  constructor
  case kept => exact h.kept.retired range.1 range.2
  case numbered => exact same ▸ h.numbered
  case inFlight =>
    show _ = List.drop n _
    rw [same, h.kept.inFlight_retired range, h.inFlight, List.drop_drop, upTo]
  case returned =>
    intro whole
    show _ = List.take n _
    have earlier := h.returned fun e' he' => whole e' (List.mem_append_left _ he')
    have last := returned (whole e (by simp))
    rw [same, returns_concat, earlier, last, h.kept.due_eq_take range, h.inFlight,
      ← List.take_add, upTo]

/-- A turn keeps a queue in agreement with the operations. -/
theorem Agrees.turn {x y : Option Queue} (h : Agrees es g (x.getD .idle)) (turn : e.Turn g x y) :
    Agrees (es ++ [e]) g (y.getD .idle) := by
  cases turn with
  | rests submitted returned => exact h.rests submitted returned
  | opens _ submitted returned => exact h.rests submitted returned
  | enters _ next submitted returned => exact h.enters next submitted returned
  | retires _ range submitted returned => exact h.retires range submitted returned

/-- Operations on the queues of a device, from none on, and what they lead to. -/
inductive History : List QueueEvent → QueueTracker → Prop
  | start : History [] .empty
  | step {es : List QueueEvent} {e : QueueEvent} (h : History es e.books.queues) :
      History (es ++ [e]) e.outcome

/-- The operations of a list, each with the books that those before it have left. -/
def along : Trackers → List QueueOperation → List QueueEvent
  | _, [] => []
  | t, op :: ops => ⟨t, op⟩ :: along (op.run.on t).state ops

theorem History.along : ∀ {es : List QueueEvent} {t : Trackers} (ops : List QueueOperation),
    History es t.queues → History (es ++ QueueEvent.along t ops) (QueueOperation.after t ops).queues
  | es, t, [], h => by simpa [QueueEvent.along, QueueOperation.after] using h
  | es, t, op :: ops, h => by
      have rest := History.along ops (t := (op.run.on t).state) (h.step (e := ⟨t, op⟩))
      simpa [QueueEvent.along, QueueOperation.after, List.append_assoc] using rest

/-- What a history says of the queues it leads to. -/
structure Orderly (es : List QueueEvent) (t : QueueTracker) : Prop where
  /-- Every queue has its work in order, as it was submitted and returned. -/
  agrees : ∀ g q, t.queues.find? g = some q → Agrees es g q
  /-- No operation takes a queue away, or a number of it back. -/
  grows : ∀ e ∈ es, ∀ g q, e.before g = some q → ∃ q', e.after g = some q' ∧
    q.lastSubmitted ≤ q'.lastSubmitted ∧ q.lastRetired ≤ q'.lastRetired
  /-- No operation changes a queue that it is not about. -/
  stays : ∀ e ∈ es, ∀ g, e.op.queue? ≠ some g → e.after g = e.before g

theorem History.agrees {t : QueueTracker} (h : History es t) (g : Handle) :
    Agrees es g ((t.queues.find? g).getD .idle) := by
  induction h with
  | start =>
      have none : Agrees [] g .idle := agrees_idle rfl rfl
      simpa [QueueTracker.empty] using none
  | @step es e _ ih => exact ih.turn (e.turn g)

theorem History.orderly {t : QueueTracker} (h : History es t) : Orderly es t where
  agrees g q hq := by simpa [hq] using h.agrees g
  grows e _ g q hq := by
    have turn := e.turn g
    rw [hq] at turn
    exact turn.grows
  stays e _ g other := (e.turn g).stays other

end QueueEvent

/-! ## Sessions -/

namespace Trackers

variable {t u : Trackers}

/-- What the queues of a device have become is what a history leads to, if they were. -/
def Recorded (t : Trackers) : Prop := ∃ es, QueueEvent.History es t.queues

theorem Recorded.congr (h : t.Recorded) (same : u.queues = t.queues) : u.Recorded := by
  obtain ⟨es, history⟩ := h
  exact ⟨es, same ▸ history⟩

theorem Recorded.step (h : t.Recorded) (op : QueueOperation)
    (same : u.queues = (op.run.on t).state.queues) : u.Recorded := by
  obtain ⟨es, history⟩ := h
  refine ⟨es ++ [⟨t, op⟩], ?_⟩
  rw [same]
  exact .step (e := ⟨t, op⟩) history

theorem state_nothing {α : Type} (x : Track Trackers α) (t : Trackers) :
    ((validate.nothing x).on t).state = (x.on t).state :=
  (Track.state_bind_pure (discard x) (fun _ => []) t).trans (Track.state_discard x t)

/-- A call is validated by one operation on the queues, or leaves them. -/
theorem Recorded.validate (h : t.Recorded) (owners : Owners) (device : Handle) (call : Call) :
    ((validate owners device call).on t).state.Recorded := by
  by_cases schedules : Schedules call
  · cases call with
    | queueSubmit queue submits fence =>
        refine h.step (.submit queue submits fence) (congrArg Trackers.queues ?_)
        exact (state_nothing _ t).trans (Track.state_discard _ t).symm
    | destroyFence _ fence =>
        exact h.step (.destroyFence fence) (congrArg Trackers.queues (state_nothing _ t))
    | resetFences _ fences =>
        exact h.step (.resetFences fences) (congrArg Trackers.queues (state_nothing _ t))
    | destroySemaphore _ semaphore =>
        exact h.step (.destroySemaphore semaphore) (congrArg Trackers.queues (state_nothing _ t))
    | _ => exact schedules.elim
  · exact h.congr ((validate_steady owners device schedules).state t).queues

/-- What a call has created is entered by one operation on the queues, or leaves them. -/
theorem Recorded.recordCreation (h : t.Recorded) (device : Handle) (call : Call) :
    ((recordCreation device call).on t).state.Recorded := by
  by_cases equips : Equips call
  · cases call with
    | getDeviceQueue _ queue =>
        refine h.step (.addQueue queue) (congrArg Trackers.queues ?_)
        exact (Track.state_bind_pure (onQueues (QueueTracker.addQueue queue)) _ t).trans
          (Track.state_discard _ t).symm
    | createFence _ fence signaled =>
        exact h.step (.createFence fence signaled) (congrArg Trackers.queues (state_nothing _ t))
    | createSemaphore _ semaphore =>
        exact h.step (.createSemaphore semaphore) (congrArg Trackers.queues (state_nothing _ t))
    | _ => exact equips.elim
  · exact h.congr ((recordCreation_steady device equips).state t).queues

/-- Being recorded is kept by every operation on a session. -/
theorem recordedInvariant :
    Layer.SessionInvariant (fun _ _ t => t.Recorded) fun _ _ _ _ => True where
  lose _ _ _ _ _ h := h
  retire _ _ t r h :=
    h.step (.retire r) (congrArg Trackers.queues (Track.state_discard (retireUpTo r) t).symm)
  empty _ _ _ := ⟨[], .start⟩
  validate owners device _ call h _ _ := h.validate owners device call
  record _ device _ call h := h.recordCreation device call

end Trackers

namespace Layer

open QueueEvent (History Orderly)

/-- The queues of every session have a history, whatever hooks have run. -/
theorem recorded_of_reached {allowed : Layer → Hook → Prop} {config : Config} {l : Layer}
    (h : Reached allowed config l) {device : Handle} {session : Session}
    (hs : l.sessions[device]? = some session) : session.trackers.Recorded :=
  (holds_of_reached Trackers.recordedInvariant (fun _ _ _ _ _ _ _ _ => trivial) h).books
    device session hs

/-- Every history of queues is orderly, and the queues of every session of the layer have
a history, whatever hooks have run. -/
theorem queues_orderly :
    (∀ es (t : QueueTracker), History es t → Orderly es t) ∧
      ∀ allowed config (l : Layer), Reached allowed config l →
        ∀ (device : Handle) (session : Session), l.sessions[device]? = some session →
          ∃ es, History es session.trackers.queues :=
  ⟨fun _ _ history => history.orderly, fun _ _ _ h _ _ hs => recorded_of_reached h hs⟩

/-- Of three submissions to a queue one is refused, and of two retirements the second goes
too far. -/
def partlyRefused : List QueueOperation :=
  [.addQueue ⟨1, .queue⟩, .addQueue ⟨2, .queue⟩, .submit ⟨1, .queue⟩ [] none,
   .submit ⟨1, .queue⟩ [] (some ⟨9, .fence⟩), .submit ⟨2, .queue⟩ [] none,
   .submit ⟨1, .queue⟩ [] none, .retire ⟨⟨1, .queue⟩, 1⟩, .retire ⟨⟨1, .queue⟩, 3⟩]

/-- The two submissions that were entered there have the numbers one and two, and the first
has been returned. -/
theorem queues_orderly_of_partlyRefused :
    (∃ q ∈ (QueueOperation.after .empty partlyRefused).queues.queues.find? ⟨1, .queue⟩,
      q.lastSubmitted = 2 ∧ q.lastRetired = 1 ∧
      (QueueEvent.submissions (QueueEvent.along .empty partlyRefused) ⟨1, .queue⟩).map (·.sequence) =
        [1, 2] ∧
      QueueEvent.returns (QueueEvent.along .empty partlyRefused) ⟨1, .queue⟩ =
        (QueueEvent.submissions (QueueEvent.along .empty partlyRefused) ⟨1, .queue⟩).take 1) ∧
    ∃ session ∈ ((start {}).run filling).sessions[(⟨1, .device⟩ : Handle)]?,
      ∃ es, History es session.trackers.queues := by
  have found : ∃ q ∈ (QueueOperation.after .empty partlyRefused).queues.queues.find? ⟨1, .queue⟩,
      q.lastSubmitted = 2 ∧ q.lastRetired = 1 := by decide +kernel
  have whole : ∀ e ∈ QueueEvent.along .empty partlyRefused, e.Whole := by decide +kernel
  have live : ∃ session,
      ((start {}).run filling).sessions[(⟨1, .device⟩ : Handle)]? = some session :=
    Option.isSome_iff_exists.mp (by decide +kernel)
  have reached : Reached (fun _ _ => True) {} ((start {}).run filling) :=
    Reached.start.run (by decide +kernel)
  refine ⟨?_, ?_⟩
  · obtain ⟨q, hq, submitted, retired⟩ := found
    have orderly := queues_orderly.1 _ _ (History.start.along (t := .empty) partlyRefused)
    obtain ⟨-, numbered, -, returned⟩ := orderly.agrees _ q hq
    refine ⟨q, hq, submitted, retired, ?_, ?_⟩
    · rw [submitted] at numbered
      exact numbered
    · rw [retired] at returned
      exact returned whole
  · obtain ⟨session, hs⟩ := live
    exact ⟨session, hs, queues_orderly.2 _ _ _ reached _ session hs⟩

end Layer

end GpuAudit
