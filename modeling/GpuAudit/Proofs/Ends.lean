import GpuAudit.Track

/-!
# What an operation ends with

`x.Ends s good bad` says what the operation `x` leaves when it runs on `s`: an
answer and a state of which `good` holds, or a violation and a state of which
`bad` holds.  Which of the two it is, `Ends` does not choose, so `bad := fun _ _
=> False` says that `x` answers.

The rules follow the ways to make an operation.  `ends_bind` is the rule for a
sequence: the second operation starts where the first has answered, and what
stops the first stops both.  A loop has an invariant of the elements it is through
with (`Ends.forM`), or one that each of its elements keeps (`Ends.forM_keeps`).

`x.Asks` says that `x` leaves every state as it is, whatever its answer.  `x.Exactly` names
the condition under which `x` answers, and says that nothing changes where it does not hold.
-/

namespace GpuAudit.Track

variable {σ τ α β : Type}

/-- What an operation leaves: `good` after an answer, `bad` after a violation. -/
def Ends (x : Track σ α) (s : σ) (good : α → σ → Prop) (bad : Violation → σ → Prop) : Prop :=
  match (x.on s).value with
  | .ok a => good a (x.on s).state
  | .error v => bad v (x.on s).state

section Rules

variable {x : Track σ α} {s : σ} {good good' : α → σ → Prop} {bad bad' : Violation → σ → Prop}

theorem Ends.mono (h : x.Ends s good bad) (hg : ∀ a t, good a t → good' a t)
    (hb : ∀ v t, bad v t → bad' v t) : x.Ends s good' bad' := by
  unfold Ends at h ⊢
  split at h
  next a _ => exact hg a _ h
  next v _ => exact hb v _ h

theorem Ends.good_of_ok (h : x.Ends s good bad) {a : α} (ha : (x.on s).value = .ok a) :
    good a (x.on s).state := by
  unfold Ends at h
  rwa [ha] at h

theorem Ends.bad_of_error (h : x.Ends s good bad) {v : Violation}
    (hv : (x.on s).value = .error v) : bad v (x.on s).state := by
  unfold Ends at h
  rwa [hv] at h

/-- Two statements on what an operation leaves hold together. -/
theorem Ends.and (h : x.Ends s good bad) (h' : x.Ends s good' bad') :
    x.Ends s (fun a t => good a t ∧ good' a t) fun v t => bad v t ∧ bad' v t := by
  unfold Ends at h h' ⊢
  cases hx : (x.on s).value with
  | ok a =>
      rw [hx] at h h'
      exact ⟨h, h'⟩
  | error v =>
      rw [hx] at h h'
      exact ⟨h, h'⟩

/-- An operation that cannot stop answers. -/
theorem Ends.answers (h : x.Ends s good fun _ _ => False) :
    ∃ a, (x.on s).value = .ok a ∧ good a (x.on s).state := by
  cases hx : (x.on s).value with
  | ok a => exact ⟨a, rfl, h.good_of_ok hx⟩
  | error v => exact (h.bad_of_error hx).elim

/-- An operation that cannot answer stops. -/
theorem Ends.stops (h : x.Ends s (fun _ _ => False) bad) :
    ∃ v, (x.on s).value = .error v ∧ bad v (x.on s).state := by
  cases hx : (x.on s).value with
  | ok a => exact (h.good_of_ok hx).elim
  | error v => exact ⟨v, rfl, h.bad_of_error hx⟩

/-- What holds after every end holds of the state. -/
theorem Ends.state {P : σ → Prop} (h : x.Ends s (fun _ => P) fun _ => P) : P (x.on s).state := by
  cases hx : (x.on s).value with
  | ok a => exact h.good_of_ok hx
  | error v => exact h.bad_of_error hx

/-- What an operation leaves is what `Ends` says when both sides name it. -/
theorem ends_iff : x.Ends s good bad ↔
    (∀ a, (x.on s).value = .ok a → good a (x.on s).state) ∧
      ∀ v, (x.on s).value = .error v → bad v (x.on s).state := by
  constructor
  · intro h
    exact ⟨fun a => h.good_of_ok, fun v => h.bad_of_error⟩
  · intro ⟨hg, hb⟩
    unfold Ends
    split
    next a ha => exact hg a ha
    next v hv => exact hb v hv

/-- An operation does all that it is for exactly if it may.  Otherwise it blames the call, and
changes nothing. -/
def Exactly (x : Track σ α) (s : σ) (may : Prop) (blames : Violation → Prop)
    (done : α → σ → Prop) : Prop :=
  x.Ends s (fun a t => may ∧ done a t) fun v t => t = s ∧ ¬may ∧ blames v

variable {may may' : Prop} {blames blames' : Violation → Prop} {done done' : α → σ → Prop}

/-- An operation is also exactly what amounts to the same. -/
theorem Exactly.congr (h : x.Exactly s may blames done) (hm : may' ↔ may)
    (hb : ∀ v, ¬may → blames v → blames' v) (hd : ∀ a t, may → done a t → done' a t) :
    x.Exactly s may' blames' done' :=
  Ends.mono h (fun a t ha => ⟨hm.mpr ha.1, hd a t ha.1 ha.2⟩) fun v _ hv =>
    ⟨hv.1, fun may => hv.2.1 (hm.mp may), hb v hv.2.1 hv.2.2⟩

/-- What an operation may do is settled by the operation. -/
theorem Exactly.may_iff (h : x.Exactly s may blames done) (h' : x.Exactly s may' blames' done') :
    may ↔ may' := by
  cases hx : (x.on s).value with
  | ok a => exact iff_of_true (h.good_of_ok hx).1 (h'.good_of_ok hx).1
  | error v => exact iff_of_false (h.bad_of_error hx).2.1 (h'.bad_of_error hx).2.1

end Rules

/-! ## Ways to make an operation -/

@[simp] theorem ends_pure {a : α} {s : σ} {good : α → σ → Prop} {bad : Violation → σ → Prop} :
    (pure a : Track σ α).Ends s good bad ↔ good a s := Iff.rfl

@[simp] theorem ends_throw {v : Violation} {s : σ} {good : α → σ → Prop}
    {bad : Violation → σ → Prop} : (throw v : Track σ α).Ends s good bad ↔ bad v s := Iff.rfl

@[simp] theorem ends_bind {x : Track σ α} {f : α → Track σ β} {s : σ} {good : β → σ → Prop}
    {bad : Violation → σ → Prop} :
    (x >>= f).Ends s good bad ↔ x.Ends s (fun a t => (f a).Ends t good bad) bad := by
  cases hx : x.on s with
  | mk value t notes =>
      cases value with
      | ok a => simp only [Ends, on_bind_of_ok hx, hx]
      | error v => simp only [Ends, on_bind_of_error hx, hx]

@[simp] theorem ends_map {x : Track σ α} {f : α → β} {s : σ} {good : β → σ → Prop}
    {bad : Violation → σ → Prop} :
    (f <$> x).Ends s good bad ↔ x.Ends s (fun a => good (f a)) bad := by
  rw [map_eq_pure_bind, ends_bind]
  exact Iff.rfl

@[simp] theorem ends_discard {x : Track σ α} {s : σ} {good : PUnit → σ → Prop}
    {bad : Violation → σ → Prop} :
    (discard x).Ends s good bad ↔ x.Ends s (fun _ => good ⟨⟩) bad := ends_map

@[simp] theorem ends_get {s : σ} {good : σ → σ → Prop} {bad : Violation → σ → Prop} :
    (get : Track σ σ).Ends s good bad ↔ good s s := Iff.rfl

@[simp] theorem ends_set {s t : σ} {good : PUnit → σ → Prop} {bad : Violation → σ → Prop} :
    (set t : Track σ PUnit).Ends s good bad ↔ good ⟨⟩ t := Iff.rfl

@[simp] theorem ends_modify {f : σ → σ} {s : σ} {good : PUnit → σ → Prop}
    {bad : Violation → σ → Prop} :
    (modify f : Track σ PUnit).Ends s good bad ↔ good ⟨⟩ (f s) := Iff.rfl

@[simp] theorem ends_log {level : LogLevel} {message : String} {s : σ} {good : Unit → σ → Prop}
    {bad : Violation → σ → Prop} : (log level message).Ends s good bad ↔ good () s := Iff.rfl

@[simp] theorem ends_debug {message : String} {s : σ} {good : Unit → σ → Prop}
    {bad : Violation → σ → Prop} : (debug message).Ends s good bad ↔ good () s := Iff.rfl

@[simp] theorem ends_warn {v : Violation} {s : σ} {good : Unit → σ → Prop}
    {bad : Violation → σ → Prop} : (warn v).Ends s good bad ↔ good () s := Iff.rfl

@[simp] theorem ends_ofExcept_ok {a : α} {s : σ} {good : α → σ → Prop}
    {bad : Violation → σ → Prop} : (ofExcept (.ok a)).Ends s good bad ↔ good a s := Iff.rfl

@[simp] theorem ends_ofExcept_error {v : Violation} {s : σ} {good : α → σ → Prop}
    {bad : Violation → σ → Prop} : (ofExcept (.error v)).Ends s good bad ↔ bad v s := Iff.rfl

/-- A rule answers or stops, and the state stays. -/
theorem ends_ofExcept {answer : Except Violation α} {s : σ} {good : α → σ → Prop}
    {bad : Violation → σ → Prop} :
    (ofExcept answer).Ends s good bad ↔
      (∀ a, answer = .ok a → good a s) ∧ ∀ v, answer = .error v → bad v s := by
  rw [ends_iff, on_ofExcept]

@[simp] theorem ends_query {question : σ → Except Violation α} {s : σ} {good : α → σ → Prop}
    {bad : Violation → σ → Prop} :
    (query question).Ends s good bad ↔ (ofExcept (question s)).Ends s good bad := Iff.rfl

@[simp] theorem ends_update {change : σ → Except Violation σ} {s : σ} {good : Unit → σ → Prop}
    {bad : Violation → σ → Prop} :
    (update change).Ends s good bad ↔
      (ofExcept (change s)).Ends s (fun t _ => good () t) bad := by
  rw [update, ends_bind]
  exact Iff.rfl

/-- A change of the state is made where the rule it asks first answers. -/
theorem ends_update_bind {rule : σ → Except Violation α} {put : σ → α → σ} {s : σ}
    {good : Unit → σ → Prop} {bad : Violation → σ → Prop} :
    (update fun s => rule s >>= fun a => pure (put s a)).Ends s good bad ↔
      (∀ a, rule s = .ok a → good () (put s a)) ∧ ∀ v, rule s = .error v → bad v s := by
  rw [ends_update]
  cases rule s with
  | ok a =>
      show good () (put s a) ↔ _
      simp
  | error v =>
      show bad v s ↔ _
      simp

@[simp] theorem ends_within {get : σ → τ} {set : τ → σ → σ} {x : Track τ α} {s : σ}
    {good : α → σ → Prop} {bad : Violation → σ → Prop} :
    (within get set x).Ends s good bad ↔
      x.Ends (get s) (fun a t => good a (set t s)) fun v t => bad v (set t s) := Iff.rfl

@[simp] theorem ends_restate {x : Track σ α} {f : Violation → Violation} {s : σ}
    {good : α → σ → Prop} {bad : Violation → σ → Prop} :
    (x.restate f).Ends s good bad ↔ x.Ends s good fun v => bad (f v) := by
  unfold Ends
  rw [on_restate]
  cases (x.on s).value with
  | ok a => exact Iff.rfl
  | error v => exact Iff.rfl

theorem ends_forM_cons {f : β → Track σ PUnit} {b : β} {bs : List β} {s : σ}
    {good : PUnit → σ → Prop} {bad : Violation → σ → Prop} :
    ((b :: bs).forM f).Ends s good bad ↔
      (f b).Ends s (fun _ t => (bs.forM f).Ends t good bad) bad := ends_bind

theorem ends_forM_singleton {f : β → Track σ PUnit} {b : β} {s : σ} {good : PUnit → σ → Prop}
    {bad : Violation → σ → Prop} : ([b].forM f).Ends s good bad ↔ (f b).Ends s good bad :=
  ends_forM_cons

theorem ends_forM_append {f : β → Track σ PUnit} {bs : List β} {good : PUnit → σ → Prop}
    {bad : Violation → σ → Prop} : ∀ {as : List β} {s : σ},
    ((as ++ bs).forM f).Ends s good bad ↔
      (as.forM f).Ends s (fun _ t => (bs.forM f).Ends t good bad) bad
  | [], _ => Iff.rfl
  | a :: as, s => by
      rw [List.cons_append, ends_forM_cons, ends_forM_cons]
      simp only [ends_forM_append]

/-- A loop keeps an invariant that speaks of the elements it is through with. -/
theorem Ends.forM {f : β → Track σ PUnit} (after : List β → σ → Prop)
    {bad : Violation → σ → Prop} {bs : List β} {s : σ} (start : after [] s)
    (step : ∀ front b back t, bs = front ++ b :: back → after front t →
      (f b).Ends t (fun _ u => after (front ++ [b]) u) bad) :
    (bs.forM f).Ends s (fun _ t => after bs t) bad := by
  suffices rest : ∀ back front s, bs = front ++ back → after front s →
      (back.forM f).Ends s (fun _ t => after bs t) bad from rest bs [] s rfl start
  intro back
  induction back with
  | nil =>
      intro front s hbs h
      rw [List.append_nil] at hbs
      rw [hbs]
      exact h
  | cons b back ih =>
      intro front s hbs h
      rw [ends_forM_cons]
      refine (step front b back s hbs h).mono (fun _ t ht => ?_) fun _ _ hb => hb
      exact ih (front ++ [b]) t (by simp [hbs]) ht

/-- A loop keeps what each of its elements keeps. -/
theorem Ends.forM_keeps {f : β → Track σ PUnit} (keep : σ → Prop) {bad : Violation → σ → Prop}
    {bs : List β} {s : σ} (start : keep s)
    (step : ∀ b ∈ bs, ∀ t, keep t → (f b).Ends t (fun _ u => keep u) bad) :
    (bs.forM f).Ends s (fun _ t => keep t) bad :=
  Ends.forM (fun _ => keep) start fun front b back t hbs h => step b (by simp [hbs]) t h

/-- An element of a list without repetitions is not among those before it. -/
theorem not_mem_front {front back : List β} {b : β} (distinct : (front ++ b :: back).Nodup) :
    b ∉ front := fun hb =>
  (List.nodup_append.mp distinct).2.2 b hb b List.mem_cons_self rfl

/-! ## Answers -/

/-- An operation answers. -/
def Answers (x : Track σ α) (s : σ) : Prop := ∃ a, (x.on s).value = .ok a

/-- A sequence answers where the first operation answers and the second goes on to. -/
theorem answers_bind {x : Track σ α} {f : α → Track σ β} {s : σ} :
    (x >>= f).Answers s ↔ ∃ a, (x.on s).value = .ok a ∧ (f a).Answers (x.on s).state := by
  unfold Answers
  cases hx : x.on s with
  | mk value t notes =>
      cases value with
      | ok a => simp [on_bind_of_ok hx]
      | error v => simp [on_bind_of_error hx]

theorem answers_iff_ends {x : Track σ α} {s : σ} :
    x.Answers s ↔ x.Ends s (fun _ _ => True) fun _ _ => False := by
  constructor
  · rintro ⟨a, ha⟩
    exact ends_iff.mpr ⟨fun _ _ => trivial, fun v hv => nomatch ha.symm.trans hv⟩
  · intro h
    obtain ⟨a, ha, -⟩ := h.answers
    exact ⟨a, ha⟩

instance (x : Track σ α) (s : σ) : Decidable (x.Answers s) :=
  match h : (x.on s).value with
  | .ok a => isTrue ⟨a, h⟩
  | .error _ => isFalse fun ⟨_, ha⟩ => nomatch h.symm.trans ha

/-- What an operation leaves does not depend on what is made of its answer. -/
theorem state_bind_pure (x : Track σ α) (f : α → β) (s : σ) :
    ((x >>= fun a => pure (f a)).on s).state = (x.on s).state :=
  Ends.state (P := (· = (x.on s).state))
    (ends_bind.mpr (ends_iff.mpr ⟨fun _ _ => rfl, fun _ _ => rfl⟩))

theorem state_discard (x : Track σ α) (s : σ) : ((discard x).on s).state = (x.on s).state :=
  Ends.state (P := (· = (x.on s).state))
    (ends_discard.mpr (ends_iff.mpr ⟨fun _ _ => rfl, fun _ _ => rfl⟩))

/-! ## Refusals -/

/-- What the rule raises where it refuses has a property. -/
def Raises (P : Violation → Prop) (answer : Except Violation α) : Prop :=
  ∀ v, answer = .error v → P v

/-- The rule blames the call, never the books, where it refuses. -/
abbrev Mild (answer : Except Violation α) : Prop := Raises (·.isFatal = false) answer

/-- The rule raises errors where it refuses, and these blame the call. -/
abbrev Strict (answer : Except Violation α) : Prop :=
  Raises (·.toDiagnostic.severity = .error) answer

/-- What a refused call leaves: a violation that blames the call, and nothing changed. -/
def Refused (s : σ) (v : Violation) (t : σ) : Prop := v.isFatal = false ∧ t = s

/-- An operation that leaves every state as it is and stops only to refuse. -/
def Asks (x : Track σ α) : Prop := ∀ s, x.Ends s (fun _ t => t = s) (Refused s)

theorem Asks.state {x : Track σ α} (h : x.Asks) (s : σ) : (x.on s).state = s :=
  ((h s).mono (fun _ _ ht => ht) fun _ _ ht => ht.2).state

theorem asks_ofExcept {answer : Except Violation α} (h : Mild answer) :
    (ofExcept answer : Track σ α).Asks :=
  fun _ => ends_ofExcept.mpr ⟨fun _ _ => rfl, fun v hv => ⟨h v hv, rfl⟩⟩

theorem asks_query {question : σ → Except Violation α} (h : ∀ s, Mild (question s)) :
    (query question).Asks := fun s => ends_query.mpr (asks_ofExcept (h s) s)

theorem asks_pure (a : α) : (pure a : Track σ α).Asks := fun _ => rfl

theorem asks_throw {v : Violation} (h : v.isFatal = false) : (throw v : Track σ α).Asks :=
  fun _ => ⟨h, rfl⟩

theorem asks_warn (v : Violation) : (warn v : Track σ Unit).Asks := fun _ => rfl

theorem Asks.bind {x : Track σ α} {f : α → Track σ β} (hx : x.Asks) (hf : ∀ a, (f a).Asks) :
    (x >>= f).Asks := by
  intro s
  rw [ends_bind]
  refine (hx s).mono (fun a t ht => ?_) fun _ _ h => h
  subst ht
  exact hf a t

theorem Asks.discard {x : Track σ α} (h : x.Asks) : (discard x).Asks := fun s =>
  ends_discard.mpr (h s)

theorem Asks.forM {f : β → Track σ PUnit} (hf : ∀ b, (f b).Asks) (bs : List β) :
    (bs.forM f).Asks := by
  intro s
  refine Ends.forM_keeps (· = s) rfl fun b _ t ht => ?_
  subst ht
  exact hf b t

theorem Asks.within {get : σ → τ} {set : τ → σ → σ} {x : Track τ α} (hx : x.Asks)
    (hset : ∀ s, set (get s) s = s) : (within get set x).Asks := by
  intro s
  rw [ends_within]
  refine (hx (get s)).mono (fun _ t ht => ?_) fun _ t ht => ⟨ht.1, ?_⟩
  · rw [ht, hset]
  · rw [ht.2, hset]

/-- Where a check passes, what follows starts in the same state. -/
theorem Asks.answers_bind {x : Track σ α} {f : α → Track σ β} (hx : x.Asks) {s : σ} :
    (x >>= f).Answers s ↔ ∃ a, (x.on s).value = .ok a ∧ (f a).Answers s := by
  rw [Track.answers_bind, hx.state s]

theorem Asks.answers_and {x : Track σ α} {y : Track σ β} (hx : x.Asks) {s : σ} :
    (x >>= fun _ => y).Answers s ↔ x.Answers s ∧ y.Answers s := by
  rw [hx.answers_bind, exists_and_right]
  exact Iff.rfl

/-- Checks pass one after another where each passes by itself. -/
theorem Asks.answers_forM {f : β → Track σ PUnit} (hf : ∀ b, (f b).Asks) {s : σ} :
    ∀ {bs : List β}, (bs.forM f).Answers s ↔ ∀ b ∈ bs, (f b).Answers s
  | [] => by simpa using ⟨⟨⟩, rfl⟩
  | b :: bs => by
      rw [List.forall_mem_cons, ← Asks.answers_forM hf]
      exact (hf b).answers_and

/-- A loop of checks passes when each element passes its own, and stops as one of them
does. -/
theorem ends_forM_checks {f : β → Track σ PUnit} (bs : List β) (passes : β → Prop) {s : σ}
    (bad : Violation → σ → Prop)
    (step : ∀ b ∈ bs, (f b).Ends s (fun _ t => t = s ∧ passes b) bad) :
    (bs.forM f).Ends s (fun _ t => t = s ∧ ∀ b ∈ bs, passes b) bad := by
  refine Ends.forM (fun front t => t = s ∧ ∀ b ∈ front, passes b) ⟨rfl, by simp⟩
    fun front b _ t parts ht => ?_
  obtain ⟨rfl, checked⟩ := ht
  refine (step b (by simp [parts])).mono (fun _ u hu => ⟨hu.1, fun c hc => ?_⟩) fun _ _ h => h
  rcases List.mem_append.mp hc with hc | hc
  · exact checked c hc
  · exact List.mem_singleton.mp hc ▸ hu.2

/-- A loop of checks that refuse changes nothing. -/
theorem ends_forM_check {f : β → Track σ PUnit} (passes : β → Prop) {s : σ}
    (step : ∀ b, (f b).Ends s (fun _ t => t = s ∧ passes b) (Refused s)) (bs : List β) :
    (bs.forM f).Ends s (fun _ t => t = s ∧ ∀ b ∈ bs, passes b) (Refused s) :=
  ends_forM_checks bs passes (Refused s) fun b _ => step b

/-- A check before an operation passes or stops it, with nothing changed. -/
theorem Asks.before {x : Track σ α} {f : α → Track σ β} {s : σ} {good : β → σ → Prop}
    {bad : Violation → σ → Prop} (hx : x.Asks)
    (hf : ∀ a, (x.on s).value = .ok a → (f a).Ends s good bad)
    (hb : ∀ v, v.isFatal = false → bad v s) : (x >>= f).Ends s good bad := by
  rw [ends_bind, ends_iff, hx.state s]
  exact ⟨hf, fun v hv => hb v ((hx s).bad_of_error hv).1⟩

end GpuAudit.Track
