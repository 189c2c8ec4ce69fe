import GpuAudit.Json.Parser
import GpuAudit.Json.Printer
import GpuAudit.Proofs.Lexing

/-!
# Values and their tokens

`Value.tokens` writes a value as tokens, in the order in which the printer writes its
characters.  `Value.Fits n v` holds of the values that have a text of their own: every
number is below `2 ^ 64` and written as plain digits, nothing is malformed, and arrays
and objects nest at most `n` deep.

For such a value the parser reads its tokens back wherever a value may stand
(`Value.foldlM_tokens`): they leave it where the complete value leaves it.  A reader that
keeps the whole text accepts it too, for no token is without a value
(`Value.sound_tokens`) and the nesting is within `n` (`Fits.nesting_le`).  Together they
give `Fits.ofTextWithin?_eq`, for every text laid out from the tokens; `Fits.laid` says
that the printed text is one of them.

Each induction is on the value, together with the lists of elements and of members that a
value may hold, in the way `tokens` recurses.
-/

namespace GpuAudit.Json

/-! ## Tokens of a value -/

namespace Value

mutual

/-- The tokens of a value. -/
def tokens : Value → List Token
  | .null => [.null]
  | .bool b => [.bool b]
  | .nat n => [.number (.ofNat n)]
  | .decimal n => [.number n]
  | .string s => [.text (some s)]
  | .array [] => [.openArray, .closeArray]
  | .array (v :: vs) => .openArray :: (tokens v ++ elementTokens vs)
  | .object [] => [.openObject, .closeObject]
  | .object ((name, v) :: ms) =>
      .openObject :: .text (some name) :: .colon :: (tokens v ++ memberTokens ms)
  | .malformed => [.null]

/-- The tokens of the elements of an array after the first, and of its end. -/
def elementTokens : List Value → List Token
  | [] => [.closeArray]
  | v :: vs => .comma :: (tokens v ++ elementTokens vs)

/-- The tokens of the members of an object after the first, and of its end. -/
def memberTokens : List (String × Value) → List Token
  | [] => [.closeObject]
  | (name, v) :: ms => .comma :: .text (some name) :: .colon :: (tokens v ++ memberTokens ms)

end

/-- Values that have a text of their own and nest at most so deep. -/
inductive Fits : Nat → Value → Prop
  | null {n : Nat} : Fits n .null
  | bool {n : Nat} (b : Bool) : Fits n (.bool b)
  | nat {n k : Nat} (h : k < UInt64.size) : Fits n (.nat k)
  | string {n : Nat} (s : String) : Fits n (.string s)
  | array {n : Nat} {vs : List Value} (h : ∀ v ∈ vs, Fits n v) : Fits (n + 1) (.array vs)
  | object {n : Nat} {ms : List (String × Value)} (h : ∀ m ∈ ms, Fits n m.2) :
      Fits (n + 1) (.object ms)

variable {n : Nat} {v : Value}

@[simp] theorem fits_null : Fits n .null := .null

@[simp] theorem fits_bool (b : Bool) : Fits n (.bool b) := .bool b

@[simp] theorem fits_string (s : String) : Fits n (.string s) := .string s

@[simp] theorem fits_nat {k : Nat} : Fits n (.nat k) ↔ k < UInt64.size :=
  ⟨fun h => by cases h; assumption, .nat⟩

@[simp] theorem fits_array {vs : List Value} :
    Fits (n + 1) (.array vs) ↔ ∀ v ∈ vs, Fits n v :=
  ⟨fun h => by cases h; assumption, .array⟩

@[simp] theorem fits_object {ms : List (String × Value)} :
    Fits (n + 1) (.object ms) ↔ ∀ m ∈ ms, Fits n m.2 :=
  ⟨fun h => by cases h; assumption, .object⟩

end Value

/-! ## The printed text -/

open Value

theorem endsNumber_cons {c : Char} (h : NumberPart.whole.next? c = none) (cs : List Char) :
    EndsNumber (c :: cs) := by simpa [EndsNumber] using h

theorem endsNumber_elementChars (vs : List Value) (cs : List Char) :
    EndsNumber (elementChars vs ++ cs) := by
  cases vs <;> exact endsNumber_cons (by decide) _

theorem endsNumber_memberChars (ms : List (String × Value)) (cs : List Char) :
    EndsNumber (memberChars ms ++ cs) := by
  cases ms <;> exact endsNumber_cons (by decide) _

namespace Value

theorem chars_array (v : Value) (vs : List Value) :
    (Value.array (v :: vs)).chars = '[' :: (v.chars ++ elementChars vs) := rfl

theorem chars_object (name : String) (v : Value) (ms : List (String × Value)) :
    (Value.object ((name, v) :: ms)).chars =
      '{' :: (quoted name ++ ':' :: (v.chars ++ memberChars ms)) := rfl

mutual

/-- The printed text of a value is laid out from its tokens. -/
theorem laid_append : ∀ (v : Value) {n : Nat} {ts : List Token} {cs : List Char}, Fits n v →
    EndsNumber cs → Laid ts cs → Laid (v.tokens ++ ts) (v.chars ++ cs)
  | .null, _, _, _, _, _, hrest => .solid .null (by simp) hrest
  | .bool true, _, _, _, _, _, hrest => .solid .true (by simp) hrest
  | .bool false, _, _, _, _, _, hrest => .solid .false (by simp) hrest
  | .nat k, _, _, _, _, hend, hrest => .token (.nat k) (fun _ _ => hend) hrest
  | .string s, _, _, _, _, _, hrest => .solid (.text s) (by simp) hrest
  | .array [], _, _, _, _, _, hrest =>
      have hclose := Laid.solid .closeArray (by simp) hrest
      Laid.solid (s := ['[']) .openArray (by simp) hclose
  | .array (v :: vs), _, ts, cs, .array h, _, hrest => by
      have hvs := laid_elements vs (fun w hw => h w (List.mem_cons_of_mem _ hw)) hrest
      have hv := laid_append v (h v List.mem_cons_self) (endsNumber_elementChars vs cs) hvs
      simpa [tokens, chars_array] using Laid.solid .openArray (by simp) hv
  | .object [], _, _, _, _, _, hrest =>
      have hclose := Laid.solid .closeObject (by simp) hrest
      Laid.solid (s := ['{']) .openObject (by simp) hclose
  | .object ((name, v) :: ms), _, ts, cs, .object h, _, hrest => by
      have hms := laid_members ms (fun m hm => h m (List.mem_cons_of_mem _ hm)) hrest
      have hv := laid_append v (h (name, v) List.mem_cons_self) (endsNumber_memberChars ms cs) hms
      have hname := Laid.solid (.text name) (by simp) (.solid .colon (by simp) hv)
      simpa [tokens, chars_object] using Laid.solid .openObject (by simp) hname

theorem laid_elements : ∀ (vs : List Value) {n : Nat} {ts : List Token} {cs : List Char},
    (∀ v ∈ vs, Fits n v) → Laid ts cs → Laid (elementTokens vs ++ ts) (elementChars vs ++ cs)
  | [], _, _, _, _, hrest => .solid .closeArray (by simp) hrest
  | v :: vs, _, ts, cs, h, hrest => by
      have hvs := laid_elements vs (fun w hw => h w (List.mem_cons_of_mem _ hw)) hrest
      have hv := laid_append v (h v List.mem_cons_self) (endsNumber_elementChars vs cs) hvs
      simpa [elementTokens, elementChars] using Laid.solid .comma (by simp) hv

theorem laid_members : ∀ (ms : List (String × Value)) {n : Nat} {ts : List Token}
    {cs : List Char}, (∀ m ∈ ms, Fits n m.2) → Laid ts cs →
    Laid (memberTokens ms ++ ts) (memberChars ms ++ cs)
  | [], _, _, _, _, hrest => .solid .closeObject (by simp) hrest
  | (name, v) :: ms, _, ts, cs, h, hrest => by
      have hms := laid_members ms (fun m hm => h m (List.mem_cons_of_mem _ hm)) hrest
      have hv := laid_append v (h (name, v) List.mem_cons_self) (endsNumber_memberChars ms cs) hms
      have hname := Laid.solid (.text name) (by simp) (.solid .colon (by simp) hv)
      simpa [memberTokens, memberChars] using Laid.solid .comma (by simp) hname

end

/-- The printed text of a value, read as its tokens. -/
theorem Fits.laid {n : Nat} {v : Value} (h : Fits n v) : Laid v.tokens v.compact.toList := by
  have hend : EndsNumber [] := fun c hc => by cases hc
  simpa [compact] using laid_append v h hend .done

end Value

/-! ## Keeping a whole text -/

namespace Value

mutual

theorem sound_tokens : ∀ (v : Value) {n : Nat}, Fits n v → ∀ t ∈ v.tokens, t.isSound = true
  | .null, _, _ => by simp [tokens, Token.isSound]
  | .bool b, _, _ => by simp [tokens, Token.isSound]
  | .nat k, _, .nat h => by simp [tokens, Token.isSound, Numeral.nat?_ofNat h]
  | .string s, _, _ => by simp [tokens, Token.isSound]
  | .array [], _, _ => by simp [tokens, Token.isSound]
  | .array (v :: vs), _, .array h => by
      have hv := sound_tokens v (h v List.mem_cons_self)
      have hvs := sound_elements vs fun w hw => h w (List.mem_cons_of_mem _ hw)
      simpa [tokens, Token.isSound, or_imp, forall_and] using ⟨hv, hvs⟩
  | .object [], _, _ => by simp [tokens, Token.isSound]
  | .object ((name, v) :: ms), _, .object h => by
      have hv := sound_tokens v (h (name, v) List.mem_cons_self)
      have hms := sound_members ms fun m hm => h m (List.mem_cons_of_mem _ hm)
      simpa [tokens, Token.isSound, or_imp, forall_and] using ⟨hv, hms⟩

theorem sound_elements : ∀ (vs : List Value) {n : Nat}, (∀ v ∈ vs, Fits n v) →
    ∀ t ∈ elementTokens vs, t.isSound = true
  | [], _, _ => by simp [elementTokens, Token.isSound]
  | v :: vs, _, h => by
      have hv := sound_tokens v (h v List.mem_cons_self)
      have hvs := sound_elements vs fun w hw => h w (List.mem_cons_of_mem _ hw)
      simpa [elementTokens, Token.isSound, or_imp, forall_and] using ⟨hv, hvs⟩

theorem sound_members : ∀ (ms : List (String × Value)) {n : Nat}, (∀ m ∈ ms, Fits n m.2) →
    ∀ t ∈ memberTokens ms, t.isSound = true
  | [], _, _ => by simp [memberTokens, Token.isSound]
  | (name, v) :: ms, _, h => by
      have hv := sound_tokens v (h (name, v) List.mem_cons_self)
      have hms := sound_members ms fun m hm => h m (List.mem_cons_of_mem _ hm)
      simpa [memberTokens, Token.isSound, or_imp, forall_and] using ⟨hv, hms⟩

end

end Value

/-- What one token does to the depth and the largest depth. -/
def Token.deepen (p : Nat × Nat) (t : Token) : Nat × Nat :=
  (t.depthAfter p.1, max (t.depthAfter p.1) p.2)

theorem nesting_eq (ts : List Token) : nesting ts = (ts.foldl Token.deepen (0, 0)).2 := rfl

namespace Value

mutual

/-- A value ends at the depth where it starts, and goes no deeper than it nests. -/
theorem deepen_tokens : ∀ (v : Value) {n : Nat} (d m : Nat), Fits n v →
    ∃ m' ≤ max m (d + n), v.tokens.foldl Token.deepen (d, m) = (d, m')
  | .null, _, d, m, _ => ⟨max d m, by omega, rfl⟩
  | .bool _, _, d, m, _ => ⟨max d m, by omega, rfl⟩
  | .nat _, _, d, m, _ => ⟨max d m, by omega, rfl⟩
  | .string _, _, d, m, _ => ⟨max d m, by omega, rfl⟩
  | .array [], n + 1, d, m, _ => ⟨max d (max (d + 1) m), by omega, rfl⟩
  | .array (v :: vs), n + 1, d, m, .array h => by
      obtain ⟨m₁, hm₁, hv⟩ := deepen_tokens v (d + 1) (max (d + 1) m) (h v List.mem_cons_self)
      obtain ⟨m₂, hm₂, hvs⟩ := deepen_elements vs d m₁ fun w hw => h w (List.mem_cons_of_mem _ hw)
      refine ⟨m₂, by omega, ?_⟩
      rw [tokens, List.foldl_cons, List.foldl_append, ← hvs, ← hv]
      rfl
  | .object [], n + 1, d, m, _ => ⟨max d (max (d + 1) m), by omega, rfl⟩
  | .object ((name, v) :: ms), n + 1, d, m, .object h => by
      obtain ⟨m₁, hm₁, hv⟩ := deepen_tokens v (d + 1)
        (max (d + 1) (max (d + 1) (max (d + 1) m))) (h _ List.mem_cons_self)
      obtain ⟨m₂, hm₂, hms⟩ := deepen_members ms d m₁ fun w hw => h w (List.mem_cons_of_mem _ hw)
      refine ⟨m₂, by omega, ?_⟩
      rw [tokens, List.foldl_cons, List.foldl_cons, List.foldl_cons, List.foldl_append, ← hms, ← hv]
      rfl

theorem deepen_elements : ∀ (vs : List Value) {n : Nat} (d m : Nat), (∀ v ∈ vs, Fits n v) →
    ∃ m' ≤ max m (d + 1 + n), (elementTokens vs).foldl Token.deepen (d + 1, m) = (d, m')
  | [], _, d, m, _ => ⟨max d m, by omega, rfl⟩
  | v :: vs, _, d, m, h => by
      obtain ⟨m₁, hm₁, hv⟩ := deepen_tokens v (d + 1) (max (d + 1) m) (h v List.mem_cons_self)
      obtain ⟨m₂, hm₂, hvs⟩ := deepen_elements vs d m₁ fun w hw => h w (List.mem_cons_of_mem _ hw)
      refine ⟨m₂, by omega, ?_⟩
      rw [elementTokens, List.foldl_cons, List.foldl_append, ← hvs, ← hv]
      rfl

theorem deepen_members : ∀ (ms : List (String × Value)) {n : Nat} (d m : Nat),
    (∀ w ∈ ms, Fits n w.2) →
    ∃ m' ≤ max m (d + 1 + n), (memberTokens ms).foldl Token.deepen (d + 1, m) = (d, m')
  | [], _, d, m, _ => ⟨max d m, by omega, rfl⟩
  | (name, v) :: ms, _, d, m, h => by
      obtain ⟨m₁, hm₁, hv⟩ := deepen_tokens v (d + 1)
        (max (d + 1) (max (d + 1) (max (d + 1) m))) (h _ List.mem_cons_self)
      obtain ⟨m₂, hm₂, hms⟩ := deepen_members ms d m₁ fun w hw => h w (List.mem_cons_of_mem _ hw)
      refine ⟨m₂, by omega, ?_⟩
      rw [memberTokens, List.foldl_cons, List.foldl_cons, List.foldl_cons, List.foldl_append,
        ← hms, ← hv]
      rfl

end

/-- Tokens of a value nest no deeper than the value. -/
theorem Fits.nesting_le {n : Nat} {v : Value} (h : Fits n v) : nesting v.tokens ≤ n := by
  obtain ⟨m, hm, hfold⟩ := deepen_tokens v 0 0 h
  rw [nesting_eq, hfold]
  omega

end Value

/-! ## Parsing -/

namespace Value

/-- An object whose names all have a meaning. -/
theorem ofMembers_some (ms : List (String × Value)) :
    ofMembers (ms.map fun m => (some m.1, m.2)) = .object ms := by
  have hnames : (ms.map fun m => (some m.1, m.2)).mapM
      (fun (m : Option String × Value) => m.1.map (·, m.2)) = some ms := by
    induction ms with
    | nil => rfl
    | cons m ms ih => simp_all [List.mapM_cons]
  simp only [ofMembers, hnames]

mutual

/-- Where a value may stand, its tokens are read as the complete value.  The end of an empty
array may stand there too, but no value starts with it. -/
theorem foldlM_tokens : ∀ (v : Value) {n : Nat} (frames : List Frame) {need : Need}, Fits n v →
    need = .value ∨ need = .valueOrEnd →
    v.tokens.foldlM Parser.step ⟨frames, need⟩ = Parser.complete frames v
  | .null, _, frames, _, _, hneed => by
      rcases hneed with rfl | rfl <;> simp [tokens, Parser.step, Parser.beginValue]
  | .bool b, _, frames, _, _, hneed => by
      rcases hneed with rfl | rfl <;> simp [tokens, Parser.step, Parser.beginValue]
  | .nat k, _, frames, _, .nat h, hneed => by
      rcases hneed with rfl | rfl <;>
        simp [tokens, Parser.step, Parser.beginValue, ofNumeral, Numeral.nat?_ofNat h]
  | .string s, _, frames, _, _, hneed => by
      rcases hneed with rfl | rfl <;> simp [tokens, Parser.step, Parser.beginValue]
  | .array [], _, frames, _, _, hneed => by
      rcases hneed with rfl | rfl <;>
        simp [tokens, Parser.step, Parser.beginValue, Parser.close]
  | .array (v :: vs), n + 1, frames, _, .array h, hneed => by
      have hv := foldlM_tokens v (.array [] :: frames) (h v List.mem_cons_self) (.inr rfl)
      have hvs := foldlM_elements vs [v] frames fun w hw => h w (List.mem_cons_of_mem _ hw)
      rcases hneed with rfl | rfl <;>
        simp [tokens, Parser.step, Parser.beginValue, List.foldlM_append, hv, hvs, Parser.complete]
  | .object [], n + 1, frames, _, _, hneed => by
      rcases hneed with rfl | rfl <;>
        simp [tokens, Parser.step, Parser.beginValue, Parser.close, ofMembers]
  | .object ((name, v) :: ms), n + 1, frames, _, .object h, hneed => by
      have hv := foldlM_tokens v (.member (some name) :: .object [] :: frames)
        (h _ List.mem_cons_self) (.inl rfl)
      have hms := foldlM_members ms [(some name, v)] frames fun w hw =>
        h w (List.mem_cons_of_mem _ hw)
      have hobject := ofMembers_some ((name, v) :: ms)
      rcases hneed with rfl | rfl <;>
        simp_all [tokens, Parser.step, Parser.beginValue, Parser.beginMember, List.foldlM_append,
          Parser.complete]

theorem foldlM_elements : ∀ (vs : List Value) {n : Nat} (acc : List Value) (frames : List Frame),
    (∀ v ∈ vs, Fits n v) →
    (elementTokens vs).foldlM Parser.step ⟨.array acc :: frames, .separator⟩
      = Parser.complete frames (.array (acc.reverse ++ vs))
  | [], _, acc, frames, _ => by simp [elementTokens, Parser.step, Parser.close]
  | v :: vs, _, acc, frames, h => by
      have hv := foldlM_tokens v (.array acc :: frames) (h v List.mem_cons_self) (.inl rfl)
      have hvs := foldlM_elements vs (v :: acc) frames fun w hw => h w (List.mem_cons_of_mem _ hw)
      simp [elementTokens, Parser.step, List.foldlM_append, hv, hvs, Parser.complete]

theorem foldlM_members : ∀ (ms : List (String × Value)) {n : Nat}
    (acc : List (Option String × Value)) (frames : List Frame), (∀ m ∈ ms, Fits n m.2) →
    (memberTokens ms).foldlM Parser.step ⟨.object acc :: frames, .separator⟩
      = Parser.complete frames (.ofMembers (acc.reverse ++ ms.map fun m => (some m.1, m.2)))
  | [], _, acc, frames, _ => by simp [memberTokens, Parser.step, Parser.close]
  | (name, v) :: ms, _, acc, frames, h => by
      have hv := foldlM_tokens v (.member (some name) :: .object acc :: frames)
        (h _ List.mem_cons_self) (.inl rfl)
      have hms := foldlM_members ms ((some name, v) :: acc) frames fun w hw =>
        h w (List.mem_cons_of_mem _ hw)
      simp [memberTokens, Parser.step, Parser.beginMember, List.foldlM_append, hv, hms,
        Parser.complete]

end

/-- The value of a text that is laid out from the tokens of a value. -/
theorem Fits.ofTextWithin?_eq {n limit : Nat} {v : Value} (h : Fits n v) (hn : n ≤ limit)
    {s : String} (hs : Laid v.tokens s.toList) : ofTextWithin? limit s = some v := by
  have hnesting : nesting v.tokens ≤ limit := Nat.le_trans h.nesting_le hn
  have hvalue : ofTokens? v.tokens = some v := by
    simp [ofTokens?, foldlM_tokens v [] h (.inl rfl), Parser.complete, Parser.finish?]
  simpa [ofTextWithin?, hs.ofText?_eq, hnesting, hvalue] using sound_tokens v h

end Value

end GpuAudit.Json
