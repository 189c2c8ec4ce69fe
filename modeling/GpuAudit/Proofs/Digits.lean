import GpuAudit.Text.Hex

/-!
# Numbers from their digits

The digits of a number, each read back, write the number again.  The text of a number
is opened once, as the characters of a list of digit values (`exists_digitValues`); what
decimal and hexadecimal readers make of it follows from how they read one digit.
-/

namespace GpuAudit.Text

variable {b n : Nat} {read : Char → Option Nat}

/-! ## Digit values -/

theorem ofDigits_concat (b d : Nat) (ds : List Nat) :
    ofDigits b (ds ++ [d]) = ofDigits b ds * b + d := by
  simp [ofDigits]

/-- The digits of a number as values.  Only the number zero starts with a zero. -/
theorem exists_digitValues (hb : 1 < b) (n : Nat) :
    ∃ ds : List Nat, Nat.toDigits b n = ds.map Nat.digitChar ∧ (∀ d ∈ ds, d < b) ∧
      ofDigits b ds = n ∧ ∃ d rest, ds = d :: rest ∧ (d = 0 → n = 0 ∧ rest = []) := by
  induction n using Nat.strongRecOn with
  | _ n ih =>
      by_cases hn : n < b
      · exact ⟨[n], by simp [Nat.toDigits_of_lt_base hn], by simpa using hn,
          by simp [ofDigits], n, [], rfl, by simp⟩
      · have hle : b ≤ n := by omega
        obtain ⟨ds, hds, hlt, hval, d, rest, rfl, hd⟩ :=
          ih (n / b) (Nat.div_lt_self (by omega) hb)
        refine ⟨d :: rest ++ [n % b], ?_, ?_, ?_, d, rest ++ [n % b], rfl, ?_⟩
        · simp [Nat.toDigits_of_base_le hb hle, hds]
        · intro e he
          rcases List.mem_append.1 he with he | he
          · exact hlt e he
          · obtain rfl : e = n % b := by simpa using he
            exact Nat.mod_lt n (by omega)
        · rw [ofDigits_concat, hval]
          exact Nat.div_add_mod' n b
        · intro h0
          -- the quotient has digits of its own, so it is not zero
          have hpos : 0 < n / b := Nat.div_pos hle (by omega)
          omega

/-! ## Reading digits -/

/-- A reader of single digits reads any list of them. -/
theorem mapM_digitChar (hread : ∀ d < b, read d.digitChar = some d) {ds : List Nat}
    (hds : ∀ d ∈ ds, d < b) : (ds.map Nat.digitChar).mapM read = some ds := by
  induction ds with
  | nil => rfl
  | cons d ds ih =>
      have hrest := ih fun e he => hds e (List.mem_cons_of_mem _ he)
      simp [List.mapM_cons, hread d (hds d List.mem_cons_self), hrest]

theorem filterMap_digitChar (hread : ∀ d < b, read d.digitChar = some d) {ds : List Nat}
    (hds : ∀ d ∈ ds, d < b) : (ds.map Nat.digitChar).filterMap read = ds := by
  induction ds with
  | nil => rfl
  | cons d ds ih =>
      have hrest := ih fun e he => hds e (List.mem_cons_of_mem _ he)
      simp [hread d (hds d List.mem_cons_self), hrest]

theorem hexDigit?_digitChar : ∀ d < 16, hexDigit? d.digitChar = some d := by decide

theorem digit?_digitChar : ∀ d < 10, digit? d.digitChar = some d := by decide

/-- The decimal digits of a number write it. -/
theorem ofDigits_filterMap_toDigits (n : Nat) :
    ofDigits 10 ((Nat.toDigits 10 n).filterMap digit?) = n := by
  obtain ⟨ds, hds, hlt, hval, -⟩ := exists_digitValues (b := 10) (by decide) n
  rw [hds, filterMap_digitChar digit?_digitChar hlt, hval]

/-! ## Decimal digits -/

/-- Every character of a decimal number is a digit. -/
theorem isDigit_toDigits {c : Char} (h : c ∈ Nat.toDigits 10 n) : c.isDigit = true :=
  Nat.isDigit_of_mem_toDigits (by decide) (by decide) h

/-- A decimal number is a single zero or starts with another digit. -/
theorem toDigits_head (n : Nat) :
    Nat.toDigits 10 n = ['0'] ∨ ∃ c rest, Nat.toDigits 10 n = c :: rest ∧ c ≠ '0' := by
  obtain ⟨ds, hds, -, -, d, rest, rfl, hd⟩ := exists_digitValues (b := 10) (by decide) n
  by_cases h0 : d = 0
  · left
    rw [(hd h0).1, Nat.toDigits_zero]
  · right
    exact ⟨d.digitChar, rest.map Nat.digitChar, hds, fun h => h0 (Nat.digitChar_eq_zero.1 h)⟩

end GpuAudit.Text
