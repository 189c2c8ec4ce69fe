import Mathlib.Data.List.TakeWhile
import GpuAudit.Json.Printer
import GpuAudit.Json.Token
import GpuAudit.Proofs.Digits

/-!
# Texts and their tokens

`Laid ts cs` says that the characters `cs` are the tokens `ts` one after the other, each
spelt as the printer spells it, with any space before, between and behind them.  The
lexer reads the tokens of such a text and nothing else (`Laid.ofText?_eq`).

A number has no end of its own.  The lexer ends it at the first character that cannot
continue it, so in a text that is laid out such a character follows, or nothing.  Every
other token ends itself, and after it the lexer is between tokens again.
-/

namespace GpuAudit.Json

/-! ## Spelling -/

namespace Numeral

/-- The numeral of a natural number. -/
def ofNat (n : Nat) : Numeral := ofChars (Nat.toDigits 10 n)

/-- Digits alone are a number with nothing but digits before the point. -/
theorem ofChars_digits {cs : List Char} (hcs : ∀ c ∈ cs, c.isDigit = true) :
    ofChars cs = ⟨false, cs.filterMap Text.digit?, [], false, []⟩ := by
  have htake := List.takeWhile_eq_self_iff.2 hcs
  have hdrop := List.dropWhile_eq_nil_iff.2 hcs
  cases cs with
  | nil => rfl
  | cons c cs =>
      -- a digit is not a minus sign
      have hsign : c ≠ '-' := fun h => absurd (hcs c List.mem_cons_self) (by simp [h])
      simp [ofChars, hsign, htake, hdrop, ofChars.values]

/-- A number that fits 64 bits is the value of its numeral. -/
theorem nat?_ofNat {n : Nat} (h : n < UInt64.size) : (ofNat n).nat? = some n := by
  rw [ofNat, ofChars_digits fun _ => Text.isDigit_toDigits]
  simp [nat?, Text.ofDigits_filterMap_toDigits, h]

end Numeral

/-- How tokens are spelt.  A string has one spelling here, the printer's. -/
inductive Token.Spelt : Token → List Char → Prop
  | openArray : Spelt .openArray ['[']
  | closeArray : Spelt .closeArray [']']
  | openObject : Spelt .openObject ['{']
  | closeObject : Spelt .closeObject ['}']
  | comma : Spelt .comma [',']
  | colon : Spelt .colon [':']
  | null : Spelt .null "null".toList
  | true : Spelt (.bool true) "true".toList
  | false : Spelt (.bool false) "false".toList
  | nat (n : Nat) : Spelt (.number (.ofNat n)) (Nat.toDigits 10 n)
  | text (s : String) : Spelt (.text (some s)) (quoted s)

/-- What may follow a number: nothing, or a character that does not continue it. -/
def EndsNumber (cs : List Char) : Prop := ∀ c ∈ cs.head?, NumberPart.whole.next? c = none

/-- Tokens one after the other, with space anywhere. -/
inductive Laid : List Token → List Char → Prop
  | done : Laid [] []
  | space {c : Char} {ts : List Token} {cs : List Char} (hc : Lexer.isSpace c = true)
      (rest : Laid ts cs) : Laid ts (c :: cs)
  | token {t : Token} {s : List Char} {ts : List Token} {cs : List Char} (ht : t.Spelt s)
      (hend : ∀ n, t = .number n → EndsNumber cs) (rest : Laid ts cs) : Laid (t :: ts) (s ++ cs)

/-- A token that is not a number, whatever follows it. -/
theorem Laid.solid {t : Token} {s : List Char} {ts : List Token} {cs : List Char}
    (ht : t.Spelt s) (hn : ∀ n, t ≠ .number n) (rest : Laid ts cs) : Laid (t :: ts) (s ++ cs) :=
  .token ht (fun n h => absurd h (hn n)) rest

/-! ## Reading on -/

namespace Lexer

/-- The tokens of a text of which the lexer has read a part. -/
def read (l : Lexer) (cs : List Char) : Option (List Token) := (cs.foldlM step l).bind finish?

variable {l l' : Lexer} {toks : List Token} {cs : List Char}

@[simp] theorem read_nil : l.read [] = l.finish? := rfl

@[simp] theorem read_cons (c : Char) (cs : List Char) :
    l.read (c :: cs) = (l.step c).bind (·.read cs) := by
  simp only [read, List.foldlM_cons]
  cases l.step c <;> rfl

theorem read_append (h : cs.foldlM step l = some l') (rest : List Char) :
    l.read (cs ++ rest) = l'.read rest := by
  simp [read, List.foldlM_append, h]

/-! ## Numbers -/

theorem begin?_digit {c : Char} (hc : c.isDigit = true) :
    begin? toks c = (NumberPart.sign.next? c).map fun part => ⟨toks, .number [c] part⟩ := by
  have hspace : isSpace c = false := by
    refine Bool.eq_false_iff.2 fun h => ?_
    simp only [isSpace, Bool.or_eq_true, decide_eq_true_eq] at h
    rcases h with ((rfl | rfl) | rfl) | rfl <;> exact absurd hc (by decide)
  unfold begin?
  -- a character with a case of its own is no digit
  split <;> first | exact absurd hc (by decide) | simp [hspace]

/-- Digits continue the part of a number before the point. -/
theorem foldlM_digits (toks : List Token) {ds chars : List Char}
    (hds : ∀ c ∈ ds, c.isDigit = true) :
    ds.foldlM step ⟨toks, .number chars .whole⟩
      = some ⟨toks, .number (ds.reverse ++ chars) .whole⟩ := by
  induction ds generalizing chars with
  | nil => rfl
  | cons d ds ih =>
      have hd : NumberPart.whole.next? d = some .whole := by
        simp [NumberPart.next?, hds d List.mem_cons_self]
      simp [List.foldlM_cons, step, hd, ih fun c hc => hds c (List.mem_cons_of_mem _ hc)]

theorem next?_zero {c : Char} (h : NumberPart.whole.next? c = none) :
    NumberPart.zero.next? c = none := by
  unfold NumberPart.next? at *
  by_cases hc : c.isDigit = true <;> simp_all

/-- The digits of a number leave the lexer in a number that may end there. -/
theorem foldlM_toDigits (toks : List Token) (n : Nat) :
    ∃ part : NumberPart, part.isComplete = true ∧
    (∀ c, NumberPart.whole.next? c = none → part.next? c = none) ∧
    (Nat.toDigits 10 n).foldlM step ⟨toks, .between⟩
      = some ⟨toks, .number (Nat.toDigits 10 n).reverse part⟩ := by
  rcases Text.toDigits_head n with h | ⟨c, rest, h, hc⟩
  · exact ⟨.zero, rfl, fun _ => next?_zero, by rw [h]; rfl⟩
  · have hdigits : ∀ d ∈ c :: rest, d.isDigit = true := fun d hd =>
      Text.isDigit_toDigits (h ▸ hd)
    have hhead : c.isDigit = true := hdigits c List.mem_cons_self
    have hfirst : step ⟨toks, .between⟩ c = some ⟨toks, .number [c] .whole⟩ := by
      simp [step, begin?_digit hhead, NumberPart.next?, hhead, hc]
    refine ⟨.whole, rfl, fun _ h => h, ?_⟩
    rw [h, List.foldlM_cons, hfirst]
    simpa using foldlM_digits toks fun d hd => hdigits d (List.mem_cons_of_mem _ hd)

/-- A number ends before whatever cannot continue it. -/
theorem read_number {chars : List Char} {part : NumberPart} (hpart : part.isComplete = true)
    (hend : ∀ c ∈ cs.head?, part.next? c = none) :
    read ⟨toks, .number chars part⟩ cs
      = read ⟨.number (.ofChars chars.reverse) :: toks, .between⟩ cs := by
  cases cs with
  | nil => simp [finish?, hpart]
  | cons c cs => simp [step, hpart, hend c (by simp)]

/-! ## Strings -/

/-- A unit that is no half of a pair is a character. -/
theorem joinPieces_unit {n : Nat} (hn : n < 0xd800) (rest : List Piece) :
    joinPieces (.unit n :: rest) = (joinPieces rest).map (Char.ofNat n :: ·) := by
  have hhigh : isHighHalf n = false := by simp [isHighHalf]; omega
  have hlow : isLowHalf n = false := by simp [isLowHalf]; omega
  cases rest with
  | nil => simp [joinPieces, hhigh, hlow]
  | cons p rest => cases p <;> simp [joinPieces, hhigh, hlow]

/-- Four hexadecimal digits make a unit. -/
theorem foldlM_unit (toks : List Token) (ps : List Piece) {a b c d : Nat} (ha : a < 16)
    (hb : b < 16) (hc : c < 16) (hd : d < 16) :
    ([a, b, c, d].map Nat.digitChar).foldlM step ⟨toks, .unit ps []⟩
      = some ⟨toks, .string (.unit (Text.ofDigits 16 [a, b, c, d]) :: ps)⟩ := by
  simp [step, Text.hexDigit?_digitChar, ha, hb, hc, hd]

/-- A control character, written as a unit. -/
theorem foldlM_control (toks : List Token) (ps : List Piece) {n : Nat} (hn : n < 0x20) :
    ((if n < 0x10 then ['\\', 'u', '0', '0', '0'] else ['\\', 'u', '0', '0'])
        ++ Text.hexDigits n).foldlM step ⟨toks, .string ps⟩
      = some ⟨toks, .string (.unit n :: ps)⟩ := by
  have hdiv : n / 16 < 16 := by omega
  have hmod : n % 16 < 16 := by omega
  have hvalue : Text.ofDigits 16 [0, 0, n / 16, n % 16] = n := by simp [Text.ofDigits]; omega
  have hstart : ['\\', 'u'].foldlM step ⟨toks, .string ps⟩ = some ⟨toks, .unit ps []⟩ := rfl
  -- the number has one or two digits, and the printer fills the four places with zeros
  have hdigits : (if n < 0x10 then ['\\', 'u', '0', '0', '0'] else ['\\', 'u', '0', '0'])
      ++ Text.hexDigits n = ['\\', 'u'] ++ [0, 0, n / 16, n % 16].map Nat.digitChar := by
    by_cases h : n < 0x10
    · simp [h, Text.hexDigits, Nat.toDigits_of_lt_base h, Nat.div_eq_of_lt h, Nat.mod_eq_of_lt h,
        Nat.digitChar]
    · have hle : 16 ≤ n := by omega
      simp [h, Text.hexDigits, Nat.toDigits_of_base_le (by decide : 1 < 16) hle,
        Nat.toDigits_of_lt_base hdiv, Nat.digitChar]
  rw [hdigits, List.foldlM_append, hstart]
  simpa [hvalue] using foldlM_unit toks ps (a := 0) (b := 0) (by decide) (by decide)
    hdiv hmod

/-- The spelling of a character makes one part of a string, which stands for it. -/
theorem foldlM_escape (toks : List Token) (c : Char) (ps : List Piece) :
    ∃ p, (escape c).foldlM step ⟨toks, .string ps⟩ = some ⟨toks, .string (p :: ps)⟩ ∧
      ∀ rest, joinPieces (p :: rest) = (joinPieces rest).map (c :: ·) := by
  by_cases hshort : c ∈ ['"', '\\', '\x08', '\t', '\n', '\x0c', '\r']
  · simp only [List.mem_cons, List.not_mem_nil, or_false] at hshort
    refine ⟨.char c, ?_, fun _ => rfl⟩
    rcases hshort with rfl | rfl | rfl | rfl | rfl | rfl | rfl <;> rfl
  simp only [List.mem_cons, List.not_mem_nil, or_false, not_or] at hshort
  obtain ⟨h1, h2, h3, h4, h5, h6, h7⟩ := hshort
  by_cases hcontrol : c.toNat < 0x20
  · refine ⟨.unit c.toNat, ?_, fun rest => ?_⟩
    · rw [← foldlM_control toks ps hcontrol]
      by_cases h : c.toNat < 0x10 <;> simp [escape, *]
    · rw [joinPieces_unit (by omega), Char.ofNat_toNat]
  · have hself : escape c = [c] := by
      have : ¬ c.toNat < 0x10 := by omega
      simp [escape, *]
    exact ⟨.char c, by simp [hself, step, h1, h2, hcontrol], fun _ => rfl⟩

/-- The spelling of a text makes parts that stand for it. -/
theorem foldlM_flatMap_escape (toks : List Token) (cs : List Char) (ps : List Piece) :
    ∃ qs, (cs.flatMap escape).foldlM step ⟨toks, .string ps⟩
        = some ⟨toks, .string (qs.reverse ++ ps)⟩ ∧ joinPieces qs = some cs := by
  induction cs generalizing ps with
  | nil => exact ⟨[], rfl, rfl⟩
  | cons c cs ih =>
      obtain ⟨p, hp, hjoin⟩ := foldlM_escape toks c ps
      obtain ⟨qs, hqs, hcs⟩ := ih (p :: ps)
      refine ⟨p :: qs, ?_, by rw [hjoin, hcs]; rfl⟩
      simp [List.foldlM_append, hp, hqs]

theorem foldlM_quoted (toks : List Token) (s : String) :
    (quoted s).foldlM step ⟨toks, .between⟩ = some ⟨.text (some s) :: toks, .between⟩ := by
  obtain ⟨qs, hqs, hjoin⟩ := foldlM_flatMap_escape toks s.toList []
  have hopen : step ⟨toks, .between⟩ '"' = some ⟨toks, .string []⟩ := rfl
  rw [quoted, List.foldlM_cons, hopen]
  simp [List.foldlM_append, hqs, step, hjoin]

/-! ## Tokens -/

/-- The lexer reads a token where it stands. -/
theorem read_spelt {t : Token} {s : List Char} (ht : t.Spelt s)
    (hend : ∀ n, t = .number n → EndsNumber cs) :
    read ⟨toks, .between⟩ (s ++ cs) = read ⟨t :: toks, .between⟩ cs := by
  cases ht with
  | nat n =>
      obtain ⟨part, hpart, hnext, hread⟩ := foldlM_toDigits toks n
      rw [read_append hread, read_number hpart fun c hc => hnext c (hend _ rfl c hc),
        List.reverse_reverse]
      rfl
  | text s => exact read_append (foldlM_quoted toks s) cs
  | _ => exact read_append rfl cs

end Lexer

/-- The lexer reads a text as the tokens it was laid out from. -/
theorem Laid.read_eq {ts : List Token} {cs : List Char} (h : Laid ts cs) (toks : List Token) :
    Lexer.read ⟨toks, .between⟩ cs = some (toks.reverse ++ ts) := by
  induction h generalizing toks with
  | done => simp [Lexer.finish?]
  | @space c _ _ hc _ ih =>
      have hstep : Lexer.step ⟨toks, .between⟩ c = some ⟨toks, .between⟩ := by
        simp only [Lexer.isSpace, Bool.or_eq_true, decide_eq_true_eq] at hc
        rcases hc with ((rfl | rfl) | rfl) | rfl <;> rfl
      simp [hstep, ih]
  | token ht hend _ ih => rw [Lexer.read_spelt ht hend, ih]; simp

/-- The tokens of a text that is laid out. -/
theorem Laid.ofText?_eq {ts : List Token} {s : String} (h : Laid ts s.toList) :
    Token.ofText? s = some ts := by
  simpa [Token.ofText?, Lexer.read] using h.read_eq []

end GpuAudit.Json
