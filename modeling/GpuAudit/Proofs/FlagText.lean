import GpuAudit.Flags
import GpuAudit.Proofs.Digits

/-!
# Flag sets from their text

The text of a flag set is read back as the same set, whatever its bits
(`Flags.ofText?_toText`).

There are two halves.  A text that joins parts with ` | ` is cut into those parts again
(`map_trim_splitOn`), provided that no part is empty or holds a blank or a bar.  And the
parts of a set give its bits: bit by bit a name gives its own bit
(`foldlM_namesFrom`), and the number that stands last gives the bits without a name.
What is used of the five sets is `Flags.names_spelt`: no name is spelt like another or
like a number, and there are no more names than bits.
-/

namespace GpuAudit

/-! ## Parts of a text -/

namespace Text

/-- A part that keeps its shape in a text of parts: it is not empty and holds neither a
blank nor a bar. -/
def IsPart (cs : List Char) : Prop := cs ≠ [] ∧ ∀ c ∈ cs, isBlank c = false ∧ c ≠ '|'

instance (cs : List Char) : Decidable (IsPart cs) :=
  decidable_of_iff (cs ≠ [] ∧ (cs.all fun c => !isBlank c && c ≠ '|') = true) (by simp [IsPart])

theorem dropWhile_blank {before cs : List Char} (hbefore : ∀ c ∈ before, isBlank c = true)
    (hhead : ∀ c ∈ cs.head?, isBlank c = false) : (before ++ cs).dropWhile isBlank = cs := by
  rw [List.dropWhile_append_of_pos hbefore]
  cases cs with
  | nil => rfl
  | cons c cs => simp [hhead c rfl]

/-- Trimming takes the blanks around a text whose two ends are not blank. -/
theorem trim_pad {before cs after : List Char} (hbefore : ∀ c ∈ before, isBlank c = true)
    (hafter : ∀ c ∈ after, isBlank c = true) (hcs : cs ≠ [])
    (hhead : ∀ c ∈ cs.head?, isBlank c = false) (hlast : ∀ c ∈ cs.getLast?, isBlank c = false) :
    trim (before ++ cs ++ after) = cs := by
  have hfront : (before ++ (cs ++ after)).dropWhile isBlank = cs ++ after := by
    refine dropWhile_blank hbefore fun c hc => hhead c ?_
    cases cs with
    | nil => exact absurd rfl hcs
    | cons => exact hc
  have hback : (after.reverse ++ cs.reverse).dropWhile isBlank = cs.reverse :=
    dropWhile_blank (fun c hc => hafter c (List.mem_reverse.1 hc)) fun c hc =>
      hlast c (by rwa [List.head?_reverse] at hc)
  rw [trim, List.append_assoc, hfront, List.reverse_append, hback, List.reverse_reverse]

theorem IsPart.trim_pad {before cs after : List Char} (h : IsPart cs)
    (hbefore : ∀ c ∈ before, isBlank c = true) (hafter : ∀ c ∈ after, isBlank c = true) :
    trim (before ++ cs ++ after) = cs :=
  Text.trim_pad hbefore hafter h.1 (fun c hc => (h.2 c (List.mem_of_mem_head? hc)).1)
    fun c hc => (h.2 c (List.mem_of_mem_getLast? hc)).1

/-! ## Joining and cutting -/

theorem splitOn_of_notMem {sep : Char} {cs : List Char} (h : sep ∉ cs) :
    splitOn sep cs = [cs] := by
  induction cs with
  | nil => rfl
  | cons c cs ih =>
      obtain ⟨hc, hcs⟩ := not_or.1 (mt List.mem_cons.2 h)
      simp [splitOn, Ne.symm hc, ih hcs]

theorem splitOn_append {sep : Char} {cs : List Char} (h : sep ∉ cs) (rest : List Char) :
    splitOn sep (cs ++ sep :: rest) = cs :: splitOn sep rest := by
  induction cs with
  | nil => simp [splitOn]
  | cons c cs ih =>
      obtain ⟨hc, hcs⟩ := not_or.1 (mt List.mem_cons.2 h)
      simp [splitOn, Ne.symm hc, ih hcs]

/-- What stands between two parts. -/
def bar : List Char := [' ', '|', ' ']

theorem blank_space : ∀ c ∈ [' '], isBlank c = true ∧ c ≠ '|' := by
  intro c hc
  rw [List.mem_singleton.1 hc]
  decide

/-- Parts that are joined are found again by cutting at the bars. -/
theorem map_trim_splitOn {before : List Char} (hbefore : ∀ c ∈ before, isBlank c = true ∧ c ≠ '|')
    (p : List Char) (ps : List (List Char)) (hps : ∀ q ∈ p :: ps, IsPart q) :
    (splitOn '|' (before ++ bar.intercalate (p :: ps))).map trim = p :: ps := by
  have hp : IsPart p := hps p List.mem_cons_self
  have hblank : ∀ c ∈ before, isBlank c = true := fun c hc => (hbefore c hc).1
  induction ps generalizing before p with
  | nil =>
      have hbar : '|' ∉ before ++ p := fun h =>
        (List.mem_append.1 h).elim (fun h => (hbefore _ h).2 rfl) fun h => (hp.2 _ h).2 rfl
      have htrim : trim (before ++ p ++ []) = p := hp.trim_pad hblank (by simp)
      rw [List.append_nil] at htrim
      simp [splitOn_of_notMem hbar, htrim]
  | cons q ps ih =>
      have hbar : '|' ∉ before ++ p ++ [' '] := by
        simp only [List.mem_append, not_or]
        exact ⟨⟨fun h => (hbefore _ h).2 rfl, fun h => (hp.2 _ h).2 rfl⟩,
          fun h => (blank_space _ h).2 rfl⟩
      have htrim : trim (before ++ p ++ [' ']) = p :=
        hp.trim_pad hblank fun c hc => (blank_space c hc).1
      have hrest : (splitOn '|' ([' '] ++ bar.intercalate (q :: ps))).map trim = q :: ps :=
        ih blank_space q (fun r hr => hps r (List.mem_cons_of_mem _ hr)) (hps q (by simp))
          fun c hc => (blank_space c hc).1
      have hcut : before ++ bar.intercalate (p :: q :: ps)
          = before ++ p ++ [' '] ++ '|' :: ([' '] ++ bar.intercalate (q :: ps)) := by
        simp [List.intercalate_cons_cons, bar]
      rw [hcut, splitOn_append hbar, List.map_cons, htrim, hrest]

theorem intercalate_ne_nil {p : List Char} (hp : p ≠ []) (ps : List (List Char)) :
    bar.intercalate (p :: ps) ≠ [] := by
  cases ps <;> simp [List.intercalate_cons_cons, hp]

theorem head?_intercalate {p : List Char} (hp : p ≠ []) (ps : List (List Char)) :
    (bar.intercalate (p :: ps)).head? = p.head? := by
  cases p with
  | nil => exact absurd rfl hp
  | cons => cases ps <;> simp [List.intercalate_cons_cons]

/-- Joined parts end as some part ends. -/
theorem getLast?_intercalate (p : List Char) (ps : List (List Char)) (hps : ∀ q ∈ p :: ps, q ≠ []) :
    ∃ q ∈ p :: ps, (bar.intercalate (p :: ps)).getLast? = q.getLast? := by
  induction ps generalizing p with
  | nil => exact ⟨p, by simp, by simp⟩
  | cons q ps ih =>
      obtain ⟨r, hr, hlast⟩ := ih q fun r hr => hps r (List.mem_cons_of_mem _ hr)
      refine ⟨r, List.mem_cons_of_mem _ hr, ?_⟩
      obtain ⟨c, hc⟩ := Option.ne_none_iff_exists'.1 (mt List.getLast?_eq_none_iff.1
        (intercalate_ne_nil (hps q (by simp)) ps))
      rw [← hlast, List.intercalate_cons_cons, List.getLast?_append, hc]
      rfl

/-- Nothing is trimmed off joined parts. -/
theorem trim_intercalate (p : List Char) (ps : List (List Char)) (hps : ∀ q ∈ p :: ps, IsPart q) :
    trim (bar.intercalate (p :: ps)) = bar.intercalate (p :: ps) := by
  have hp : IsPart p := hps p List.mem_cons_self
  obtain ⟨q, hq, hlast⟩ := getLast?_intercalate p ps fun q hq => (hps q hq).1
  have hpad : trim ([] ++ bar.intercalate (p :: ps) ++ []) = bar.intercalate (p :: ps) := by
    refine trim_pad (by simp) (by simp) (intercalate_ne_nil hp.1 ps) (fun c hc => ?_) fun c hc => ?_
    · rw [head?_intercalate hp.1] at hc
      exact (hp.2 c (List.mem_of_mem_head? hc)).1
    · rw [hlast] at hc
      exact ((hps q hq).2 c (List.mem_of_mem_getLast? hc)).1
  simpa using hpad

end Text

/-! ## Bits of a set -/

namespace Flags

open Text

variable {set : FlagSet}

/-- Whether a bit is set, named or not. -/
def has (f : Flags set) (j : Nat) : Bool := f.bits.toNat.testBit j

theorem ext_has {f g : Flags set} (h : ∀ j, f.has j = g.has j) : f = g := by
  obtain ⟨f⟩ := f
  obtain ⟨g⟩ := g
  have hbits : f.toNat = g.toNat := Nat.eq_of_testBit_eq h
  rw [UInt32.toNat_inj.1 hbits]

@[simp] theorem has_empty (j : Nat) : (empty : Flags set).has j = false := by
  simp [has, empty]

@[simp] theorem has_union (f g : Flags set) (j : Nat) :
    (f.union g).has j = (f.has j || g.has j) := by
  simp [has, union]

theorem has_bit {i : Nat} (hi : i < 32) (j : Nat) : (bit i : Flags set).has j = decide (i = j) := by
  have hlt : 1 <<< i < UInt32.size := by
    rw [Nat.one_shiftLeft]
    exact Nat.pow_lt_pow_of_lt (by decide) hi
  simp only [has, bit, UInt32.toNat_ofNat_of_lt' hlt]
  rw [Nat.one_shiftLeft, Nat.testBit_two_pow]

theorem has_ofNat {n : Nat} (hn : n < UInt32.size) (j : Nat) :
    (⟨UInt32.ofNat n⟩ : Flags set).has j = n.testBit j := by
  simp only [has, UInt32.toNat_ofNat_of_lt' hn]

/-! ## Reading the parts -/

/-- The names of a set: not more than there are bits, each spelt as a part and read as
its own bit. -/
theorem names_spelt (set : FlagSet) : set.flagNames.length ≤ 32 ∧
    ∀ i, (h : i < set.flagNames.length) → IsPart set.flagNames[i].toList ∧
      (ofPart set.flagNames[i].toList : Option (Flags set)) = some (bit i) := by
  cases set <;> decide +kernel

/-- The flags of one more part. -/
def add (f : Flags set) (part : List Char) : Option (Flags set) := (ofPart part).map f.union

/-- The names of the set bits add those bits, among the ones that have a name. -/
theorem foldlM_namesFrom {bits i : Nat} {names : List String} (f : Flags set)
    (hlen : i + names.length ≤ 32) (hnames : ∀ k, (h : k < names.length) →
      (ofPart names[k].toList : Option (Flags set)) = some (bit (i + k))) :
    ∃ g : Flags set, ((namesFrom bits i names).map String.toList).foldlM add f = some g ∧
      ∀ j, g.has j = (f.has j || (decide (i ≤ j ∧ j < i + names.length) && bits.testBit j)) := by
  induction names generalizing i f with
  | nil =>
      refine ⟨f, rfl, fun j => ?_⟩
      have hnone : ¬ (i ≤ j ∧ j < i + ([] : List String).length) := by
        rw [List.length_nil]
        omega
      rw [decide_eq_false hnone, Bool.false_and, Bool.or_false]
  | cons name names ih =>
      have hname : (ofPart name.toList : Option (Flags set)) = some (bit i) := hnames 0 (by simp)
      rw [List.length_cons] at hlen
      have hlen' : i + 1 + names.length ≤ 32 := by omega
      have hnames' : ∀ k, (h : k < names.length) →
          (ofPart names[k].toList : Option (Flags set)) = some (bit (i + 1 + k)) := by
        intro k hk
        have := hnames (k + 1) (by simpa using hk)
        rwa [show i + (k + 1) = i + 1 + k by omega] at this
      -- past the first name the bits of the names are the bits of the others
      have hrange : ∀ j, i ≠ j → decide (i + 1 ≤ j ∧ j < i + 1 + names.length)
          = decide (i ≤ j ∧ j < i + (name :: names).length) := by
        intro j hj
        rw [List.length_cons]
        exact decide_eq_decide.2 (by omega)
      by_cases hbit : bits.testBit i = true
      · obtain ⟨g, hg, hhas⟩ := ih (f.union (bit i)) hlen' hnames'
        refine ⟨g, by simp [namesFrom, hbit, add, hname, hg], fun j => ?_⟩
        rw [hhas, has_union, has_bit (by omega)]
        by_cases hj : i = j
        · subst hj
          simp [hbit]
        · rw [hrange j hj, decide_eq_false hj, Bool.or_false]
      · obtain ⟨g, hg, hhas⟩ := ih f hlen' hnames'
        refine ⟨g, by simp [namesFrom, hbit, hg], fun j => ?_⟩
        rw [hhas]
        by_cases hj : i = j
        · subst hj
          simp [hbit]
        · rw [hrange j hj]

theorem exists_hexDigits (n : Nat) : ∃ d ds, hexDigits n = (d :: ds).map Nat.digitChar ∧
    (∀ e ∈ d :: ds, e < 16) ∧ ofDigits 16 (d :: ds) = n := by
  obtain ⟨ds, hds, hlt, hval, d, rest, rfl, -⟩ := exists_digitValues (b := 16) (by decide) n
  exact ⟨d, rest, hds, hlt, hval⟩

/-- A number that fits the bits is read as those bits. -/
theorem ofPart_hex {n : Nat} (hn : n < UInt32.size) :
    (ofPart (hex n).toList : Option (Flags set)) = some ⟨UInt32.ofNat n⟩ := by
  obtain ⟨d, ds, hdigits, hlt, hval⟩ := exists_hexDigits n
  have hplus : ∀ e < 16, Nat.digitChar e ≠ '+' := by decide
  have hread := mapM_digitChar hexDigit?_digitChar hlt
  rw [List.map_cons] at hread
  simp [hex, ofPart, hdigits, ofHexDigits, hplus d (hlt d List.mem_cons_self), hread, hval, hn]

theorem isPart_hex (n : Nat) : IsPart (hex n).toList := by
  obtain ⟨d, ds, hdigits, hlt, -⟩ := exists_hexDigits n
  have hchar : ∀ e < 16, isBlank e.digitChar = false ∧ e.digitChar ≠ '|' := by decide
  refine ⟨by simp [hex], fun c hc => ?_⟩
  rw [hex, String.toList_ofList, hdigits] at hc
  rcases List.mem_cons.1 hc with rfl | hc
  · decide
  rcases List.mem_cons.1 hc with rfl | hc
  · decide
  obtain ⟨e, he, rfl⟩ := List.mem_map.1 hc
  exact hchar e (hlt e he)

/-! ## The text form -/

theorem unnamed_lt (f : Flags set) : f.unnamed < UInt32.size := by
  have hle : f.unnamed ≤ f.bits.toNat := by
    simp only [unnamed, Nat.shiftRight_eq_div_pow, Nat.shiftLeft_eq]
    exact Nat.div_mul_le_self _ _
  exact Nat.lt_of_le_of_lt hle f.bits.toNat_lt_size

theorem testBit_unnamed (f : Flags set) (j : Nat) :
    f.unnamed.testBit j = (decide (set.flagNames.length ≤ j) && f.has j) := by
  simp only [unnamed, Nat.testBit_shiftLeft, Nat.testBit_shiftRight, has]
  by_cases h : set.flagNames.length ≤ j
  · simp [h]
  · simp [h]

/-- The parts of a set give the set. -/
theorem foldlM_parts (f : Flags set) : (f.parts.map String.toList).foldlM add empty = some f := by
  obtain ⟨hlen, hnames⟩ := names_spelt set
  obtain ⟨g, hg, hhas⟩ : ∃ g : Flags set,
      ((namesFrom f.bits.toNat 0 set.flagNames).map String.toList).foldlM add empty = some g ∧
      ∀ j, g.has j = ((empty : Flags set).has j ||
        (decide (0 ≤ j ∧ j < 0 + set.flagNames.length) && f.has j)) :=
    foldlM_namesFrom empty (by omega) fun k hk => by simpa using (hnames k hk).2
  -- what is left to add are the bits without a name, if there are any
  have hrest : ((if f.unnamed = 0 then [] else [hex f.unnamed]).map String.toList).foldlM add g
      = some (g.union ⟨UInt32.ofNat f.unnamed⟩) := by
    by_cases h : f.unnamed = 0
    · have hzero : g.union ⟨UInt32.ofNat f.unnamed⟩ = g := ext_has fun j => by
        rw [has_union, has_ofNat f.unnamed_lt, h, Nat.zero_testBit, Bool.or_false]
      rw [hzero]
      simp [h]
    · simp [h, add, ofPart_hex f.unnamed_lt]
  rw [parts, List.map_append, List.foldlM_append, hg]
  refine hrest.trans (congrArg some (ext_has fun j => ?_))
  rw [has_union, has_ofNat f.unnamed_lt, testBit_unnamed, hhas]
  have hrange : decide (0 ≤ j ∧ j < 0 + set.flagNames.length)
      = !decide (set.flagNames.length ≤ j) := by
    rw [← decide_not]
    exact decide_eq_decide.2 (by omega)
  rw [has_empty, Bool.false_or, hrange]
  by_cases h : set.flagNames.length ≤ j <;> simp [h]

theorem mem_of_mem_namesFrom {bits i : Nat} {names : List String} {name : String}
    (h : name ∈ namesFrom bits i names) : name ∈ names := by
  induction names generalizing i with
  | nil => exact h
  | cons n ns ih =>
      rw [namesFrom] at h
      split at h
      · exact (List.mem_cons.1 h).elim (fun h => h ▸ List.mem_cons_self)
          fun h => List.mem_cons_of_mem _ (ih h)
      · exact List.mem_cons_of_mem _ (ih h)

theorem isPart_parts (f : Flags set) : ∀ p ∈ f.parts.map String.toList, IsPart p := by
  intro p hp
  obtain ⟨part, hpart, rfl⟩ := List.mem_map.1 hp
  rcases List.mem_append.1 hpart with h | h
  · obtain ⟨i, hi, rfl⟩ := List.mem_iff_getElem.1 (mem_of_mem_namesFrom h)
    exact ((names_spelt set).2 i hi).1
  · split at h
    · cases h
    · rw [List.mem_singleton.1 h]
      exact isPart_hex _

/-- The text of a flag set is read back as the set. -/
theorem ofText?_toText (f : Flags set) : ofText? f.toText = some f := by
  have hread := f.foldlM_parts
  have hparts := f.isPart_parts
  have htext : f.toText.toList = bar.intercalate (f.parts.map String.toList) := by
    rw [toText, String.toList_intercalate]
    rfl
  rw [ofText?, htext]
  cases hps : f.parts.map String.toList with
  | nil =>
      rw [hps] at hread
      simpa [trim] using hread
  | cons p ps =>
      rw [hps] at hread hparts
      have hcut : (splitOn '|' ([] ++ bar.intercalate (p :: ps))).map trim = p :: ps :=
        map_trim_splitOn (by simp) p ps hparts
      rw [List.nil_append] at hcut
      rw [← hcut, List.foldlM_map] at hread
      have hne := intercalate_ne_nil (hparts p List.mem_cons_self).1 ps
      simpa [trim_intercalate p ps hparts, hne, add] using hread

end Flags

end GpuAudit
