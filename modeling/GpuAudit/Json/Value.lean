import GpuAudit.Text.Hex

/-!
# JSON values

A `Value` is what a JSON text says.  Members of an object keep their order and
their repeats.  A number is `nat` when it is written as plain digits and fits 64
bits; any other number keeps its spelling as a `Numeral`.

A text can follow the grammar and still say nothing: a string may hold half of a
surrogate pair.  Such a string, and an object with such a name, is `malformed`.
-/

namespace GpuAudit.Json

/-! ## Numbers -/

/-- A number as it is written. -/
structure Numeral where
  /-- Whether it starts with a minus sign. -/
  negative : Bool
  /-- The digits before the point. -/
  whole : List Nat
  /-- The digits after the point. -/
  fraction : List Nat
  /-- Whether there is an exponent with a minus sign. -/
  exponentNegative : Bool
  /-- The digits of the exponent; none when there is no exponent. -/
  exponent : List Nat
deriving DecidableEq, Repr

namespace Numeral

/-- The number, if it is written as plain digits and fits 64 bits. -/
def nat? (n : Numeral) : Option Nat :=
  let value := Text.ofDigits 10 n.whole
  if !n.negative && n.fraction.isEmpty && n.exponent.isEmpty && value < UInt64.size then some value
  else none

/-- Reads more digits into a 64-bit significand.  From the first digit that does not
fit, digits are counted and not read.  The answer is the significand and the count. -/
def significand (start : Nat) (digits : List Nat) : Nat × Nat :=
  let (value, skipped, _) := digits.foldl
    (fun (value, skipped, full) d =>
      if full || UInt64.size ≤ value * 10 + d then (value, skipped + 1, true)
      else (value * 10 + d, skipped, false))
    (start, 0, false)
  (value, skipped)

/-- The nearest number with 53 significant bits; a tie goes to the even one. -/
def roundTo53 (n : Nat) : Nat :=
  let shift := n.log2 - 52
  let quotient := n >>> shift
  let rest := n - quotient <<< shift
  let half := (1 <<< shift) / 2
  let up := shift ≠ 0 ∧ (half < rest ∨ (rest = half ∧ quotient % 2 = 1))
  (if up then quotient + 1 else quotient) <<< shift

/-- Whether a number is in the range of 64-bit floating point.  The significand and
the power of ten are rounded before they are multiplied. -/
def isFinite (n : Numeral) : Bool :=
  let (first, skipped) := significand 0 n.whole
  let (value, ignored) := significand first n.fraction
  let read := n.fraction.length - ignored
  let power := Text.ofDigits 10 n.exponent
  if value = 0 then true
  else if n.exponentNegative then
    let exponent := skipped - (power + read)
    exponent ≤ 308 && fits value exponent
  else if 1 <<< 31 ≤ power then false
  else
    let exponent := skipped + power - read
    exponent ≤ 308 && fits value exponent
where
  fits (value exponent : Nat) : Bool :=
    roundTo53 value * roundTo53 (Nat.pow 10 exponent) < (1 <<< 1024) - (1 <<< 970)

end Numeral

/-! ## Values -/

/-- What a JSON text says. -/
inductive Value
  | null
  | bool (b : Bool)
  /-- A natural number below `2 ^ 64`, written as plain digits. -/
  | nat (n : Nat)
  /-- Any other number. -/
  | decimal (n : Numeral)
  | string (s : String)
  | array (elements : List Value)
  | object (members : List (String × Value))
  /-- A text that follows the grammar and has no meaning. -/
  | malformed
deriving Repr, Inhabited

namespace Value

/-- A number as a value. -/
def ofNumeral (n : Numeral) : Value :=
  match n.nat? with
  | some value => .nat value
  | none => .decimal n

/-- An object of members whose names may have no meaning. -/
def ofMembers (members : List (Option String × Value)) : Value :=
  match members.mapM fun (name, v) => name.map (·, v) with
  | some members => .object members
  | none => .malformed

/-- A value, or null when there is nothing. -/
def ofOption {α : Type} (f : α → Value) : Option α → Value
  | some a => f a
  | none => .null

end Value

end GpuAudit.Json
