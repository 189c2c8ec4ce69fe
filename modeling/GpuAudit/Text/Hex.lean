/-!
# Hexadecimal numbers

`hex n` is the text `0x` and the lower-case digits of `n`, without leading
zeros.  `hexDigit?` reads one digit of either case.
-/

namespace GpuAudit.Text

/-- The digits of `n` in base sixteen, lower case, at least one. -/
def hexDigits (n : Nat) : List Char := Nat.toDigits 16 n

/-- A number as `0x` and its hexadecimal digits. -/
def hex (n : Nat) : String := String.ofList ('0' :: 'x' :: hexDigits n)

/-- The value of a hexadecimal digit of either case. -/
def hexDigit? (c : Char) : Option Nat :=
  if '0' ≤ c ∧ c ≤ '9' then some (c.toNat - '0'.toNat)
  else if 'a' ≤ c ∧ c ≤ 'f' then some (c.toNat - 'a'.toNat + 10)
  else if 'A' ≤ c ∧ c ≤ 'F' then some (c.toNat - 'A'.toNat + 10)
  else none

/-- The value of a decimal digit. -/
def digit? (c : Char) : Option Nat :=
  if '0' ≤ c ∧ c ≤ '9' then some (c.toNat - '0'.toNat) else none

/-- The number written with the given digit values, most significant first. -/
def ofDigits (base : Nat) (digits : List Nat) : Nat :=
  digits.foldl (fun n d => n * base + d) 0

end GpuAudit.Text
