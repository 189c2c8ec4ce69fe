import GpuAudit.Text.Hex
import GpuAudit.Toml.Node

/-!
# TOML scalars

Truth values, numbers and dates.  Each is written as a run of characters without
blanks, so `scalar?` decides on a whole run.  A date and a time may also stand with one
blank between them.

Integers have 64 bits with a sign.  A floating-point number may be as small as it likes,
and of the numbers that are too large only the positive are refused.
-/

namespace GpuAudit.Toml

/-! ## Digits -/

/-- Digits of a base, with single underscores between them. -/
def digitsOf (digit? : Char → Option Nat) : List Char → Option (List Nat)
  | [] => none
  | [c] => (digit? c).map fun d => [d]
  | c :: '_' :: cs => do return (← digit? c) :: (← digitsOf digit? cs)
  | c :: d :: cs => do return (← digit? c) :: (← digitsOf digit? (d :: cs))

/-- A digit below a bound. -/
def digitBelow (bound : Nat) (c : Char) : Option Nat :=
  (Text.hexDigit? c).filter (· < bound)

/-- Decimal digits, with single underscores between them. -/
def decimalDigits (cs : List Char) : Option (List Nat) := digitsOf Text.digit? cs

/-- Decimal digits that do not start with a zero, unless there is one only. -/
def wholeDigits (cs : List Char) : Option (List Nat) :=
  match decimalDigits cs with
  | some (0 :: _ :: _) => none
  | ds => ds

/-- A sign, if there is one, and what follows. -/
def splitSign : List Char → Bool × List Char
  | '-' :: cs => (true, cs)
  | '+' :: cs => (false, cs)
  | cs => (false, cs)

/-! ## Integers -/

/-- An integer of 64 bits. -/
def integer? (cs : List Char) : Option Int := do
  let value ← match cs with
    | '0' :: 'x' :: ds => magnitude 16 (digitsOf Text.hexDigit? ds)
    | '0' :: 'o' :: ds => magnitude 8 (digitsOf (digitBelow 8) ds)
    | '0' :: 'b' :: ds => magnitude 2 (digitsOf (digitBelow 2) ds)
    | _ =>
        let (negative, ds) := splitSign cs
        (magnitude 10 (wholeDigits ds)).map fun n => if negative then -n else n
  if Int64.minValue.toInt ≤ value ∧ value ≤ Int64.maxValue.toInt then some value else none
where
  magnitude (base : Nat) (ds : Option (List Nat)) : Option Int :=
    ds.map fun ds => Int.ofNat (Text.ofDigits base ds)

/-! ## Floating-point numbers -/

/-- Whether a number of some digits, times `10 ^ exponent` and over `10 ^ places`, rounds
to more than the largest number of 64-bit floating point. -/
def isTooLarge (digits : List Nat) (exponent places : Nat) : Bool :=
  let n := Text.ofDigits 10 digits
  if n = 0 ∨ digits.length ≤ places then false
  else if places + 400 < exponent then true
  else decide (((1 <<< 1024) - (1 <<< 970)) * Nat.pow 10 (places - exponent) ≤
    n * Nat.pow 10 (exponent - places))

/-- The digits after the point and the exponent: whether it is negative, and its value. -/
def tail? (cs : List Char) : Option (List Nat × Bool × Nat) := do
  let (fraction, rest) ← match cs with
    | '.' :: rest => do
        let ds ← decimalDigits (rest.takeWhile fun c => !isMark c)
        some (ds, rest.dropWhile fun c => !isMark c)
    | _ => some ([], cs)
  match rest with
  | [] => if fraction.isEmpty then none else some (fraction, false, 0)
  | c :: rest =>
      if isMark c then
        let (negative, ds) := splitSign rest
        let ds ← decimalDigits ds
        some (fraction, negative, Text.ofDigits 10 ds)
      else none
where
  isMark (c : Char) : Bool := c = 'e' || c = 'E'

/-- Whether a run writes a floating-point number. -/
def isFloat (cs : List Char) : Bool :=
  let (negative, ds) := splitSign cs
  if ds = ['n', 'a', 'n'] ∨ ds = ['i', 'n', 'f'] then true
  else
    let isWhole (c : Char) := c.isDigit || c = '_'
    match wholeDigits (ds.takeWhile isWhole), tail? (ds.dropWhile isWhole) with
    | some whole, some (fraction, exponentNegative, exponent) =>
        let (up, down) := if exponentNegative then (0, exponent) else (exponent, 0)
        negative || !isTooLarge (whole ++ fraction) up (down + fraction.length)
    | _, _ => false

/-! ## Dates and times -/

/-- A number of exactly so many digits, from a least to a largest value. -/
def number? (count least most : Nat) (cs : List Char) : Option (Nat × List Char) := do
  let ds ← (cs.take count).mapM Text.digit?
  let n := Text.ofDigits 10 ds
  if ds.length = count ∧ least ≤ n ∧ n ≤ most then some (n, cs.drop count) else none

/-- A character that must stand here. -/
def skip? (c : Char) : List Char → Option (List Char)
  | d :: cs => if c = d then some cs else none
  | [] => none

/-- How many days a month has. -/
def daysIn (year month : Nat) : Nat :=
  if month = 2 then
    if year % 4 = 0 ∧ (year % 100 ≠ 0 ∨ year % 400 = 0) then 29 else 28
  else if month = 4 ∨ month = 6 ∨ month = 9 ∨ month = 11 then 30
  else 31

/-- A date, and what follows it. -/
def date? (cs : List Char) : Option (List Char) := do
  let (year, cs) ← number? 4 0 9999 cs
  let cs ← skip? '-' cs
  let (month, cs) ← number? 2 1 12 cs
  let cs ← skip? '-' cs
  let (_, cs) ← number? 2 1 (daysIn year month) cs
  some cs

/-- A time of day, and what follows it.  A minute may have a leap second. -/
def time? (cs : List Char) : Option (List Char) := do
  let (_, cs) ← number? 2 0 23 cs
  let cs ← skip? ':' cs
  let (_, cs) ← number? 2 0 59 cs
  let cs ← skip? ':' cs
  let (_, cs) ← number? 2 0 60 cs
  match cs with
  | '.' :: c :: rest => if c.isDigit then some (rest.dropWhile Char.isDigit) else none
  | _ => some cs

/-- Whether text is the distance to universal time. -/
def isOffset (cs : List Char) : Bool :=
  match cs with
  | ['Z'] | ['z'] => true
  | c :: rest =>
      (c = '+' || c = '-') &&
        (do
          let (_, cs) ← number? 2 0 23 rest
          let cs ← skip? ':' cs
          let (_, cs) ← number? 2 0 59 cs
          some cs) == some []
  | [] => false

/-- Whether text is a time of day, perhaps with its distance to universal time. -/
def isTime (withOffset : Bool) (cs : List Char) : Bool :=
  match time? cs with
  | some [] => true
  | some rest => withOffset && isOffset rest
  | none => false

/-- Whether a run writes a date, a time, or both. -/
def isDate (cs : List Char) : Bool :=
  isTime false cs ||
    match date? cs with
    | some [] => true
    | some (c :: rest) => (c = 'T' || c = 't' || c = ' ') && isTime true rest
    | none => false

/-! ## All scalars -/

/-- The value that a run of characters writes. -/
def scalar? (cs : List Char) : Option Node :=
  if cs = "true".toList then some (.bool true)
  else if cs = "false".toList then some (.bool false)
  else if isDate cs then some .date
  else if isFloat cs then some .float
  else (integer? cs).map .integer

/-- Whether a character may stand in such a run. -/
def isScalarChar (c : Char) : Bool :=
  c.isAlphanum || c = '_' || c = '+' || c = '-' || c = '.' || c = ':'

end GpuAudit.Toml
