import GpuAudit.Json.Value

/-!
# Writing JSON values

`Value.compact` writes a value without any space.  `Value.pretty` puts each element
and member on a line of its own, indented by two spaces a level; an empty array or
object stays on its line.  In strings only the quote, the backslash and the control
characters are escaped.
-/

namespace GpuAudit.Json

/-! ## Parts -/

/-- A character as it stands in a string. -/
def escape (c : Char) : List Char :=
  if c = '"' then ['\\', '"']
  else if c = '\\' then ['\\', '\\']
  else if c = '\x08' then ['\\', 'b']
  else if c = '\t' then ['\\', 't']
  else if c = '\n' then ['\\', 'n']
  else if c = '\x0c' then ['\\', 'f']
  else if c = '\r' then ['\\', 'r']
  else if c.toNat < 0x10 then ['\\', 'u', '0', '0', '0'] ++ Text.hexDigits c.toNat
  else if c.toNat < 0x20 then ['\\', 'u', '0', '0'] ++ Text.hexDigits c.toNat
  else [c]

/-- A string with its quotes. -/
def quoted (s : String) : List Char := '"' :: (s.toList.flatMap escape ++ ['"'])

namespace Numeral

/-- A number as it is written. -/
def chars (n : Numeral) : List Char :=
  (if n.negative then ['-'] else []) ++ digits n.whole ++
    (if n.fraction.isEmpty then [] else '.' :: digits n.fraction) ++
    (if n.exponent.isEmpty then []
      else 'e' :: ((if n.exponentNegative then ['-'] else []) ++ digits n.exponent))
where
  digits (ds : List Nat) : List Char := ds.map Nat.digitChar

end Numeral

/-! ## Without space -/

namespace Value

mutual

/-- A value without any space. -/
def chars : Value → List Char
  | .null => "null".toList
  | .bool true => "true".toList
  | .bool false => "false".toList
  | .nat n => Nat.toDigits 10 n
  | .decimal n => n.chars
  | .string s => quoted s
  | .array [] => ['[', ']']
  | .array (v :: vs) => '[' :: (chars v ++ elementChars vs)
  | .object [] => ['{', '}']
  | .object ((name, v) :: ms) => '{' :: (quoted name ++ ':' :: (chars v ++ memberChars ms))
  | .malformed => "null".toList

/-- The elements of an array after the first, and its end. -/
def elementChars : List Value → List Char
  | [] => [']']
  | v :: vs => ',' :: (chars v ++ elementChars vs)

/-- The members of an object after the first, and its end. -/
def memberChars : List (String × Value) → List Char
  | [] => ['}']
  | (name, v) :: ms => ',' :: (quoted name ++ ':' :: (chars v ++ memberChars ms))

end

/-- The text of a value, without any space. -/
def compact (v : Value) : String := String.ofList v.chars

/-! ## On lines -/

/-- The start of a line at a level. -/
def newline (level : Nat) : List Char := '\n' :: List.replicate (2 * level) ' '

mutual

/-- A value on lines, the first of which has been indented to a level. -/
def lines (level : Nat) : Value → List Char
  | .array (v :: vs) =>
      '[' :: (newline (level + 1) ++ lines (level + 1) v ++ elementLines level vs)
  | .object ((name, v) :: ms) =>
      '{' :: (newline (level + 1) ++ quoted name ++ ':' :: ' ' ::
        (lines (level + 1) v ++ memberLines level ms))
  | v => v.chars

/-- The elements of an array after the first, and its end. -/
def elementLines (level : Nat) : List Value → List Char
  | [] => newline level ++ [']']
  | v :: vs => ',' :: (newline (level + 1) ++ lines (level + 1) v ++ elementLines level vs)

/-- The members of an object after the first, and its end. -/
def memberLines (level : Nat) : List (String × Value) → List Char
  | [] => newline level ++ ['}']
  | (name, v) :: ms =>
      ',' :: (newline (level + 1) ++ quoted name ++ ':' :: ' ' ::
        (lines (level + 1) v ++ memberLines level ms))

end

/-- The text of a value, each element and member on its own line. -/
def pretty (v : Value) : String := String.ofList (v.lines 0)

/-! ## Tests -/

example : (Value.array [.nat 1, .null, .array []]).compact = "[1,null,[]]" := by decide +kernel
example : (Value.array [.array [.bool true], .array []]).pretty
    = "[\n  [\n    true\n  ],\n  []\n]" := by decide +kernel
example : (Value.string "a\"\n\x01é").compact = "\"a\\\"\\n\\u0001é\"" := by decide +kernel

end Value

end GpuAudit.Json
