/-!
# Blanks, trimming and splitting

Text is handled as a list of characters.  A *blank* is a character with the
Unicode property `White_Space`; there are twenty-five.  `trim` drops blanks at
both ends and `splitOn` cuts at every occurrence of a character.
-/

namespace GpuAudit.Text

/-- Whether a character has the Unicode property `White_Space`. -/
def isBlank (c : Char) : Bool :=
  let n := c.toNat
  (0x09 ≤ n && n ≤ 0x0d) || n == 0x20 || n == 0x85 || n == 0xa0 || n == 0x1680 ||
    (0x2000 ≤ n && n ≤ 0x200a) || n == 0x2028 || n == 0x2029 || n == 0x202f ||
    n == 0x205f || n == 0x3000

/-- Text without the blanks at its two ends. -/
def trim (cs : List Char) : List Char :=
  ((cs.dropWhile isBlank).reverse.dropWhile isBlank).reverse

/-- The parts between the occurrences of a separator: one more than there are
occurrences. -/
def splitOn (sep : Char) : List Char → List (List Char)
  | [] => [[]]
  | c :: cs =>
      if c = sep then [] :: splitOn sep cs
      else match splitOn sep cs with
        | [] => [[c]]
        | part :: parts => (c :: part) :: parts

end GpuAudit.Text
