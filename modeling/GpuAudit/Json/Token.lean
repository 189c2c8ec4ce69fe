import GpuAudit.Json.Value

/-!
# JSON tokens

`Token.ofText?` cuts a JSON text into tokens, one character at a time: a `Lexer` is
the tokens so far and what the characters since then are part of.  Nothing is read
ahead; a number ends at the first character that cannot continue it.

`nesting` and `Token.isSound` serve readers that must be able to keep a whole
text: how deep it nests, and whether each of its strings and numbers has a value.
-/

namespace GpuAudit.Json

/-! ## Tokens -/

/-- The words of JSON. -/
inductive Token
  | openArray
  | closeArray
  | openObject
  | closeObject
  | comma
  | colon
  | null
  | bool (b : Bool)
  | number (n : Numeral)
  /-- A string; none if it holds half of a surrogate pair. -/
  | text (s : Option String)
deriving DecidableEq, Repr

namespace Token

/-- Whether a string or number has a value. -/
def isSound : Token → Bool
  | text s => s.isSome
  | number n => n.nat?.isSome || n.isFinite
  | _ => true

/-- How many arrays and objects are open after a token. -/
def depthAfter (depth : Nat) : Token → Nat
  | openArray | openObject => depth + 1
  | closeArray | closeObject => depth - 1
  | _ => depth

end Token

/-- The largest number of arrays and objects open at once. -/
def nesting (tokens : List Token) : Nat :=
  (tokens.foldl (fun (depth, deepest) t =>
    let depth := Token.depthAfter depth t
    (depth, max depth deepest)) (0, 0)).2

/-! ## Strings -/

/-- A part of a string: a character, or a 16-bit unit given by its number. -/
inductive Piece
  | char (c : Char)
  | unit (n : Nat)
deriving DecidableEq, Repr

/-- Whether a unit is the first half of a surrogate pair. -/
def isHighHalf (n : Nat) : Bool := 0xd800 ≤ n && n < 0xdc00

/-- Whether a unit is the second half of a surrogate pair. -/
def isLowHalf (n : Nat) : Bool := 0xdc00 ≤ n && n < 0xe000

/-- The characters that the parts of a string make, if every half has its other half. -/
def joinPieces : List Piece → Option (List Char)
  | [] => some []
  | .char c :: rest => (joinPieces rest).map (c :: ·)
  | .unit high :: .unit low :: rest =>
      if isHighHalf high then
        if isLowHalf low then
          (joinPieces rest).map
            (Char.ofNat (0x10000 + (high - 0xd800) * 0x400 + (low - 0xdc00)) :: ·)
        else none
      else if isLowHalf high then none
      else (joinPieces (.unit low :: rest)).map (Char.ofNat high :: ·)
  | .unit n :: rest =>
      if isHighHalf n || isLowHalf n then none
      else (joinPieces rest).map (Char.ofNat n :: ·)

/-- The character that a one-letter escape stands for. -/
def escaped? : Char → Option Char
  | '"' => some '"'
  | '\\' => some '\\'
  | '/' => some '/'
  | 'b' => some '\x08'
  | 'f' => some '\x0c'
  | 'n' => some '\n'
  | 'r' => some '\r'
  | 't' => some '\t'
  | _ => none

/-! ## Numbers -/

/-- How far a number has been written. -/
inductive NumberPart
  /-- Only a minus sign. -/
  | sign
  /-- A zero before the point. -/
  | zero
  /-- Digits before the point, the first not zero. -/
  | whole
  /-- The point. -/
  | point
  /-- Digits after the point. -/
  | fraction
  /-- The mark of the exponent. -/
  | mark
  /-- The sign of the exponent. -/
  | markSign
  /-- Digits of the exponent. -/
  | exponent
deriving DecidableEq, Repr

namespace NumberPart

/-- Whether a number may end here. -/
def isComplete : NumberPart → Bool
  | zero | whole | fraction | exponent => true
  | sign | point | mark | markSign => false

/-- Where a character continues a number. -/
def next? (p : NumberPart) (c : Char) : Option NumberPart :=
  if c.isDigit then
    match p with
    | sign => some (if c = '0' then zero else whole)
    | whole => some whole
    | point | fraction => some fraction
    | mark | markSign | exponent => some exponent
    | zero => none
  else match p with
    | zero | whole => if c = '.' then some point else if isMark c then some mark else none
    | fraction => if isMark c then some mark else none
    | mark => if c = '+' ∨ c = '-' then some markSign else none
    | _ => none
where
  isMark (c : Char) : Bool := c = 'e' || c = 'E'

end NumberPart

/-- The number that the characters of a complete number write. -/
def Numeral.ofChars (cs : List Char) : Numeral :=
  let (negative, cs) := match cs with
    | '-' :: rest => (true, rest)
    | _ => (false, cs)
  let whole := cs.takeWhile Char.isDigit
  let (fraction, cs) := match cs.dropWhile Char.isDigit with
    | '.' :: rest => (rest.takeWhile Char.isDigit, rest.dropWhile Char.isDigit)
    | rest => ([], rest)
  let (exponentNegative, exponent) := match cs with
    | _ :: '-' :: digits => (true, digits)
    | _ :: '+' :: digits => (false, digits)
    | _ :: digits => (false, digits)
    | [] => (false, [])
  ⟨negative, values whole, values fraction, exponentNegative, values exponent⟩
where
  values (digits : List Char) : List Nat := digits.filterMap Text.digit?

/-! ## The lexer -/

/-- What the characters since the last token are part of. -/
inductive Mode
  | between
  /-- A word with letters to come. -/
  | word (rest : List Char) (token : Token)
  /-- A number, its characters last first. -/
  | number (chars : List Char) (part : NumberPart)
  /-- A string, its parts last first. -/
  | string (pieces : List Piece)
  /-- A string, after a backslash. -/
  | escape (pieces : List Piece)
  /-- A string, in the four digits of a unit, last first. -/
  | unit (pieces : List Piece) (digits : List Nat)
deriving DecidableEq, Repr

/-- The tokens so far, last first, and what the characters since then are part of. -/
structure Lexer where
  /-- The tokens, last first. -/
  tokens : List Token
  /-- What is being read. -/
  mode : Mode
deriving DecidableEq, Repr

namespace Lexer

/-- Whether a character may stand between tokens. -/
def isSpace (c : Char) : Bool := c = ' ' || c = '\t' || c = '\n' || c = '\r'

/-- The character after a token. -/
def begin? (tokens : List Token) (c : Char) : Option Lexer :=
  match c with
  | '[' => some ⟨.openArray :: tokens, .between⟩
  | ']' => some ⟨.closeArray :: tokens, .between⟩
  | '{' => some ⟨.openObject :: tokens, .between⟩
  | '}' => some ⟨.closeObject :: tokens, .between⟩
  | ',' => some ⟨.comma :: tokens, .between⟩
  | ':' => some ⟨.colon :: tokens, .between⟩
  | '"' => some ⟨tokens, .string []⟩
  | 'n' => some ⟨tokens, .word ['u', 'l', 'l'] .null⟩
  | 't' => some ⟨tokens, .word ['r', 'u', 'e'] (.bool true)⟩
  | 'f' => some ⟨tokens, .word ['a', 'l', 's', 'e'] (.bool false)⟩
  | '-' => some ⟨tokens, .number [c] .sign⟩
  | _ =>
      if isSpace c then some ⟨tokens, .between⟩
      else (NumberPart.sign.next? c).map fun part => ⟨tokens, .number [c] part⟩

/-- The next character. -/
def step (l : Lexer) (c : Char) : Option Lexer :=
  match l.mode with
  | .between => begin? l.tokens c
  | .word rest token =>
      match rest with
      | [d] => if c = d then some ⟨token :: l.tokens, .between⟩ else none
      | d :: rest => if c = d then some { l with mode := .word rest token } else none
      | [] => none
  | .number chars part =>
      match part.next? c with
      | some part => some { l with mode := .number (c :: chars) part }
      | none =>
          if part.isComplete then begin? (.number (Numeral.ofChars chars.reverse) :: l.tokens) c
          else none
  | .string pieces =>
      if c = '"' then
        some ⟨.text ((joinPieces pieces.reverse).map String.ofList) :: l.tokens, .between⟩
      else if c = '\\' then some { l with mode := .escape pieces }
      else if c.toNat < 0x20 then none
      else some { l with mode := .string (.char c :: pieces) }
  | .escape pieces =>
      if c = 'u' then some { l with mode := .unit pieces [] }
      else (escaped? c).map fun d => { l with mode := .string (.char d :: pieces) }
  | .unit pieces digits =>
      (Text.hexDigit? c).map fun d =>
        if digits.length = 3 then
          { l with mode := .string (.unit (Text.ofDigits 16 (d :: digits).reverse) :: pieces) }
        else { l with mode := .unit pieces (d :: digits) }

/-- The tokens at the end of the text. -/
def finish? (l : Lexer) : Option (List Token) :=
  match l.mode with
  | .between => some l.tokens.reverse
  | .number chars part =>
      if part.isComplete then
        some (.number (Numeral.ofChars chars.reverse) :: l.tokens).reverse
      else none
  | _ => none

end Lexer

/-- The tokens of a JSON text. -/
def Token.ofText? (s : String) : Option (List Token) := do
  (← s.toList.foldlM Lexer.step ⟨[], .between⟩).finish?

end GpuAudit.Json
