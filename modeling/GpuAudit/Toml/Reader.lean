import GpuAudit.Toml.Scalar

/-!
# Reading TOML values

A `Reader` takes characters off the front of a text.  Here are the readers for strings,
keys and values.  Lines end with a line feed; a carriage return may stand before it and
`unifyLines` has dropped it before anything is read.

A dotted key has fewer than `maxDepth` parts, and values nest in fewer arrays and inline
tables than that.  The readers for values also count down a number that the length of the
text bounds.
-/

namespace GpuAudit.Toml

/-- Takes characters off the front of a text, or refuses the text. -/
abbrev Reader (α : Type) := StateT (List Char) Option α

/-- The number of arrays and inline tables in each other, and of parts of a key, that is
too large. -/
def maxDepth : Nat := 80

namespace Reader

/-! ## Characters -/

/-- The next character, which stays. -/
def peek : Reader (Option Char) := return (← get).head?

/-- The next character. -/
def next : Reader Char := do
  match ← get with
  | c :: cs =>
      set cs
      return c
  | [] => failure

/-- A character that must come next. -/
def expect (c : Char) : Reader Unit := do
  if (← next) ≠ c then failure

/-- The characters up to the first that fails a test. -/
def takeWhile (test : Char → Bool) : Reader (List Char) := do
  let cs ← get
  set (cs.dropWhile test)
  return cs.takeWhile test

/-- Whether a character separates words on a line. -/
def isBlank (c : Char) : Bool := c = ' ' || c = '\t'

/-- Skips blanks. -/
def blanks : Reader Unit := discard (takeWhile isBlank)

/-- Whether a character may stand in comments and strings. -/
def isText (c : Char) : Bool := c = '\t' || (0x20 ≤ c.toNat && c.toNat ≠ 0x7f)

/-- Skips the rest of a line, which may hold a comment. -/
def restOfLine : Reader Unit := do
  blanks
  if (← peek) = some '#' then
    discard (takeWhile isText)
  match ← get with
  | [] => pure ()
  | c :: cs => if c = '\n' then set cs else failure

/-- Skips blanks, comments and ends of lines. -/
def gap : List Char → List Char
  | [] => []
  | c :: cs =>
      if isBlank c || c = '\n' then gap cs
      else if c = '#' then comment cs
      else c :: cs
where
  /-- Skips the rest of a comment. -/
  comment : List Char → List Char
  | [] => []
  | c :: cs => if isText c then comment cs else if c = '\n' then gap cs else c :: cs

/-- Drops the carriage returns before line feeds. -/
def unifyLines : List Char → List Char
  | '\r' :: '\n' :: cs => '\n' :: unifyLines cs
  | c :: cs => c :: unifyLines cs
  | [] => []

/-! ## Strings -/

/-- The character with a number given by so many hexadecimal digits. -/
def scalarValue (count : Nat) (cs : List Char) : Option (Char × List Char) := do
  let ds ← (cs.take count).mapM Text.hexDigit?
  let n := Text.ofDigits 16 ds
  if ds.length = count ∧ n.isValidChar then some (Char.ofNat n, cs.drop count) else none

/-- What follows a backslash. -/
def escape? : List Char → Option (Char × List Char)
  | 'b' :: cs => some ('\x08', cs)
  | 't' :: cs => some ('\t', cs)
  | 'n' :: cs => some ('\n', cs)
  | 'f' :: cs => some ('\x0c', cs)
  | 'r' :: cs => some ('\r', cs)
  | '"' :: cs => some ('"', cs)
  | '\\' :: cs => some ('\\', cs)
  | 'u' :: cs => scalarValue 4 cs
  | 'U' :: cs => scalarValue 8 cs
  | _ => none

/-- What follows a backslash at the end of a line: the line goes on with the next
character that is not a blank. -/
def joinLine (cs : List Char) : Option (List Char) :=
  match cs.dropWhile isBlank with
  | '\n' :: rest => some (rest.dropWhile fun c => isBlank c || c = '\n')
  | _ => none

/-- The rules for a kind of string. -/
structure Quoting where
  /-- The character that ends the string. -/
  quote : Char
  /-- Whether the string may have several lines; it then ends with three quotes. -/
  multiline : Bool

namespace Quoting

/-- Whether a backslash starts an escape. -/
def escapes (q : Quoting) : Bool := q.quote = '"'

end Quoting

/-- The characters of a string up to its end, and what follows it.  Before the end of a
string on several lines at most two quotes belong to the string. -/
def body (q : Quoting) : Nat → List Char → Option (List Char × List Char)
  | 0, _ => none
  | _, [] => none
  | fuel + 1, c :: cs =>
      let andThen (d : Char) (rest : List Char) :=
        (body q fuel rest).map fun (ds, rest) => (d :: ds, rest)
      if c = q.quote then
        let quotes := ((c :: cs).takeWhile (· = q.quote)).length
        if !q.multiline then some ([], cs)
        else if quotes < 3 then andThen c cs
        else if quotes ≤ 5 then
          some (List.replicate (quotes - 3) c, (c :: cs).drop quotes)
        else none
      else if c = '\\' && q.escapes then
        match if q.multiline then joinLine cs else none with
        | some rest => body q fuel rest
        | none => (escape? cs).bind fun (d, rest) => andThen d rest
      else if isText c || (q.multiline && c = '\n') then andThen c cs
      else none

/-- A string of which the opening quotes have been read. -/
def stringBody (q : Quoting) : Reader String := do
  let cs ← get
  let (s, rest) ← liftM (body q (cs.length + 1) cs)
  set rest
  return String.ofList s

/-- A string on one line. -/
def lineString (quote : Char) : Reader String := do
  expect quote
  stringBody ⟨quote, false⟩

/-- A string on one line or several.  A line feed after three opening quotes is not part
of it. -/
def string (quote : Char) : Reader String := do
  match ← get with
  | a :: b :: c :: rest =>
      if a = quote ∧ b = quote ∧ c = quote then
        set (match rest with
          | '\n' :: rest => rest
          | _ => rest)
        stringBody ⟨quote, true⟩
      else lineString quote
  | _ => lineString quote

/-! ## Keys -/

/-- Whether a character may stand in a key without quotes. -/
def isKeyChar (c : Char) : Bool := c.isAlphanum || c = '-' || c = '_'

/-- One part of a key. -/
def keyPart : Reader String := do
  match ← peek with
  | some '"' => lineString '"'
  | some '\'' => lineString '\''
  | _ =>
      let cs ← takeWhile isKeyChar
      if cs.isEmpty then failure else return String.ofList cs

/-- A key of at most so many parts, with the blanks around them. -/
def keyParts : Nat → Reader (List String)
  | 0 => failure
  | count + 1 => do
      blanks
      let part ← keyPart
      blanks
      if (← peek) = some '.' then
        discard next
        return part :: (← keyParts count)
      else return [part]

/-- A key: the parts before the last, and the last. -/
def key : Reader (List String × String) := do
  let parts ← keyParts (maxDepth - 1)
  match parts.getLast? with
  | some last => return (parts.dropLast, last)
  | none => failure

/-! ## Values -/

/-- A scalar that is not a string.  A date and a time may stand with one blank between
them. -/
def scalar : Reader Node := do
  let run ← takeWhile isScalarChar
  match date? run, ← get with
  | some [], ' ' :: c :: cs =>
      if c.isDigit then
        set (c :: cs)
        let time ← takeWhile isScalarChar
        liftM (scalar? (run ++ ' ' :: time))
      else return .date
  | _, _ => liftM (scalar? run)

/-- Enters the key of an inline table. -/
def enter (key : List String × String) (n : Node) (es : Entries) : Reader Entries :=
  liftM (Entries.give key.1 key.2 n .written es)

mutual

/-- A value inside so many arrays and inline tables. -/
def value : Nat → Nat → Reader Node
  | 0, _ => failure
  | fuel + 1, depth => do
      match ← peek with
      | some '"' => return .string (← string '"')
      | some '\'' => return .string (← string '\'')
      | some '[' =>
          discard next
          if maxDepth ≤ depth + 1 then failure
          return .array (← elements fuel (depth + 1))
      | some '{' =>
          discard next
          if maxDepth ≤ depth + 1 then failure
          blanks
          if (← peek) = some '}' then
            discard next
            return .inline []
          return .inline (← pairs fuel (depth + 1) [])
      | _ => scalar

/-- The elements of an array from here on, and its end. -/
def elements : Nat → Nat → Reader (List Node)
  | 0, _ => failure
  | fuel + 1, depth => do
      modify gap
      if (← peek) = some ']' then
        discard next
        return []
      let v ← value fuel depth
      modify gap
      match ← next with
      | ',' => return v :: (← elements fuel depth)
      | ']' => return [v]
      | _ => failure

/-- The keys of an inline table from here on, and its end. -/
def pairs : Nat → Nat → Entries → Reader Entries
  | 0, _, _ => failure
  | fuel + 1, depth, es => do
      let k ← key
      expect '='
      blanks
      let v ← value fuel depth
      let es ← enter k v es
      blanks
      match ← next with
      | ',' => pairs fuel depth es
      | '}' => return es
      | _ => failure

end

end Reader

end GpuAudit.Toml
