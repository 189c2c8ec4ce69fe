import GpuAudit.Json.Token

/-!
# Reading JSON values

`Value.ofTokens?` reads one value from a list of tokens, one token at a time.  A
`Parser` holds the arrays and objects that are open, innermost first, and what may
come next, so texts nest as deep as they like.
-/

namespace GpuAudit.Json

/-- An array or object that is open, what it holds last first. -/
inductive Frame
  | array (elements : List Value)
  | object (members : List (Option String × Value))
  /-- A member whose name has been read, of the object below. -/
  | member (name : Option String)

/-- What may come next. -/
inductive Need
  | value
  /-- A value, or the end of an array that has just been opened. -/
  | valueOrEnd
  /-- A comma, or the end of what is open. -/
  | separator
  /-- A name, or the end of an object that has just been opened. -/
  | nameOrEnd
  | name
  | colon
  /-- Nothing: the value is complete. -/
  | nothing (v : Value)

/-- The open arrays and objects, innermost first, and what may come next. -/
structure Parser where
  /-- What is open. -/
  frames : List Frame
  /-- What may come next. -/
  need : Need

namespace Parser

/-- A complete value goes where it belongs. -/
def complete (frames : List Frame) (v : Value) : Option Parser :=
  match frames with
  | [] => some ⟨[], .nothing v⟩
  | .array elements :: frames => some ⟨.array (v :: elements) :: frames, .separator⟩
  | .member name :: .object members :: frames =>
      some ⟨.object ((name, v) :: members) :: frames, .separator⟩
  | _ => none

/-- A token that starts a value. -/
def beginValue (frames : List Frame) : Token → Option Parser
  | .null => complete frames .null
  | .bool b => complete frames (.bool b)
  | .number n => complete frames (.ofNumeral n)
  | .text (some s) => complete frames (.string s)
  | .text none => complete frames .malformed
  | .openArray => some ⟨.array [] :: frames, .valueOrEnd⟩
  | .openObject => some ⟨.object [] :: frames, .nameOrEnd⟩
  | _ => none

/-- The end of what is open. -/
def close (frames : List Frame) (t : Token) : Option Parser :=
  match frames, t with
  | .array elements :: frames, .closeArray => complete frames (.array elements.reverse)
  | .object members :: frames, .closeObject => complete frames (.ofMembers members.reverse)
  | _, _ => none

/-- The name of a member. -/
def beginMember (frames : List Frame) : Token → Option Parser
  | .text name => some ⟨.member name :: frames, .colon⟩
  | _ => none

/-- The next token. -/
def step (p : Parser) (t : Token) : Option Parser :=
  match p.need with
  | .value => beginValue p.frames t
  | .valueOrEnd => if t = .closeArray then close p.frames t else beginValue p.frames t
  | .separator =>
      if t = .comma then
        match p.frames with
        | .array _ :: _ => some { p with need := .value }
        | _ => some { p with need := .name }
      else close p.frames t
  | .nameOrEnd => if t = .closeObject then close p.frames t else beginMember p.frames t
  | .name => beginMember p.frames t
  | .colon => if t = .colon then some { p with need := .value } else none
  | .nothing _ => none

/-- The value at the end of the tokens. -/
def finish? (p : Parser) : Option Value :=
  match p.need with
  | .nothing v => some v
  | _ => none

end Parser

namespace Value

/-- The value that tokens write. -/
def ofTokens? (tokens : List Token) : Option Value := do
  (← tokens.foldlM Parser.step ⟨[], .value⟩).finish?

/-- The value of a JSON text. -/
def ofText? (s : String) : Option Value := do
  ofTokens? (← Token.ofText? s)

/-- The value of a JSON text that is kept as a whole: every string and number in it
must have a value, and it may nest only so deep. -/
def ofTextWithin? (limit : Nat) (s : String) : Option Value := do
  let tokens ← Token.ofText? s
  if tokens.all (·.isSound) && nesting tokens ≤ limit then ofTokens? tokens else none

end Value

end GpuAudit.Json
