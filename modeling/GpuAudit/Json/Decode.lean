import GpuAudit.Json.Value

/-!
# Reading data from JSON values

A `Decoder` reads data of one type from a value, or refuses it.  A structure is
written as an object with its fields as members, or as an array of its fields in
order.  `Record` reads the fields one after the other from either form:

* `required`: the field must be there;
* `optional`: in an object it may be missing, and null is the same as missing;
* `withDefault`: it may be missing, in an array only at the end.

A member with another name is ignored, a field that is given twice is refused, and so
is an array with more elements than there are fields.
-/

namespace GpuAudit.Json

/-- Reads data of one type, or refuses the value. -/
abbrev Decoder (α : Type) := Value → Option α

variable {α : Type}

/-! ## Simple data -/

/-- A natural number below a bound. -/
def natBelow (bound : Nat) : Decoder Nat
  | .nat n => if n < bound then some n else none
  | _ => none

/-- A natural number of 64 bits. -/
def word64 : Decoder UInt64 := fun v => (natBelow UInt64.size v).map UInt64.ofNat

/-- A natural number of 32 bits. -/
def word32 : Decoder UInt32 := fun v => (natBelow UInt32.size v).map UInt32.ofNat

/-- A truth value. -/
def bool : Decoder Bool
  | .bool b => some b
  | _ => none

/-- A string. -/
def string : Decoder String
  | .string s => some s
  | _ => none

/-- An array, each element read in the same way. -/
def listOf (d : Decoder α) : Decoder (List α)
  | .array vs => vs.mapM d
  | _ => none

/-- Null for nothing. -/
def nullable (d : Decoder α) : Decoder (Option α)
  | .null => some none
  | v => (d v).map some

/-- The name of a choice without data: a string, or an object that gives it null. -/
def choice : Decoder String
  | .string s => some s
  | .object [(s, .null)] => some s
  | _ => none

/-- One of a list of choices, by its name. -/
def oneOf (choices : List α) (name : α → String) : Decoder α := fun v => do
  let s ← choice v
  choices.find? fun a => name a = s

/-- A choice with data: an object with one member. -/
def tagged : Decoder (String × Value)
  | .object [member] => some member
  | _ => none

/-! ## Structures -/

/-- Where the fields of a structure are read from. -/
inductive Source
  | members (ms : List (String × Value))
  /-- The elements that have not been read yet. -/
  | elements (vs : List Value)

/-- Reads fields of a structure. -/
abbrev Record (α : Type) := StateT Source Option α

namespace Record

/-- The value of the next field, if it is given: in an object by its name, which must
not stand twice, and in an array by its place. -/
def next (name : String) : Record (Option Value) := do
  match ← get with
  | .members ms =>
      match ms.filter fun m => m.1 = name with
      | [] => return none
      | [(_, v)] => return some v
      | _ => failure
  | .elements [] => return none
  | .elements (v :: vs) =>
      set (Source.elements vs)
      return some v

/-- A field that must be there. -/
def required (name : String) (d : Decoder α) : Record α := do
  match ← next name with
  | some v => liftM (d v)
  | none => failure

/-- A field with a default. -/
def withDefault (name : String) (default : α) (d : Decoder α) : Record α := do
  match ← next name with
  | some v => liftM (d v)
  | none => return default

/-- A field that an object need not have. -/
def optional (name : String) (d : Decoder α) : Record (Option α) := do
  match ← next name, ← get with
  | some v, _ => liftM (nullable d v)
  | none, .members _ => return none
  | none, .elements _ => failure

/-- Reads a structure from an object or an array. -/
def decode (r : Record α) : Decoder α
  | .object ms => (r.run (.members ms)).map (·.1)
  | .array vs =>
      match r.run (.elements vs) with
      | some (a, .elements []) => some a
      | _ => none
  | _ => none

end Record

end GpuAudit.Json
