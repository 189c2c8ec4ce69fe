import GpuAudit.Config
import GpuAudit.Toml.Document

/-!
# Configuration files

A configuration file is a TOML document with the tables `validation` and `fence`.  A
table or a key that is missing stands for its default, and unknown keys are ignored.  A
table may also be given as an array of its values in order, and a date in the place of
a table counts as a table without keys.
-/

namespace GpuAudit

open Toml (Node Entries)

/-! ## Reading -/

/-- Where the fields of a structure are read from. -/
inductive Toml.Fields
  | named (es : Entries)
  | inOrder (elements : List Node)

namespace Toml

/-- The fields of a structure. -/
def Fields.ofNode? : Node → Option Fields
  | .table _ es | .inline es => some (.named es)
  | .array vs => some (.inOrder vs)
  | .tables all => some (.inOrder (all.map .inline))
  | .date => some (.named [])
  | _ => none

/-- A field with a default, by its name or its place. -/
def Fields.get? {α : Type} (fs : Fields) (name : String) (place : Nat) (default : α)
    (read : Node → Option α) : Option α :=
  let node := match fs with
    | named es => es.get? name
    | inOrder vs => vs[place]?
  match node with
  | some n => read n
  | none => some default

/-- A truth value. -/
def bool? : Node → Option Bool
  | .bool b => some b
  | _ => none

/-- A natural number of 64 bits. -/
def word64? : Node → Option UInt64
  | .integer i => if 0 ≤ i then some (UInt64.ofNat i.toNat) else none
  | _ => none

/-- Whether a node can stand for no data. -/
def isNothing : Node → Bool
  | .array [] | .inline [] | .table _ [] => true
  | _ => false

/-- The name of a choice without data: a string, or a table in which it is the only key
and stands for nothing. -/
def choice? : Node → Option String
  | .string s => some s
  | .table _ [(s, n)] | .inline [(s, n)] => if isNothing n then some s else none
  | _ => none

end Toml

/-- The severity with a name. -/
def Severity.ofName? (s : String) : Option Severity :=
  [Severity.info, .warning, .error, .fatal].find? fun severity => severity.name = s

/-- Reads the table `validation`. -/
def ValidationConfig.ofNode? (n : Node) : Option ValidationConfig := do
  let fs ← Toml.Fields.ofNode? n
  return {
    suppressOnError := ← fs.get? "suppress_on_error" 0 true Toml.bool?
    minSeverity := ← fs.get? "min_severity" 1 .warning fun n => do
      Severity.ofName? (← Toml.choice? n)
    haltOnInternalError := ← fs.get? "halt_on_internal_error" 2 true Toml.bool? }

/-- Reads the table `fence`. -/
def FenceConfig.ofNode? (n : Node) : Option FenceConfig := do
  let fs ← Toml.Fields.ofNode? n
  return { pollIntervalMs := ← fs.get? "poll_interval_ms" 0 5 Toml.word64? }

namespace Config

/-- Reads a configuration file. -/
def ofText? (s : String) : Option Config := do
  let fs := Toml.Fields.named (← Toml.ofText? s)
  return {
    validation := ← fs.get? "validation" 0 {} ValidationConfig.ofNode?
    fence := ← fs.get? "fence" 1 {} FenceConfig.ofNode? }

/-! ## Writing -/

/-- Writes a configuration file.  Integers of TOML have 63 bits, so a longer interval
cannot be written. -/
def toText? (c : Config) : Option String :=
  let v := c.validation
  if c.fence.pollIntervalMs.toNat < 1 <<< 63 then
    some (s!"[validation]\nsuppress_on_error = {v.suppressOnError}\n" ++
      s!"min_severity = \"{v.minSeverity.name}\"\n" ++
      s!"halt_on_internal_error = {v.haltOnInternalError}\n\n" ++
      s!"[fence]\npoll_interval_ms = {c.fence.pollIntervalMs}\n")
  else none

/-! ## Tests -/

example : ofText? "" = some {} := by decide +kernel
example : ofText? "fence.poll_interval_ms = 0x1_0 # sixteen\n"
    = some { fence := { pollIntervalMs := 16 } } := by decide +kernel
/-- A table may be an array of its values in order. -/
example : ofText? "validation = [false, 'error']"
    = some { validation := { suppressOnError := false, minSeverity := .error } } := by
  decide +kernel
example : ofText? "fence.poll_interval_ms = -1" = none := by decide +kernel
example : toText? {}
    = some ("[validation]\nsuppress_on_error = true\nmin_severity = \"warning\"\n" ++
        "halt_on_internal_error = true\n\n[fence]\npoll_interval_ms = 5\n") := by
  decide +kernel

end Config

end GpuAudit
