/-!
# TOML trees

A TOML document is a tree of tables.  How a table came about decides who may add to
it later, so each table remembers its `Origin`.  An inline table is complete where it
stands, and nothing is added to it.

* A header may name a table that was only implied by other headers, and no other.
* A dotted key may go through tables that were implied or made by dotted keys, and
  must end in one made by dotted keys.
* A path that meets an array of tables goes on in its last table.
* No key is given twice.
-/

namespace GpuAudit.Toml

/-- How a table came about. -/
inductive Origin
  /-- It has a header, or is the root. -/
  | written
  /-- A header names a table inside it. -/
  | implied
  /-- A dotted key goes through it. -/
  | dotted
deriving DecidableEq, Repr

/-- A tree of values.  Floating-point numbers and dates are told from other values, and
what they say is not kept. -/
inductive Node
  | string (s : String)
  | integer (i : Int)
  | bool (b : Bool)
  | float
  | date
  | array (elements : List Node)
  | inline (entries : List (String × Node))
  | table (origin : Origin) (entries : List (String × Node))
  /-- An array of tables, each with a header. -/
  | tables (all : List (List (String × Node)))
deriving Repr, Inhabited

/-- The keys of a table and what they stand for, in the order they were given. -/
abbrev Entries := List (String × Node)

namespace Entries

/-- What a key stands for. -/
def get? (es : Entries) (key : String) : Option Node := List.lookup key es

/-- The entries with another meaning of a key. -/
def replace (es : Entries) (key : String) (n : Node) : Entries :=
  es.map fun e => if e.1 = key then (key, n) else e

/-- Changes the table at a path.  Tables missing on the way are made: implied ones for
a header and dotted ones for a dotted key. -/
def change (header : Bool) (f : Origin → Entries → Option Entries) :
    List String → Origin → Entries → Option Entries
  | [], origin, es => f origin es
  | key :: keys, _, es =>
      match es.get? key with
      | none => do
          let origin := if header then Origin.implied else Origin.dotted
          let inner ← change header f keys origin []
          some (es ++ [(key, .table origin inner)])
      | some (.table origin inner) =>
          if !header && origin = .written then none
          else do
            let inner ← change header f keys origin inner
            some (es.replace key (.table origin inner))
      | some (.tables all) =>
          match all.getLast? with
          | some last => do
              let last ← change header f keys .written last
              some (es.replace key (.tables (all.dropLast ++ [last])))
          | none => none
      | some _ => none

/-- Gives a key at a dotted path of a table. -/
def give (path : List String) (key : String) (n : Node) (origin : Origin) (es : Entries) :
    Option Entries :=
  change false
    (fun origin es =>
      if path ≠ [] ∧ origin ≠ .dotted then none
      else if (es.get? key).isSome then none
      else some (es ++ [(key, n)]))
    path origin es

/-- Starts the table that a header names. -/
def openTable (path : List String) (key : String) (es : Entries) : Option Entries :=
  change true
    (fun _ es => match es.get? key with
      | none => some (es ++ [(key, .table .written [])])
      | some (.table .implied inner) => some (es.replace key (.table .written inner))
      | some _ => none)
    path .written es

/-- Starts the next table of the array of tables that a header names. -/
def openTables (path : List String) (key : String) (es : Entries) : Option Entries :=
  change true
    (fun _ es => match es.get? key with
      | none => some (es ++ [(key, .tables [[]])])
      | some (.tables all) => some (es.replace key (.tables (all ++ [[]])))
      | some _ => none)
    path .written es

end Entries

end GpuAudit.Toml
