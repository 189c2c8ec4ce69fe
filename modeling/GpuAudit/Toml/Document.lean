import GpuAudit.Toml.Reader

/-!
# TOML documents

A document is read line by line: a line gives a key to the table of the latest header,
or is a header, or is blank.  The answer is the entries of the root table.
-/

namespace GpuAudit.Toml

/-- What has been read of a document. -/
structure Document where
  /-- The path of the latest header. -/
  header : List String
  /-- The root table. -/
  root : Entries

namespace Document

open Reader

/-- Enters a key under the latest header. -/
def give (d : Document) (key : List String × String) (n : Node) : Option Document := do
  let root ← Entries.change true (Entries.give key.1 key.2 n) d.header .written d.root
  some { d with root }

/-- A line that gives a key. -/
def keyLine (d : Document) : Reader Document := do
  let k ← key
  expect '='
  blanks
  let v ← value (2 * (← get).length + 2) 0
  restOfLine
  liftM (d.give k v)

/-- A header, of which the first bracket has been read. -/
def headerLine (d : Document) : Reader Document := do
  let several := (← peek) = some '['
  if several then discard next
  let (path, last) ← key
  expect ']'
  if several then expect ']'
  restOfLine
  let start := if several then Entries.openTables else Entries.openTable
  let root ← liftM (start path last d.root)
  return ⟨path ++ [last], root⟩

/-- The next line. -/
def line (d : Document) : Reader Document := do
  blanks
  match ← peek with
  | some '[' =>
      discard next
      headerLine d
  | some '#' | some '\n' | none =>
      restOfLine
      return d
  | _ => keyLine d

/-- Reads at most so many lines. -/
def lines (d : Document) : Nat → List Char → Option Document
  | 0, cs => if cs.isEmpty then some d else none
  | count + 1, cs =>
      if cs.isEmpty then some d
      else do
        let (d, rest) ← (line d).run cs
        lines d count rest

end Document

/-- The root table of a document.  A mark of the byte order may stand before it. -/
def ofText? (s : String) : Option Entries :=
  let cs := Reader.unifyLines s.toList
  let cs := match cs with
    | '\ufeff' :: rest => rest
    | _ => cs
  (Document.lines ⟨[], []⟩ cs.length cs).map (·.root)

end GpuAudit.Toml
