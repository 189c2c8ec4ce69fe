import GpuAudit.CommandLine

/-!
# The program

Reads files, prints, and leaves everything else to `GpuAudit.CommandLine`.
-/

open GpuAudit.CommandLine

/-- Looks for a file. -/
def readFile (path : String) : IO File := do
  match ← (IO.FS.readFile path).toBaseIO with
  | .ok text => return .text text
  | .error (.noFileOrDirectory ..) => return .missing
  | .error _ => return .unreadable

/-- Runs the program on its arguments. -/
def main (args : List String) : IO UInt32 := do
  let exit ← run readFile args
  IO.print exit.stdout
  return UInt32.ofNat exit.status
