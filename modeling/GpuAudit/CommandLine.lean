import GpuAudit.CommandLine.Arguments
import GpuAudit.Config.Toml
import GpuAudit.Replay.Format

/-!
# The command line

`memtrack replay` replays a trace and prints the report; it exits with one when the
report has errors or the trace cannot be read.  `memtrack config` prints the
configuration in effect.  Wrong usage exits with two and prints nothing.

`run` is generic in how files are read, so it runs on real files and on a list of
texts alike.
-/

namespace GpuAudit.CommandLine

/-! ## Files -/

/-- What looking for a file comes to. -/
inductive File
  | text (s : String)
  | missing
  | unreadable
deriving DecidableEq, Repr

/-- The text of a file that can be read. -/
def File.text? : File → Option String
  | text s => some s
  | _ => none

/-- The configuration file for all users. -/
def systemConfig : String := "/etc/memtrack/memtrack.toml"

/-- The configuration file of the working directory. -/
def localConfig : String := "memtrack.toml"

/-- The configuration in a file; the default if the file cannot be read. -/
def configOf (f : File) : Config := (f.text?.bind Config.ofText?).getD {}

/-! ## Running -/

/-- How the program ends. -/
structure Exit where
  /-- The exit status. -/
  status : Nat
  /-- What it prints. -/
  stdout : String
deriving DecidableEq, Repr

/-- The help on a topic. -/
def Topic.help : Topic → String
  | program =>
      "memtrack - GPU memory binding and lifetime validation\n\n" ++
      "Usage: memtrack <COMMAND>\n\n" ++
      "Commands:\n" ++
      "  replay  Replay a recorded call trace through the validation layer\n" ++
      "  config  Print the effective configuration\n" ++
      "  help    Print this message or the help of the given subcommand(s)\n\n" ++
      "Options:\n" ++
      "  -h, --help     Print help\n" ++
      "  -V, --version  Print version\n"
  | replay =>
      "Replay a recorded call trace through the validation layer\n\n" ++
      "Usage: memtrack replay [OPTIONS] <TRACE>\n\n" ++
      "Arguments:\n" ++
      "  <TRACE>  JSON trace file\n\n" ++
      "Options:\n" ++
      "  -c, --config <CONFIG>  Configuration file path\n" ++
      "      --json             Print diagnostics as JSON\n" ++
      "  -h, --help             Print help\n"
  | config =>
      "Print the effective configuration\n\n" ++
      "Usage: memtrack config [OPTIONS]\n\n" ++
      "Options:\n" ++
      "  -c, --config <CONFIG>  Configuration file path\n" ++
      "  -h, --help             Print help\n"

/-- The answer to a request to replay a trace. -/
def replay (config : Config) (json : Bool) (trace : File) : Exit :=
  match trace.text?.bind Trace.ofText? with
  | none => ⟨1, ""⟩
  | some t =>
      let report := t.replay config
      ⟨if report.hasErrors then 1 else 0, if json then report.json else report.pretty⟩

/-- The answer to a request for the configuration. -/
def printConfig (config : Config) : Exit :=
  match config.toText? with
  | some text => ⟨0, text⟩
  | none => ⟨1, ""⟩

variable {m : Type → Type} [Monad m]

/-- The configuration in the named file, or else in one of the usual places. -/
def loadConfig (read : String → m File) : Option String → m Config
  | some path => return configOf (← read path)
  | none => do
      match ← read systemConfig with
      | .missing => return configOf (← read localConfig)
      | file => return configOf file

/-- Runs the program on its arguments. -/
def run (read : String → m File) (args : List String) : m Exit := do
  match Invocation.ofArguments? args with
  | none => return ⟨2, ""⟩
  | some (.help topic) => return ⟨0, topic.help⟩
  | some .version => return ⟨0, "memtrack 0.1.0\n"⟩
  | some (.config path) => return printConfig (← loadConfig read path)
  | some (.replay trace path json) =>
      let config ← loadConfig read path
      return replay config json (← read trace)

end GpuAudit.CommandLine
