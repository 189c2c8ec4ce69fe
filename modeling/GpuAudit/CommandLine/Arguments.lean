/-!
# Command-line arguments

`Invocation.ofArguments?` reads the arguments from left to right; the first that does
not fit refuses them all, and a request for help or for the version ends the reading.

An option may stand before or after the trace, once.  Its value is the next argument, or
follows it after an equals sign or, in the short form, at once.  The next argument is not
taken for a value when it starts with a hyphen and has more.  After two hyphens no
argument is an option.
-/

namespace GpuAudit.CommandLine

/-- A topic that help is given on. -/
inductive Topic
  | program
  | replay
  | config
deriving DecidableEq, Repr

/-- What the arguments ask for. -/
inductive Invocation
  /-- Replay a trace, with a configuration file if one is named. -/
  | replay (trace : String) (config : Option String) (json : Bool)
  /-- Print the configuration, from a file if one is named. -/
  | config (config : Option String)
  | help (topic : Topic)
  | version
deriving DecidableEq, Repr

/-- One argument, by its form. -/
inductive Argument
  /-- Two hyphens. -/
  | escape
  /-- An option with its long name, and what follows an equals sign. -/
  | long (name : String) (value : Option String)
  /-- An option with its short name, and what follows it. -/
  | short (name : Char) (value : Option String)
  | plain (value : String)
deriving DecidableEq, Repr

/-- The form of an argument. -/
def Argument.ofString (s : String) : Argument :=
  match s.toList with
  | ['-', '-'] => escape
  | '-' :: '-' :: cs =>
      let name := String.ofList (cs.takeWhile (· ≠ '='))
      match cs.dropWhile (· ≠ '=') with
      | _ :: value => long name (some (String.ofList value))
      | [] => long name none
  | ['-', c] => short c none
  | '-' :: c :: '=' :: value => short c (some (String.ofList value))
  | '-' :: c :: value => short c (some (String.ofList value))
  | _ => plain s

/-- What the arguments of a command have said so far. -/
structure Options where
  /-- The plain arguments, last first. -/
  plain : List String := []
  /-- The configuration file. -/
  config : Option String := none
  /-- Whether the report is to be JSON. -/
  json : Bool := false
deriving DecidableEq, Repr

/-- What reading the arguments of a command comes to. -/
inductive Reading
  | options (o : Options)
  | help
deriving DecidableEq, Repr

/-- The rules of a command. -/
structure Rules where
  /-- The number of plain arguments. -/
  plain : Nat
  /-- Whether the report can be JSON. -/
  json : Bool
deriving DecidableEq, Repr

/-- A plain argument, if there may be one more. -/
def Rules.addPlain (r : Rules) (o : Options) (s : String) : Option Options :=
  if o.plain.length < r.plain then some { o with plain := s :: o.plain } else none

/-- The configuration file, if it has not been named yet. -/
def Options.addConfig (o : Options) (path : String) : Option Options :=
  if o.config.isSome then none else some { o with config := some path }

/-- Whether an argument can be the value of the option before it. -/
def isValue (s : String) : Bool := !s.startsWith "-" || s = "-"

/-- Reads the arguments of a command. -/
def Rules.read (r : Rules) (o : Options) : List String → Option Reading
  | [] => some (.options o)
  | arg :: args =>
      match Argument.ofString arg with
      | .escape => (args.foldlM r.addPlain o).map .options
      | .plain s => do r.read (← r.addPlain o s) args
      | .long "config" (some path) | .short 'c' (some path) => do
          r.read (← o.addConfig path) args
      | .long "config" none | .short 'c' none =>
          match args with
          | path :: args => do
              if isValue path then r.read (← o.addConfig path) args else none
          | [] => none
      | .long "json" none =>
          if r.json && !o.json then r.read { o with json := true } args else none
      | .long "help" none | .short 'h' _ => some .help
      | _ => none

/-- Reads the arguments of `replay`, which must name a trace. -/
def ofReplayArguments? (args : List String) : Option Invocation := do
  match ← Rules.read ⟨1, true⟩ {} args with
  | .help => some (.help .replay)
  | .options ⟨[trace], config, json⟩ => some (.replay trace config json)
  | .options _ => none

/-- Reads the arguments of `config`. -/
def ofConfigArguments? (args : List String) : Option Invocation := do
  match ← Rules.read ⟨0, false⟩ {} args with
  | .help => some (.help .config)
  | .options o => some (.config o.config)

/-- Reads the topic that help is asked on. -/
def ofHelpArguments? : List String → Option Invocation
  | [] | ["help"] => some (.help .program)
  | ["replay"] => some (.help .replay)
  | ["config"] => some (.help .config)
  | _ => none

/-- What the arguments ask for; none if they are used wrongly. -/
def Invocation.ofArguments? : List String → Option Invocation
  | [] => none
  | arg :: args =>
      match Argument.ofString arg with
      | .plain "replay" => ofReplayArguments? args
      | .plain "config" => ofConfigArguments? args
      | .plain "help" => ofHelpArguments? args
      | .long "version" none | .short 'V' _ => some .version
      | .long "help" none | .short 'h' _ => some (.help .program)
      | _ => none

/-! ## Tests -/

example : Invocation.ofArguments? ["replay", "--json", "t", "-cp"]
    = some (.replay "t" (some "p") true) := by decide +kernel
example : Invocation.ofArguments? ["replay", "--", "--json"]
    = some (.replay "--json" none false) := by decide +kernel
example : Invocation.ofArguments? ["config", "--config=p"] = some (.config (some "p")) := by
  decide +kernel
/-- An option stands once, and an option is no value. -/
example : Invocation.ofArguments? ["config", "-c", "p", "-c", "q"] = none := by decide +kernel
example : Invocation.ofArguments? ["config", "-c", "--config"] = none := by decide +kernel

end GpuAudit.CommandLine
