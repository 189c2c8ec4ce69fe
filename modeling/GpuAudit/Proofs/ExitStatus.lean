import GpuAudit.CommandLine
import GpuAudit.Proofs.Decoding
import GpuAudit.Proofs.Delivery

/-!
# The exit status of a replay

A replay runs hooks, entry after entry.  What their verdicts list has been *raised*; the
report has what was delivered, which is the part that is severe enough (`replay_findings`).
So the exit status tells of the errors that were delivered.  It tells of every error that
was raised unless only the fatal ones are chosen, the trace raises errors, and none of them
is fatal (`exit_tells_iff`).
-/

namespace GpuAudit

namespace Layer

/-- The verdicts of the hooks that an entry of a trace runs, in order. -/
def entryVerdicts (l : Layer) : TraceEntry → List Verdict
  | .call call result =>
      let before := (preCall call).run l
      if before.value.skipCall then [before.value]
      else [before.value, ((postCall call result).run before.state).value]
  | .complete completion => [(processCompletions.run ((send completion).run l).state).value]

/-- What an entry of a trace raises, in order. -/
def entryRaised (l : Layer) (entry : TraceEntry) : List Diagnostic :=
  (l.entryVerdicts entry).flatMap (·.diagnostics)

/-- What the entries of a trace raise, in order. -/
def raisedFrom (l : Layer) : Trace → List Diagnostic
  | [] => []
  | entry :: entries =>
      l.entryRaised entry ++ ((replayEntry entry).run l).state.raisedFrom entries

/-- What an entry delivers is the severe part of what it raises, and the choices of the user
stay. -/
theorem replayEntry_delivers (l : Layer) (entry : TraceEntry) :
    deliveries ((replayEntry entry).run l).notes =
        l.config.validation.delivered (l.entryRaised entry) ∧
      ((replayEntry entry).run l).state.config = l.config := by
  cases entry with
  | call call result =>
      have before := agreeing_preCall call l
      have after := agreeing_postCall call result ((preCall call).run l).state
      by_cases skipped : ((preCall call).run l).value.skipCall = true
      · simp only [replayEntry, entryRaised, entryVerdicts, Logged.run_bind, if_pos skipped,
          Logged.run_pure, List.append_nil, List.flatMap_singleton]
        exact ⟨before.delivered, before.chosen⟩
      · simp only [replayEntry, entryRaised, entryVerdicts, Logged.run_bind, if_neg skipped,
          Logged.run_discard, Logged.run_pure, List.append_nil, List.flatMap_cons,
          List.flatMap_nil, deliveries_append, ValidationConfig.delivered, List.filter_append]
        rw [before.delivered, after.delivered, before.chosen]
        exact ⟨rfl, after.chosen.trans before.chosen⟩
  | complete completion =>
      have processed := agreeing_processCompletions ((send completion).run l).state
      simp only [replayEntry, entryRaised, entryVerdicts, Logged.run_bind, Logged.run_discard,
        Logged.run_pure, List.append_nil, List.flatMap_singleton]
      exact ⟨processed.delivered, processed.chosen⟩

theorem replayFrom_delivers : ∀ (t : Trace) (index : Nat) (l : Layer),
    ((replayFrom index l t).flatMap (·.2)).map (·.diagnostic) =
      l.config.validation.delivered (l.raisedFrom t)
  | [], _, _ => rfl
  | entry :: entries, index, l => by
      obtain ⟨delivered, chosen⟩ := l.replayEntry_delivers entry
      have later := replayFrom_delivers entries (index + 1) ((replayEntry entry).run l).state
      rw [chosen] at later
      have first : ∀ ds : List Diagnostic,
          (ds.map (Finding.mk index entry.name)).map (·.diagnostic) = ds := fun ds => by
        rw [List.map_map]
        exact List.map_id ds
      simp only [replayFrom, raisedFrom, List.flatMap_cons, List.map_append, later, first,
        ValidationConfig.delivered, List.filter_append, List.append_cancel_right_eq]
      exact delivered

end Layer

namespace Trace

/-- What a trace raises on a fresh layer, in order. -/
def raised (config : Config) (t : Trace) : List Diagnostic := (Layer.start config).raisedFrom t

/-- The report of a replay has the severe part of what is raised, in order. -/
theorem replay_findings (config : Config) (t : Trace) :
    (t.replay config).findings.map (·.diagnostic) =
      config.validation.delivered (t.raised config) :=
  Layer.replayFrom_delivers t 0 (.start config)

theorem replay_hasErrors_iff (config : Config) (t : Trace) :
    (t.replay config).hasErrors = true ↔
      ∃ d ∈ t.raised config, config.validation.minSeverity ≤ d.severity ∧ d.isError = true := by
  have found : (t.replay config).hasErrors =
      ((t.replay config).findings.map (·.diagnostic)).any (·.isError) := by
    rw [List.any_map]
    rfl
  rw [found, replay_findings, List.any_eq_true]
  simp only [ValidationConfig.delivered, List.mem_filter, decide_eq_true_eq, and_assoc]

end Trace

/-- Every error is severe enough, unless only fatal ones are chosen. -/
theorem Severity.le_of_isError {least : Severity} (some : least ≠ .fatal) {d : Diagnostic}
    (error : d.isError = true) : least ≤ d.severity := by
  unfold Diagnostic.isError at error
  revert error
  cases least <;> cases d.severity <;> first | exact absurd rfl some | decide

theorem Severity.fatal_le_iff {s : Severity} : .fatal ≤ s ↔ s = .fatal := by
  cases s <;> decide

theorem Diagnostic.isError_of_fatal {d : Diagnostic} (fatal : d.severity = .fatal) :
    d.isError = true := by
  rw [isError, fatal]
  rfl

namespace CommandLine

/-- The exit status of a replay is zero unless an error was delivered. -/
theorem replay_status_iff {config : Config} {json : Bool} {file : File} {t : Trace}
    (reads : file.text?.bind Trace.ofText? = some t) :
    (replay config json file).status ≠ 0 ↔
      ∃ d ∈ t.raised config, config.validation.minSeverity ≤ d.severity ∧ d.isError = true := by
  rw [← Trace.replay_hasErrors_iff, replay, reads]
  show (if (t.replay config).hasErrors = true then 1 else 0) ≠ 0 ↔ _
  simp

/-- The configuration in effect, where the files are these. -/
def configIn (files : String → File) (path : Option String) : Config :=
  Id.run (loadConfig (m := Id) files path)

/-- How the program ends, where the files are these. -/
def exitIn (files : String → File) (args : List String) : Exit :=
  Id.run (run (m := Id) files args)

theorem exitIn_replay {files : String → File} {args : List String} {trace : String}
    {path : Option String} {json : Bool}
    (asked : Invocation.ofArguments? args = some (.replay trace path json)) :
    exitIn files args = replay (configIn files path) json (files trace) := by
  rw [exitIn, run, asked]
  rfl

/-- The exit status tells whether a trace raises an error, unless only fatal errors are chosen
and the trace raises errors of which none is fatal. -/
theorem exit_tells_iff {files : String → File} {args : List String} {trace : String}
    {path : Option String} {json : Bool} {t : Trace}
    (asked : Invocation.ofArguments? args = some (.replay trace path json))
    (reads : (files trace).text?.bind Trace.ofText? = some t) :
    ((exitIn files args).status ≠ 0 ↔ ∃ d ∈ t.raised (configIn files path), d.isError = true) ↔
      ((configIn files path).validation.minSeverity = .fatal →
        (∃ d ∈ t.raised (configIn files path), d.isError = true) →
          ∃ d ∈ t.raised (configIn files path), d.severity = .fatal) := by
  rw [exitIn_replay asked, replay_status_iff reads]
  constructor
  · rintro tells least raised
    obtain ⟨d, hd, severe, -⟩ := tells.mpr raised
    rw [least, Severity.fatal_le_iff] at severe
    exact ⟨d, hd, severe⟩
  · intro some
    refine ⟨fun ⟨d, hd, _, error⟩ => ⟨d, hd, error⟩, fun raised => ?_⟩
    by_cases least : (configIn files path).validation.minSeverity = .fatal
    · obtain ⟨d, hd, fatal⟩ := some least raised
      exact ⟨d, hd, by rw [least, Severity.fatal_le_iff, fatal], Diagnostic.isError_of_fatal fatal⟩
    · obtain ⟨d, hd, error⟩ := raised
      exact ⟨d, hd, Severity.le_of_isError least error, error⟩

/-- An allocation of a device that nobody has created is unmapped. -/
def unmappingUnknown : Trace := [.call (.unmapMemory ⟨1, .device⟩ ⟨2, .deviceMemory⟩) .success]

/-- A file that chooses the least severity that is delivered, and a trace. -/
def choosing (severity : Severity) : String → File
  | "chosen.toml" => .text ("[validation]\nmin_severity = \"" ++ severity.name ++ "\"\n")
  | "trace.json" => .text unmappingUnknown.toText
  | _ => .missing

theorem choosing_reads (severity : Severity) :
    (choosing severity "trace.json").text?.bind Trace.ofText? = some unmappingUnknown := by
  have file : choosing severity "trace.json" = .text unmappingUnknown.toText := rfl
  rw [file, File.text?, Option.bind_some, unmappingUnknown.ofText?_toText]

/-- The unmapping is an error, and is told where errors are chosen. -/
theorem exit_tells_of_errors :
    (choosing .error "trace.json").text?.bind Trace.ofText? = some unmappingUnknown ∧
      (exitIn (choosing .error) ["replay", "trace.json", "-c", "chosen.toml"]).status ≠ 0 ∧
        ∃ d ∈ unmappingUnknown.raised (configIn (choosing .error) (some "chosen.toml")),
          d.isError = true := by
  have reads := choosing_reads .error
  have asked : Invocation.ofArguments? ["replay", "trace.json", "-c", "chosen.toml"] =
      some (.replay "trace.json" (some "chosen.toml") false) := by decide +kernel
  have chosen : configIn (choosing .error) (some "chosen.toml") =
      { validation := { minSeverity := .error } } := by decide +kernel
  have raised : ∃ d ∈ unmappingUnknown.raised (configIn (choosing .error) (some "chosen.toml")),
      d.isError = true := by
    rw [chosen]
    decide +kernel
  have tells := (exit_tells_iff asked reads).mpr fun fatal => by
    rw [chosen] at fatal
    cases fatal
  exact ⟨reads, tells.mpr raised, raised⟩

/-- Where only fatal errors are chosen, the unmapping is an error as before, and the exit
status is zero. -/
theorem exit_silent_of_fatalOnly :
    (exitIn (choosing .fatal) ["replay", "trace.json", "-c", "chosen.toml"]).status = 0 ∧
      ∃ d ∈ unmappingUnknown.raised (configIn (choosing .fatal) (some "chosen.toml")),
        d.isError = true := by
  have asked : Invocation.ofArguments? ["replay", "trace.json", "-c", "chosen.toml"] =
      some (.replay "trace.json" (some "chosen.toml") false) := by decide +kernel
  have chosen : configIn (choosing .fatal) (some "chosen.toml") =
      { validation := { minSeverity := .fatal } } := by decide +kernel
  have quiet : (unmappingUnknown.replay
      { validation := { minSeverity := .fatal } }).hasErrors = false := by decide +kernel
  rw [exitIn_replay asked, chosen, replay, choosing_reads]
  exact ⟨congrArg (fun errors : Bool => if errors then 1 else 0) quiet, by decide +kernel⟩

end CommandLine

end GpuAudit
