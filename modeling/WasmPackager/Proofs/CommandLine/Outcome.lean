/-
# `Proofs.CommandLine.Outcome` — status, output and effects of a run

Everything a run of the program shows is said here at once
(`outcome_of_run`), for every command line, every host and every runner: with
which status it ends, what it prints on which stream, which command it hands
the runner and what follows from what the runner makes of it, and what it
leaves of the host.

A failure reaches the error stream by one of two ways, as a usage message or
through the logger.  Each run that fails prints the record of its failure, once
and at the end of what it prints (before the usage text).  In front of it is
what the logger of the pipeline has written, which is notes, and nothing for a
quiet run.
-/
import WasmPackager.Proofs.CommandLine.Reported
import WasmPackager.Proofs.Pipeline.Severity

namespace WasmPackager

def errorLine (message : Bytes) : Bytes := ascii "error: " ++ message ++ [10]

namespace Pipeline

/-- The one command of a configuration for a mode, word by word. -/
theorem command_eq (c : Config) (mode : Mode) :
    command c mode =
      ⟨c.cargo,
        match mode with
        | .check => [ascii "check", ascii "--target=wasm32-unknown-unknown"]
        | .build => [ascii "web", ascii "build", ascii "--target=wasm32-unknown-unknown"] ++
            if c.release then [ascii "--release"] else [],
        c.root⟩ := by
  have htarget : Config.targetFlag = ascii "--target=wasm32-unknown-unknown" := by decide
  cases mode with
  | check => rw [command, Config.checkCommand, htarget]
  | build => rw [command, Config.buildCommand, htarget, Config.releaseFlag]

/-- What handing a command to a runner leads to: nothing more if the command does not succeed, and
otherwise that a build packages what the command left. -/
def followed (runner : Runner) (c : Config) (mode : Mode) (command : Command) (h : Host) :
    Except Failure Unit × Host :=
  match launched runner command h with
  | (.error f, left) => (.error f, left)
  | (.ok (), left) =>
    match mode with
    | .check => (.ok (), left)
    | .build =>
      let (result, session) := (package c).on ⟨left, none, []⟩
      (result.map fun _ => (), session.host)

/-- A run hands its command to the runner once, and goes on from what the runner leaves. -/
theorem run_followed (runner : Runner) (c : Config) (mode : Mode) (s : Session) :
    (((run runner c mode).on s).1, ((run runner c mode).on s).2.host) =
      followed runner c mode (command c mode) s.host := by
  cases mode with
  | check =>
      obtain ⟨hresult, hhost, -⟩ := on_check runner c s
      have hcommand : command c .check = c.checkCommand := rfl
      rw [run, hresult, hhost, followed, hcommand, ← launched_host]
      generalize launched runner c.checkCommand s.host = l
      rcases l with ⟨_ | _, _⟩ <;> rfl
  | build =>
      have hcommand : command c .build = c.buildCommand := rfl
      rw [on_run_build, followed, hcommand]
      obtain ⟨⟨stage, hends⟩, -⟩ := build_ends runner c s
      generalize ((build runner c).on s).1 = result at hends ⊢
      generalize ((build runner c).on s).2.host = after at hends ⊢
      cases hends with
      | launch hlaunch =>
          rw [hlaunch]
          rfl
      | @package _ _ left _ hlaunch hends =>
          rw [hlaunch]
          obtain ⟨⟨stage', hends'⟩, -⟩ := package_ends c ⟨left, none, []⟩
          obtain ⟨-, rfl, rfl⟩ := hends'.unique hends
          rfl

end Pipeline

namespace CommandLine

theorem line_failureRecord {f : Failure} (h : f.severity = .error) :
    (failureRecord f).line = errorLine f.message := by
  simp [failureRecord, Record.line, errorLine, h, Severity.word, ascii]

theorem printed_failure {f : Failure} (h : f.severity = .error) (verbose : Bool) :
    printed verbose [failureRecord f] = errorLine f.message := by
  have grave : (failureRecord f).severity ≠ .note := by
    rw [failureRecord, h]
    intro heq
    cases heq
  rw [printed_of_grave grave, line_failureRecord h]

/-- What a watched run of the pipeline leaves in its logger is notes, none if that is quiet. -/
theorem log_of_run (runner : Runner) (c : Config) (mode : Mode) (verbose : Bool) (h : Host) :
    ∃ log, ((Pipeline.run runner c mode).on ⟨h, some (.fresh verbose), []⟩).2.log = some log ∧
      log.verbose = verbose ∧ (∀ r ∈ log.written, r.severity = .note) ∧
      (verbose = false → log.written = []) := by
  obtain ⟨notes, hlog⟩ := Pipeline.discreet_run runner c mode ⟨h, some (.fresh verbose), []⟩
  refine ⟨notes.foldl Logger.note (.fresh verbose), hlog, ?_⟩
  rw [Logger.foldl_note]
  cases verbose <;> simp [Logger.fresh]

theorem perform_of_resolved {runner : Runner} {options : Options} {h : Host} {c : Config}
    (help : options.help = false) (version : options.version = false)
    (hc : Project.resolve h options.root = .ok c) {command : Command}
    (hcommand : Pipeline.command c options.mode = command) :
    let ran := (Pipeline.run runner c options.mode).on ⟨h, some (.fresh options.verbose), []⟩
    (ran.1, ran.2.host) = Pipeline.followed runner c options.mode command h ∧
    ∃ log, ran.2.log = some log ∧ (∀ r ∈ log.written, r.severity = .note) ∧
      (options.verbose = false → log.written = []) ∧
      match ran.1 with
      | .ok () => perform runner options h = ⟨0, [], log.text, ran.2.host, [command]⟩
      | .error f =>
        let last := printed options.verbose [failureRecord f]
        perform runner options h = ⟨1, [], log.text ++ last, ran.2.host, [command]⟩ ∧
          (f.severity = .error → last = errorLine f.message) ∧
          (f.severity = .error ∨ (runner command h).1 = .error f) := by
  subst hcommand
  have hfollowed := Pipeline.run_followed runner c options.mode
    ⟨h, some (.fresh options.verbose), []⟩
  have hcalls := Pipeline.calls_run runner c options.mode ⟨h, some (.fresh options.verbose), []⟩
  have hsevere := fun f => @Pipeline.severity_of_run f runner c options.mode
    ⟨h, some (.fresh options.verbose), []⟩
  obtain ⟨log, hlog, hverbose, hnotes, hquiet⟩ :=
    log_of_run runner c options.mode options.verbose h
  rw [perform, help, version, hc]
  simp only [Bool.false_eq_true, if_false]
  generalize (Pipeline.run runner c options.mode).on ⟨h, some (.fresh options.verbose), []⟩ = ran
    at hfollowed hcalls hsevere hlog ⊢
  obtain ⟨result, host, _, calls⟩ := ran
  obtain rfl : _ = some log := hlog
  obtain rfl : calls = _ := hcalls
  refine ⟨hfollowed, log, rfl, hnotes, hquiet, ?_⟩
  cases result with
  | ok _ => rfl
  | error f =>
      refine ⟨?_, fun hf => printed_failure hf options.verbose, hsevere f rfl⟩
      simp only [Option.getD_some, text_report, hverbose]
      rfl

theorem perform_of_unresolved {runner : Runner} {options : Options} {h : Host} {f : Failure}
    (help : options.help = false) (version : options.version = false)
    (hf : Project.resolve h options.root = .error f) :
    perform runner options h = ⟨1, [], errorLine f.message, h, []⟩ := by
  rw [perform, help, version, hf]
  simp only [Bool.false_eq_true, if_false, text_report,
    printed_failure (Project.severity_of_resolve hf)]
  rfl

theorem status_perform_ne (runner : Runner) (options : Options) (h : Host) :
    (perform runner options h).status ≠ 2 := by
  intro hstatus
  rw [perform] at hstatus
  split at hstatus
  · cases hstatus
  split at hstatus
  · cases hstatus
  dsimp only at hstatus
  split at hstatus
  · cases hstatus
  · split at hstatus <;> cases hstatus

/-- What a run shows.  It ends with status 2 exactly if its arguments cannot be read, and then it
prints why and the usage text.  Asked for help, or else for the version, it prints that.  In these
cases, and if there is no configuration, the runner is not called and the host stays as it is.

Otherwise the runner is given one command, once: the program of the configuration, in the project's
root, with the arguments of what was asked for.  The run leaves the host that follows from what the
runner makes of it, and the status tells whether the pipeline succeeded.  What it prints is what the
pipeline's logger has written, notes that a quiet run does not have, and behind them the line of the
failure, if there is one.  That is an error unless the runner, which owes one, handed over a lesser
record in the place of an error. -/
theorem outcome_of_run (runner : Runner) (argv : List Bytes) (h : Host) :
    ((run runner argv h).status = 2 ↔ ∃ fault, parse argv = .error fault) ∧
    match parse argv with
    | .error fault => run runner argv h = ⟨2, [], errorLine fault.message ++ usageText, h, []⟩
    | .ok options =>
      if options.help then run runner argv h = ⟨0, usageText, [], h, []⟩
      else if options.version then run runner argv h = ⟨0, versionText, [], h, []⟩
      else
        match Project.resolve h options.root with
        | .error f => run runner argv h = ⟨1, [], errorLine f.message, h, []⟩
        | .ok c =>
          let command : Command :=
            ⟨c.cargo,
              match options.mode with
              | .check => [ascii "check", ascii "--target=wasm32-unknown-unknown"]
              | .build => [ascii "web", ascii "build", ascii "--target=wasm32-unknown-unknown"] ++
                  if c.release then [ascii "--release"] else [],
              c.root⟩
          let ran := (Pipeline.run runner c options.mode).on ⟨h, some (.fresh options.verbose), []⟩
          (ran.1, ran.2.host) = Pipeline.followed runner c options.mode command h ∧
          ∃ log, ran.2.log = some log ∧ (∀ r ∈ log.written, r.severity = .note) ∧
            (options.verbose = false → log.written = []) ∧
            match ran.1 with
            | .ok () => run runner argv h = ⟨0, [], log.text, ran.2.host, [command]⟩
            | .error f =>
              let last := printed options.verbose [failureRecord f]
              run runner argv h = ⟨1, [], log.text ++ last, ran.2.host, [command]⟩ ∧
                (f.severity = .error → last = errorLine f.message) ∧
                (f.severity = .error ∨ (runner command h).1 = .error f) := by
  cases hparse : parse argv with
  | error fault =>
      have hrun : run runner argv h = ⟨2, [], errorLine fault.message ++ usageText, h, []⟩ := by
        have grave : (Failure.usage fault).severity = .error := rfl
        rw [run, hparse]
        simp only [Outcome.untouched, line_failureRecord grave]
        rfl
      exact ⟨⟨fun _ => ⟨fault, rfl⟩, fun _ => by rw [hrun]⟩, hrun⟩
  | ok options =>
      have hrun : run runner argv h = perform runner options h := by rw [run, hparse]
      rw [hrun]
      refine ⟨⟨fun h2 => absurd h2 (status_perform_ne runner options h), ?_⟩, ?_⟩
      · rintro ⟨fault, hfault⟩
        cases hfault
      simp only
      cases help : options.help with
      | true => simp [perform, help, Outcome.untouched]
      | false =>
          cases version : options.version with
          | true => simp [perform, help, version, Outcome.untouched]
          | false =>
              cases hresolve : Project.resolve h options.root with
              | error f => exact perform_of_unresolved help version hresolve
              | ok c =>
                  exact perform_of_resolved help version hresolve
                    (Pipeline.command_eq c options.mode)

end CommandLine
end WasmPackager
