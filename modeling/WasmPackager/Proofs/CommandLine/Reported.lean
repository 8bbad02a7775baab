/-
# `Proofs.CommandLine.Reported` — what a run reports, and what is printed of it

A run reports records: those that the pipeline hands its logger on the way, and
in the end that of its failure.  `reported` collects them with nothing left
out: the pipeline's part is what a verbose logger has written when it is over.
The error stream of a run, verbose or not, is what is `printed` of these very
records, and everything else a run shows is the same either way
(`perform_withNotes`).
-/
import WasmPackager.CommandLine
import WasmPackager.Proofs.Pipeline.Notes
import WasmPackager.Proofs.Pipeline.Verbosity

namespace WasmPackager

/-- The records that the logger of a session has written. -/
def Session.records (s : Session) : List Record := (s.log.map Logger.written).getD []

theorem Logger.foldl_note (log : Logger) (notes : List Bytes) :
    notes.foldl note log =
      { log with
        written := log.written ++ if log.verbose then notes.map (⟨.note, ·⟩) else [] } := by
  obtain ⟨verbose, written, problems⟩ := log
  cases verbose with
  | false => simp [foldl_note_of_quiet]
  | true =>
      induction notes generalizing written with
      | nil => simp
      | cons m notes ih => simp [note, report, ih]

namespace CommandLine

/-! ## Records -/

/-- What is printed of some records: notes are printed by a verbose run only. -/
def printed (verbose : Bool) (records : List Record) : Bytes :=
  (if verbose then records else records.filter (·.severity != .note)).flatMap Record.line

/-- The record of what a run failed with, if it did. -/
def failureRecords : Except Failure Unit → List Record
  | .ok () => []
  | .error failure => [failureRecord failure]

/-- What a run with readable arguments reports: what the pipeline hands a logger that writes
everything, and what the run fails with. -/
def Options.reported (options : Options) (runner : Runner) (h : Host) : List Record :=
  if options.help || options.version then []
  else
    match Project.resolve h options.root with
    | .error failure => [failureRecord failure]
    | .ok config =>
      let (result, session) :=
        (Pipeline.run runner config options.mode).on ⟨h, some (.fresh true), []⟩
      session.records ++ failureRecords result

def reported (runner : Runner) (argv : List Bytes) (h : Host) : List Record :=
  match parse argv with
  | .error fault => [failureRecord (.usage fault)]
  | .ok options => options.reported runner h

/-- What a run prints behind its records: the usage text if the arguments cannot be read. -/
def ending (argv : List Bytes) : Bytes :=
  match parse argv with
  | .error _ => usageText
  | .ok _ => []

/-! ## Printing -/

theorem printed_append (verbose : Bool) (first second : List Record) :
    printed verbose (first ++ second) = printed verbose first ++ printed verbose second := by
  cases verbose <;> simp [printed]

theorem printed_of_grave {r : Record} (h : r.severity ≠ .note) (verbose : Bool) :
    printed verbose [r] = r.line := by
  cases verbose <;> simp [printed, h]

theorem text_report (log : Logger) (r : Record) :
    (log.report r).text = log.text ++ printed log.verbose [r] := by
  obtain ⟨severity, message⟩ := r
  cases severity <;> cases h : log.verbose <;> simp [Logger.report, Logger.text, printed, h]

/-! ## Running -/

/-- The options with notes asked for or not. -/
def Options.withNotes (options : Options) (verbose : Bool) : Options := { options with verbose }

/-- A verbose and a quiet run of the pipeline end alike, and what the quiet logger has written is
what is printed of what the verbose one has. -/
theorem pipeline_withNotes (runner : Runner) (c : Config) (mode : Mode) (h : Host) :
    ∃ result host calls records, ∀ verbose, ∃ log,
      (Pipeline.run runner c mode).on ⟨h, some (.fresh verbose), []⟩ =
        (result, ⟨host, some log, calls⟩) ∧
      log.verbose = verbose ∧ log.text = printed verbose records ∧
      (verbose = true → log.written = records) := by
  obtain ⟨notes, hlog⟩ := Pipeline.discreet_run runner c mode ⟨h, some (.fresh true), []⟩
  have quiet := Pipeline.unswayed_run carriesNotes_quieted runner c mode ⟨h, some (.fresh true), []⟩
  rcases hon : (Pipeline.run runner c mode).on ⟨h, some (.fresh true), []⟩ with
    ⟨result, host, log, calls⟩
  rw [hon] at hlog quiet
  subst hlog
  refine ⟨result, host, calls, (notes.foldl Logger.note (.fresh true)).written, fun verbose => ?_⟩
  cases verbose with
  | true =>
      have loud := congrArg Logger.verbose (Logger.foldl_note (.fresh true) notes)
      exact ⟨_, hon, loud, rfl, fun _ => rfl⟩
  | false => exact ⟨_, quiet, rfl, rfl, fun heq => by cases heq⟩

/-- Asking for notes changes nothing about a run but what it prints of its records. -/
theorem perform_withNotes (runner : Runner) (options : Options) (h : Host) (verbose : Bool) :
    perform runner (options.withNotes verbose) h =
      { perform runner (options.withNotes false) h with
        err := printed verbose (options.reported runner h) } := by
  have unwritten : printed verbose [] = [] := by cases verbose <;> rfl
  by_cases help : options.help = true
  · simp only [perform, Options.withNotes, Options.reported, help, if_true, Outcome.untouched,
      Bool.true_or, unwritten]
  by_cases version : options.version = true
  · simp only [perform, Options.withNotes, Options.reported, help, version, if_true,
      Outcome.untouched, Bool.or_true, unwritten]
    rfl
  have asked : (options.help || options.version) = false := by simp [help, version]
  cases hc : Project.resolve h options.root with
  | error failure =>
      simp only [perform, Options.withNotes, Options.reported, help, version, hc, Outcome.untouched,
        text_report]
      rfl
  | ok c =>
      obtain ⟨result, host, calls, records, hon⟩ := pipeline_withNotes runner c options.mode h
      obtain ⟨log, hlog, hverbose, htext, -⟩ := hon verbose
      obtain ⟨quiet, hquiet, -⟩ := hon false
      obtain ⟨loud, hloud, -, -, hrecords⟩ := hon true
      have hreported : options.reported runner h = records ++ failureRecords result := by
        simp only [Options.reported, asked, hc, hloud, Session.records, Option.map_some,
          Option.getD_some, hrecords, Bool.false_eq_true, if_false]
      rw [hreported]
      cases result with
      | ok _ =>
          simp only [perform, Options.withNotes, help, version, hc, hlog, hquiet, Option.getD_some,
            htext, failureRecords, List.append_nil]
          rfl
      | error failure =>
          simp only [perform, Options.withNotes, help, version, hc, hlog, hquiet, Option.getD_some,
            text_report, hverbose, htext, failureRecords, printed_append]
          rfl

end CommandLine
end WasmPackager
