/-
# `Proofs.CommandLine.Verbosity` — asking for notes gets notes and nothing else

Arguments fall into items: an option that takes a directory is one item with
the argument behind it, and every other argument is an item of its own.  An
item that asks for notes is read like all others, but all it leaves behind is
that it was there (`read_eq`).  So two command lines with the same other items
ask for the same, notes apart.

The main statement is `verbosity_shows_in_notes`: no step of the packager, and
no run of the program, does anything else when it is watched more closely.
What a quiet run prints is what a verbose one prints without the records that
are notes.  A record can take several lines, so this is said of the records
that are `reported`, whose lines are what is printed.
-/
import WasmPackager.Proofs.CommandLine.Reported

namespace WasmPackager.CommandLine

/-! ## Items -/

/-- The argument is an option that takes a directory. -/
def takesDirectory (argument : Bytes) : Bool :=
  argument == ascii "-C" || argument == ascii "--root"

/-- The items of the arguments, in order. -/
def items : List Bytes → List (List Bytes)
  | [] => []
  | argument :: rest =>
    if takesDirectory argument then
      match rest with
      | [] => [[argument]]
      | dir :: rest => [argument, dir] :: items rest
    else [argument] :: items rest

/-- The item asks for notes. -/
def asksNotes (item : List Bytes) : Bool := item == [ascii "-v"] || item == [ascii "--verbose"]

def wantsNotes (arguments : List Bytes) : Bool := (items arguments).any asksNotes

/-- The items of the arguments that ask for something else. -/
def otherItems (arguments : List Bytes) : List (List Bytes) :=
  (items arguments).filter (!asksNotes ·)

/-! ## Reading item by item -/

section Reading

variable {argument : Bytes}

theorem read_directory (h : takesDirectory argument) (options : Options) (hasCommand : Bool)
    (dir : Bytes) (rest : List Bytes) :
    read options hasCommand (argument :: dir :: rest) =
      read { options with root := dir } hasCommand rest := by
  rw [takesDirectory, Bool.or_eq_true, beq_iff_eq, beq_iff_eq] at h
  rcases h with rfl | rfl <;> rfl

theorem read_directory_missing (h : takesDirectory argument) (options : Options)
    (hasCommand : Bool) :
    read options hasCommand [argument] = .error (.directoryMissing argument) := by
  rw [takesDirectory, Bool.or_eq_true, beq_iff_eq, beq_iff_eq] at h
  rcases h with rfl | rfl <;> rfl

theorem read_notes (h : asksNotes [argument]) (options : Options) (hasCommand : Bool)
    (rest : List Bytes) :
    read options hasCommand (argument :: rest) = read (options.withNotes true) hasCommand rest := by
  simp only [asksNotes, Bool.or_eq_true, beq_iff_eq, List.cons.injEq, and_true] at h
  obtain ⟨help, version, notes⟩ :
      (argument == ascii "-h" || argument == ascii "--help") = false ∧
        (argument == ascii "--version") = false ∧
        (argument == ascii "-v" || argument == ascii "--verbose") = true := by
    rcases h with rfl | rfl <;> decide
  rw [read.eq_def]
  simp only [help, version, notes, Bool.false_eq_true, if_false, if_true]
  rfl

/-- Any other argument is a fault, whatever was read before it and comes behind it, or it has an
effect on the options that has nothing to do with notes. -/
theorem read_other (hdir : takesDirectory argument = false) (hnotes : asksNotes [argument] = false)
    (hasCommand : Bool) :
    (∃ fault, ∀ options rest, read options hasCommand (argument :: rest) = .error fault) ∨
      ∃ (effect : Options → Options) (hasCommand' : Bool),
        (∀ options rest, read options hasCommand (argument :: rest) =
          read (effect options) hasCommand' rest) ∧
        ∀ options verbose, effect (options.withNotes verbose) =
          (effect options).withNotes verbose := by
  have hquiet : (argument == ascii "-v" || argument == ascii "--verbose") = false := by
    simpa [asksNotes] using hnotes
  rw [takesDirectory] at hdir
  have unfolded := fun options rest => read.eq_def options hasCommand (argument :: rest)
  simp only [hdir, hquiet, Bool.false_eq_true, if_false] at unfolded
  by_cases help : (argument == ascii "-h" || argument == ascii "--help") = true
  · refine .inr ⟨fun options => { options with help := true }, hasCommand, ?_, fun _ _ => rfl⟩
    intro options rest
    rw [unfolded, if_pos help]
  by_cases version : (argument == ascii "--version") = true
  · refine .inr ⟨fun options => { options with version := true }, hasCommand, ?_, fun _ _ => rfl⟩
    intro options rest
    rw [unfolded, if_neg help, if_pos version]
  simp only [if_neg help, if_neg version] at unfolded
  cases hroot : rootArgument? argument with
  | some root =>
      cases root with
      | nil => exact .inl ⟨_, fun options rest => by rw [unfolded, hroot]⟩
      | cons b root =>
          refine .inr ⟨fun options => { options with root := b :: root }, hasCommand, ?_,
            fun _ _ => rfl⟩
          intro options rest
          rw [unfolded, hroot]
  | none =>
      simp only [hroot] at unfolded
      by_cases hyphen : (argument.head? == some 45) = true
      · exact .inl ⟨_, fun options rest => by rw [unfolded, if_pos hyphen]⟩
      cases hasCommand with
      | true => exact .inl ⟨_, fun options rest => by rw [unfolded, if_neg hyphen, if_pos rfl]⟩
      | false =>
          simp only [if_neg hyphen, Bool.false_eq_true, if_false] at unfolded
          cases hmode : mode? argument with
          | none => exact .inl ⟨_, fun options rest => by rw [unfolded, hmode]⟩
          | some mode =>
              refine .inr ⟨fun options => { options with mode }, true, ?_, fun _ _ => rfl⟩
              intro options rest
              rw [unfolded, hmode]

theorem read_eq (options : Options) (hasCommand : Bool) (arguments : List Bytes) :
    read options hasCommand arguments =
      (read (options.withNotes false) hasCommand (otherItems arguments).flatten).map
        (·.withNotes (options.verbose || wantsNotes arguments)) := by
  unfold otherItems wantsNotes
  fun_induction items arguments generalizing options hasCommand with
  | case1 =>
      have same : ((options.withNotes false).withNotes options.verbose) = options := rfl
      rw [List.filter_nil, List.flatten_nil, List.any_nil, Bool.or_false, read, read]
      by_cases complete : (hasCommand || options.help || options.version) = true
      · rw [if_pos complete, if_pos (by exact complete), Except.map, same]
      · rw [if_neg complete, if_neg (by exact complete), Except.map]
  | case2 argument hdir =>
      have hnotes : asksNotes [argument] = false := by
        rw [takesDirectory, Bool.or_eq_true, beq_iff_eq, beq_iff_eq] at hdir
        rcases hdir with rfl | rfl <;> decide
      have kept : ([[argument]].filter (!asksNotes ·)).flatten = [argument] := by simp [hnotes]
      rw [kept, read_directory_missing hdir, read_directory_missing hdir]
      rfl
  | case3 argument hdir dir rest ih =>
      have hnotes : asksNotes [argument, dir] = false := by simp [asksNotes]
      rw [List.filter_cons_of_pos (by simp [hnotes]), List.any_cons, hnotes, Bool.false_or,
        List.flatten_cons, List.cons_append, List.cons_append, List.nil_append,
        read_directory hdir, read_directory hdir, ih]
      rfl
  | case4 argument rest hdir ih =>
      rw [Bool.not_eq_true] at hdir
      cases hnotes : asksNotes [argument] with
      | true =>
          rw [List.filter_cons_of_neg (by simp [hnotes]), List.any_cons, hnotes, Bool.true_or,
            Bool.or_true, read_notes hnotes, ih]
          rfl
      | false =>
          rw [List.filter_cons_of_pos (by simp [hnotes]), List.any_cons, hnotes, Bool.false_or,
            List.flatten_cons, List.singleton_append]
          rcases read_other hdir hnotes hasCommand with
            ⟨fault, hfault⟩ | ⟨effect, hasCommand', heffect, hcommutes⟩
          · rw [hfault, hfault]
            rfl
          · have same := congrArg Options.verbose (hcommutes options options.verbose)
            change (effect options).verbose = options.verbose at same
            rw [heffect, heffect, ih, hcommutes, same]

end Reading

theorem parse_eq (argv : List Bytes) :
    parse argv = (read .none false (otherItems (argv.drop 1)).flatten).map
      (·.withNotes (wantsNotes (argv.drop 1))) :=
  read_eq .none false (argv.drop 1)

/-! ## Running -/

/-- Command lines with the same other items have the same outcome, report the same records, and
print of these what is asked for. -/
theorem run_withNotes (runner : Runner) (h : Host) (others : List (List Bytes)) :
    ∃ (outcome : Outcome) (records : List Record) (last : Bytes),
      ∀ argv, otherItems (argv.drop 1) = others →
        reported runner argv h = records ∧ ending argv = last ∧
          run runner argv h =
            { outcome with err := printed (wantsNotes (argv.drop 1)) records ++ last } := by
  cases hread : read .none false others.flatten with
  | error fault =>
      refine ⟨.untouched 2 [] [] h, [failureRecord (.usage fault)], usageText,
        fun argv hitems => ?_⟩
      have hparse : parse argv = .error fault := by rw [parse_eq, hitems, hread, Except.map]
      have grave : (failureRecord (.usage fault)).severity ≠ .note := fun heq => by cases heq
      rw [run, ending, reported, hparse, printed_of_grave grave]
      exact ⟨rfl, rfl, rfl⟩
  | ok options =>
      refine ⟨perform runner (options.withNotes false) h, options.reported runner h, [],
        fun argv hitems => ?_⟩
      have hparse : parse argv = .ok (options.withNotes (wantsNotes (argv.drop 1))) := by
        rw [parse_eq, hitems, hread, Except.map]
      rw [run, ending, reported, hparse]
      refine ⟨rfl, rfl, ?_⟩
      rw [List.append_nil]
      exact perform_withNotes runner options h _

/-- How closely the packager is watched never matters to what it does.  With a quiet logger, with a
verbose one and with none each of its steps gives the same, calls the runner alike, and leaves the
same host; the quiet logger has counted the same problems and has written what the verbose one has
but for the notes.  Command lines that differ only in the items that ask for notes have the same
status, output, calls and host, and report the same: the records of the pipeline and that of the
failure.  All of them are printed if notes are asked for, and otherwise all but the notes. -/
theorem verbosity_shows_in_notes :
    (∀ dir extensions, (Artifact.scan dir extensions).Impartial) ∧
    (∀ text file, (Pipeline.adapt text file).Impartial) ∧
    (∀ c, (Pipeline.package c).Impartial) ∧
    (∀ runner c, (Pipeline.check runner c).Impartial ∧ (Pipeline.build runner c).Impartial) ∧
    (∀ runner c mode, (Pipeline.run runner c mode).Impartial) ∧
    ∀ runner argv argv' h, otherItems (argv.drop 1) = otherItems (argv'.drop 1) →
      let first := run runner argv h
      let second := run runner argv' h
      first.status = second.status ∧ first.out = second.out ∧ first.calls = second.calls ∧
        first.host = second.host ∧ ending argv = ending argv' ∧
        reported runner argv h = reported runner argv' h ∧
        first.err = printed (wantsNotes (argv.drop 1)) (reported runner argv h) ++ ending argv ∧
        second.err =
          printed (wantsNotes (argv'.drop 1)) (reported runner argv' h) ++ ending argv' := by
  refine ⟨fun dir extensions =>
      Step.impartial_of_unswayed (Artifact.unswayed_scan · dir extensions),
    fun text file => Step.impartial_of_unswayed (Pipeline.unswayed_adapt · text file),
    fun c => Step.impartial_of_unswayed (Pipeline.unswayed_package · c),
    fun runner c => ⟨Step.impartial_of_unswayed (Pipeline.unswayed_check · runner c),
      Step.impartial_of_unswayed (Pipeline.unswayed_build · runner c)⟩,
    fun runner c mode => Step.impartial_of_unswayed (Pipeline.unswayed_run · runner c mode), ?_⟩
  intro runner argv argv' h hitems
  obtain ⟨outcome, records, last, hsame⟩ := run_withNotes runner h (otherItems (argv'.drop 1))
  obtain ⟨hrecords, hlast, hrun⟩ := hsame argv hitems
  obtain ⟨hrecords', hlast', hrun'⟩ := hsame argv' rfl
  simp only [hrun, hrun', hrecords, hrecords', hlast, hlast', and_self]

/-- A `-v` behind `-C` is the directory to look in; the others ask for notes.  The command fails. -/
theorem verbosity_shows_in_notes_sample :
    let quiet := [ascii "screeps-build", ascii "-C", ascii "-v", ascii "check"]
    let verbose := [ascii "screeps-build", ascii "--verbose", ascii "-C", ascii "-v", ascii "-v",
      ascii "check"]
    let runner : Runner := fun _ h => (.ok ⟨false, 101⟩, h)
    let h : Host := ⟨⟨#[⟨.dir 0 [(ascii "-v", 1)] false, Inode.directoryMode, 0⟩,
      ⟨.dir 0 [] false, Inode.directoryMode, 0⟩], 0⟩, FileSystem.root⟩
    let command := ascii "'cargo check --target=wasm32-unknown-unknown'"
    let started := ascii "note: running check\nnote: running " ++ command ++ [10]
    let failed := ascii "error: " ++ command ++ ascii " exited with a non-zero exit code: 101\n"
    otherItems (quiet.drop 1) = otherItems (verbose.drop 1) ∧
      (run runner quiet h).status = (run runner verbose h).status ∧
      (run runner quiet h).host = (run runner verbose h).host ∧
      (run runner quiet h).err = failed ∧ (run runner verbose h).err = started ++ failed := by
  intro quiet verbose runner h command started failed
  have hitems : otherItems (quiet.drop 1) = otherItems (verbose.drop 1) := by decide
  obtain ⟨hstatus, -, -, hhost, -, hsame, herr, herr'⟩ :=
    verbosity_shows_in_notes.2.2.2.2.2 runner quiet verbose h hitems
  have hreported : reported runner quiet h =
      [⟨.note, ascii "running check"⟩, ⟨.note, ascii "running " ++ command⟩,
        ⟨.error, command ++ ascii " exited with a non-zero exit code: 101"⟩] := by decide +kernel
  rw [hreported] at herr
  rw [← hsame, hreported] at herr'
  exact ⟨hitems, hstatus, hhost, herr.trans (by decide +kernel), herr'.trans (by decide +kernel)⟩

end WasmPackager.CommandLine
