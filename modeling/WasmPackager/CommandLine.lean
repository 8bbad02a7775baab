/-
# `CommandLine` — the packager as a program

Arguments are read from left to right; an option that takes a directory takes
whatever argument follows it.  The first argument that cannot be read decides
the failure.  A run ends with status 0 if it succeeded, 1 if it failed, and 2
if the arguments could not be read.
-/
import WasmPackager.Pipeline
import WasmPackager.Project.Resolve

namespace WasmPackager.CommandLine

/-- What the arguments ask for. -/
structure Options where
  mode : Mode
  /-- The project root; empty for the working directory. -/
  root : Bytes
  verbose : Bool
  help : Bool
  version : Bool
deriving DecidableEq

def Options.none : Options := ⟨.build, [], false, false, false⟩

/-! ## Reading the arguments -/

/-- The directory of an argument that gives the project root in one piece. -/
def rootArgument? (argument : Bytes) : Option Bytes :=
  let option := ascii "--root="
  if option.isPrefixOf argument then some (argument.drop option.length) else .none

/-- The mode a command word stands for. -/
def mode? (argument : Bytes) : Option Mode :=
  if argument == ascii "check" then some .check
  else if argument == ascii "build" then some .build
  else .none

/-- Reads the arguments left, given what those before them asked for and whether there was a
command among them. -/
def read (options : Options) (hasCommand : Bool) : List Bytes → Except UsageFault Options
  | [] =>
    if hasCommand || options.help || options.version then .ok options else .error .noCommand
  | argument :: rest =>
    if argument == ascii "-h" || argument == ascii "--help" then
      read { options with help := true } hasCommand rest
    else if argument == ascii "--version" then
      read { options with version := true } hasCommand rest
    else if argument == ascii "-v" || argument == ascii "--verbose" then
      read { options with verbose := true } hasCommand rest
    else if argument == ascii "-C" || argument == ascii "--root" then
      match rest with
      | [] => .error (.directoryMissing argument)
      | root :: rest => read { options with root } hasCommand rest
    else
      match rootArgument? argument with
      | some [] => .error (.directoryMissing (ascii "--root"))
      | some root => read { options with root } hasCommand rest
      | .none =>
        if argument.head? == some 45 then .error (.unknownOption argument)
        else if hasCommand then .error (.unexpectedArgument argument)
        else
          match mode? argument with
          | some mode => read { options with mode } true rest
          | .none => .error (.unknownCommand argument)

/-- Reads a command line, which begins with the name the program was called by. -/
def parse (argv : List Bytes) : Except UsageFault Options := read .none false (argv.drop 1)

/-! ## Texts -/

def title : Bytes := ascii "screeps-build v0.1.0"

/-- The answer to `--version`. -/
def versionText : Bytes := Bytes.unlines [title]

/-- The answer to `--help`. -/
def usageText : Bytes :=
  Bytes.unlines [
    title ++ ascii " - package cargo-web output for the Screeps runtime",
    ascii "",
    ascii "Usage: screeps-build [options] <check|build>",
    ascii "",
    ascii "Commands:",
    ascii "  check                          Run 'cargo check' for wasm32-unknown-unknown",
    ascii "  build                          Run 'cargo web build' and write target/main.js",
    ascii "                                 and target/compiled.wasm",
    ascii "",
    ascii "Options:",
    ascii "  -C, --root DIR                 Project root (default: current directory)",
    ascii "  -v, --verbose                  Print progress notes",
    ascii "  -h, --help                     Show this help message",
    ascii "  --version                      Show version information",
    ascii "",
    ascii "The project root may contain a screeps.project manifest:",
    ascii "  cargo <program>                Program used instead of 'cargo'",
    ascii "  release on|off                 Build with --release (default on)"]

/-! ## Running -/

/-- What a run leaves: an exit status, what it printed, the host, and the commands it ran. -/
structure Outcome where
  status : Nat
  out : Bytes
  err : Bytes
  host : Host
  calls : List Command

def failureRecord (f : Failure) : Record := ⟨f.severity, f.message⟩

def Outcome.untouched (status : Nat) (out err : Bytes) (h : Host) : Outcome :=
  ⟨status, out, err, h, []⟩

/-- Does what readable arguments ask for. -/
def perform (runner : Runner) (options : Options) (h : Host) : Outcome :=
  if options.help then .untouched 0 usageText [] h
  else if options.version then .untouched 0 versionText [] h
  else
    let log := Logger.fresh options.verbose
    match Project.resolve h options.root with
    | .error failure => .untouched 1 [] (log.report (failureRecord failure)).text h
    | .ok config =>
      let (result, session) := (Pipeline.run runner config options.mode).on ⟨h, some log, []⟩
      let log := session.log.getD log
      match result with
      | .ok () => ⟨0, [], log.text, session.host, session.calls⟩
      | .error failure =>
        ⟨1, [], (log.report (failureRecord failure)).text, session.host, session.calls⟩

def run (runner : Runner) (argv : List Bytes) (h : Host) : Outcome :=
  match parse argv with
  | .error fault => .untouched 2 [] ((failureRecord (.usage fault)).line ++ usageText) h
  | .ok options => perform runner options h

end WasmPackager.CommandLine
