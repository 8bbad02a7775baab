/-
# `Report.Failure` — the causes for which the packager gives up

Each constructor of `Failure` is one cause, with the data its message names.
`Failure.message` is the only place where causes are put into words,
`Failure.category` sorts them into the classes callers tell apart, and
`Failure.severity` says how grave they are.
-/
import WasmPackager.Artifact.Kind
import WasmPackager.Command.Basic
import WasmPackager.FileSystem.SystemError
import WasmPackager.Report.Logger

namespace WasmPackager

inductive StartFault
  | emptyName
  | workingDirectory (dir : Bytes) (reason : ErrorNumber)
  | execution (reason : ErrorNumber)
deriving DecidableEq

/-- The half of the generated loader that does not have its expected form. -/
inductive LoaderPart
  | opening
  | closing
deriving DecidableEq

inductive LineFault
  | valueMissing (line : Bytes)
  | duplicate (directive : Bytes)
  | notSwitch (value : Bytes)
  | unknown (directive : Bytes)
deriving DecidableEq

inductive UsageFault
  | directoryMissing (option : Bytes)
  | unknownOption (argument : Bytes)
  | unexpectedArgument (argument : Bytes)
  | unknownCommand (argument : Bytes)
  | noCommand
deriving DecidableEq

/-- A cause for which the packager gives up. -/
inductive Failure
  /-- The program of a command could not be started. -/
  | notStarted (program : Bytes) (fault : StartFault)
  /-- A runner would not start a command, for a reason in its own words.  It owes an error, but
  nothing keeps it from handing over less. -/
  | refused (reason : Bytes) (severity : Severity := .error)
  /-- A program ran and did not succeed. -/
  | childFailed (command : Command) (exitCode : Int)
  | artifactMissing (kind : ArtifactKind) (dir : Bytes)
  | artifactAmbiguous (kind : ArtifactKind) (dir : Bytes) (names : List Bytes)
  | loaderUnexpected (part : LoaderPart) (file : Bytes)
  | loaderOverlap (file : Bytes)
  | entryPointMissing (file : Bytes)
  /-- A span lies outside its text; spans that come from a search never do. -/
  | spanOutOfRange
  | directoryUnreadable (dir : Bytes) (cause : SystemError)
  /-- A directory was opened, and not all its entries could be had. -/
  | listingBroken (dir : Bytes) (cause : SystemError)
  | fileUnopenable (path : Bytes)
  | fileTooLarge (path : Bytes)
  | readingBroken (path : Bytes)
  | memoryExhausted (path : Bytes)
  | directoryNotCreated (dir : Bytes) (cause : SystemError)
  | fileNotWritten (path : Bytes)
  | fileNotReplaced (path : Bytes) (cause : SystemError)
  | manifestUnopenable (path : Bytes)
  | manifestLine (path : Bytes) (line : Nat) (fault : LineFault)
  | rootNotDirectory (root : Bytes)
  | rootUnresolvable (dir : Bytes) (cause : SystemError)
  | usage (fault : UsageFault)
deriving DecidableEq

/-- The classes of failures that callers tell apart. -/
inductive Category
  | spawn
  | execution
  | missingArtifact
  | ambiguousArtifact
  | unexpectedStructure
  | missingEntryPoint
  | range
  | io
  | config
  | usage
deriving DecidableEq

/-! ## Words -/

def StartFault.message : StartFault → Bytes
  | emptyName => ascii "empty program name"
  | workingDirectory dir reason =>
    ascii "cannot enter working directory '" ++ dir ++ ascii "': " ++ SystemError.words reason
  | execution reason => SystemError.words reason

def LoaderPart.word : LoaderPart → Bytes
  | opening => ascii "prefix"
  | closing => ascii "suffix"

def LineFault.message : LineFault → Bytes
  | valueMissing line => ascii "directive missing value: '" ++ line ++ ascii "'"
  | duplicate directive => ascii "duplicate directive '" ++ directive ++ ascii "'"
  | notSwitch value =>
    ascii "invalid value '" ++ value ++ ascii "' for release; expected on or off"
  | unknown directive => ascii "unknown directive '" ++ directive ++ ascii "'"

def UsageFault.message : UsageFault → Bytes
  | directoryMissing option => option ++ ascii " requires a directory"
  | unknownOption argument => ascii "unknown option: " ++ argument
  | unexpectedArgument argument => ascii "unexpected argument: " ++ argument
  | unknownCommand argument =>
    ascii "unknown command '" ++ argument ++ ascii "'; expected 'check' or 'build'"
  | noCommand => ascii "no command given; expected 'check' or 'build'"

namespace Failure

/-- The message of a failure, without the word for its severity. -/
def message : Failure → Bytes
  | notStarted program fault =>
    ascii "could not start '" ++ program ++ ascii "': " ++ fault.message
  | refused reason _ => reason
  | childFailed command exitCode =>
    ascii "'" ++ command.describe ++ ascii "' exited with a non-zero exit code: " ++
      Bytes.ofInt exitCode
  | artifactMissing kind dir =>
    ascii "no " ++ kind.name ++ ascii " files found in " ++ dir
  | artifactAmbiguous kind dir names =>
    ascii "multiple " ++ kind.name ++ ascii " files found in " ++ dir ++ ascii ":" ++
      names.flatMap (32 :: ·)
  | loaderUnexpected part file =>
    ascii "'cargo web' generated an unexpected JS " ++ part.word ++ ascii " in " ++ file ++
      ascii ". This means it has been updated without screeps-build also being updated; " ++
      ascii "screeps-build needs updating before it can process this output. " ++
      ascii "Please report this issue and include the first ~30 lines of " ++ file ++ ascii "."
  | loaderOverlap file =>
    ascii "'cargo web' generated an unexpected JS layout in " ++ file ++
      ascii ": the expected prefix and suffix overlap. " ++
      ascii "screeps-build needs updating before it can process this output."
  | entryPointMissing file =>
    ascii "'cargo web' generated unexpected JS output in " ++ file ++
      ascii ": it does not include a '__initialize' function."
  | spanOutOfRange => ascii "a span lies outside its text"
  | directoryUnreadable dir cause =>
    ascii "cannot read directory " ++ dir ++ ascii ": " ++ cause.message
  | listingBroken dir cause =>
    ascii "error while reading directory " ++ dir ++ ascii ": " ++ cause.message
  | fileUnopenable path => ascii "unable to open " ++ path
  | fileTooLarge path => ascii "file too large: " ++ path ++ ascii " (limit: 256 MB)"
  | readingBroken path => ascii "error reading " ++ path
  | memoryExhausted path => ascii "out of memory reading " ++ path
  | directoryNotCreated dir cause =>
    ascii "could not create " ++ dir ++ ascii ": " ++ cause.message
  | fileNotWritten path => ascii "could not write " ++ path
  | fileNotReplaced path cause =>
    ascii "could not replace " ++ path ++ ascii ": " ++ cause.message
  | manifestUnopenable path => ascii "cannot open manifest: " ++ path
  | manifestLine path line fault =>
    path ++ ascii ":" ++ Bytes.ofNat line ++ ascii ": " ++ fault.message
  | rootNotDirectory root =>
    ascii "project root is not a directory: " ++ (if root.isEmpty then ascii "." else root)
  | rootUnresolvable dir cause =>
    ascii "cannot resolve project root " ++ dir ++ ascii ": " ++ cause.message
  | usage fault => fault.message

def category : Failure → Category
  | notStarted .. | refused .. => .spawn
  | childFailed .. => .execution
  | artifactMissing .. => .missingArtifact
  | artifactAmbiguous .. => .ambiguousArtifact
  | loaderUnexpected .. | loaderOverlap .. => .unexpectedStructure
  | entryPointMissing .. => .missingEntryPoint
  | spanOutOfRange => .range
  | directoryUnreadable .. | listingBroken .. | fileUnopenable .. | fileTooLarge ..
  | readingBroken .. | memoryExhausted .. | directoryNotCreated .. | fileNotWritten ..
  | fileNotReplaced .. => .io
  | manifestUnopenable .. | manifestLine .. | rootNotDirectory .. | rootUnresolvable .. => .config
  | usage .. => .usage

/-- How grave a failure is.  The packager's own are errors. -/
def severity : Failure → Severity
  | refused _ severity => severity
  | _ => .error

/-- The exit code of the child that failed, if that was the cause. -/
def exitCode? : Failure → Option Int
  | childFailed _ exitCode => some exitCode
  | _ => none

end Failure
end WasmPackager
