/-
# `Outputs` — publishing the module and the script

Both files are first written in full under staging names beside their final
ones, and only then renamed, the module before the script.  A failure of the
first rename leaves both outputs as they were; a failure of the second one
leaves the new module beside the old script, never the other way round.  What
is left at the staging names after a failure is taken away again, if it can be.

A link that stands at an output name is replaced, while one that stands at a
staging name is written through: it should not lead to an output.
-/
import WasmPackager.FileSystem.Operations
import WasmPackager.Loader.Contract
import WasmPackager.Report.Failure

namespace WasmPackager

structure Outputs where
  binary : Bytes
  script : Bytes
deriving DecidableEq

namespace Outputs

/-- The paths of the files published in a directory. -/
def within (dir : Bytes) : Outputs :=
  ⟨Path.join dir Loader.binaryName, Path.join dir Loader.scriptName⟩

def staging (output : Bytes) : Bytes := output ++ ascii ".tmp"

/-- The host without what stands at a path, if that can be removed. -/
def discard (h : Host) (path : Bytes) : Host := (h.remove path).toOption.getD h

def stage (h : Host) (path bytes : Bytes) : Except Failure Unit × Host :=
  match h.writeFile path bytes with
  | (.ok (), h) => (.ok (), h)
  | (.error _, h) => (.error (.fileNotWritten path), h)

/-- Writes both staged files, the second one only if the first could be written. -/
def stageBoth (outputs : Outputs) (h : Host) (binary script : Bytes) : Except Failure Unit × Host :=
  match stage h (staging outputs.binary) binary with
  | (.ok (), h) => stage h (staging outputs.script) script
  | failed => failed

/-- Publishes a module and a script in a directory, which is created if it is missing. -/
def publish (dir binary script : Bytes) (h : Host) : Except Failure Outputs × Host :=
  match h.createDirectories dir with
  | (.error cause, h) => (.error (.directoryNotCreated dir cause), h)
  | (.ok (), h) =>
    let outputs := within dir
    match stageBoth outputs h binary script with
    | (.error failure, h) =>
      (.error failure, discard (discard h (staging outputs.binary)) (staging outputs.script))
    | (.ok (), h) =>
      match h.rename (staging outputs.binary) outputs.binary with
      | .error cause =>
        (.error (.fileNotReplaced outputs.binary cause),
          discard (discard h (staging outputs.binary)) (staging outputs.script))
      | .ok h =>
        match h.rename (staging outputs.script) outputs.script with
        | .error cause =>
          (.error (.fileNotReplaced outputs.script cause), discard h (staging outputs.script))
        | .ok h => (.ok outputs, h)

end Outputs
end WasmPackager
