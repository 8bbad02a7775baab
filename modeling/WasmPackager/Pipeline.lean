/-
# `Pipeline` — checking, building and packaging a project

A check runs one command.  A build runs another and packages what it left:
scan the toolchain's output for the module and the loader, load both, adapt
the loader, publish both.  Each step is taken only if those before it
succeeded, and publishing is the only one that changes the host, the command
apart.
-/
import WasmPackager.Artifact.Scan
import WasmPackager.Loader.Adapt
import WasmPackager.Outputs
import WasmPackager.Project.Config

namespace WasmPackager

inductive Mode
  | check
  | build
deriving DecidableEq

namespace Pipeline

/-- The largest file that is loaded, in bytes. -/
def loadLimit : Nat := 256 * 1024 * 1024

/-- The bytes of the file a path leads to.  A directory opens but counts as too large, and there
is no room for what a device gives without end. -/
def load (h : Host) (path : Bytes) : Except Failure Bytes :=
  match h.read path with
  | .error .inputOutput => .error (.readingBroken path)
  | .error _ => .error (.fileUnopenable path)
  | .ok contents =>
    if h.isDirectory path || loadLimit < contents.size then .error (.fileTooLarge path)
    else if h.isEndless path then .error (.memoryExhausted path)
    else .ok contents.bytes

/-- Adapts a loader and tells a verbose logger what form is expected. -/
def adapt (text file : Bytes) : Step Bytes := do
  Step.noteAll Loader.expectations
  Step.ofExcept (Loader.adapt text file)

/-- The file of one kind among those found by a scan of a directory. -/
def artifact (found : ArtifactSet) (kind : ArtifactKind) (dir : Bytes) : Step Bytes :=
  match found.lookup kind with
  | some path => pure path
  | none => throw (.artifactMissing kind dir)

/-- Publishes what the toolchain left. -/
def package (c : Config) : Step Outputs := do
  let found ← Artifact.scan c.buildDir .standard
  let binaryPath ← artifact found .binaryModule c.buildDir
  let scriptPath ← artifact found .loaderScript c.buildDir
  Step.note (ascii "reading wasm file " ++ binaryPath)
  let binary ← Step.looking (load · binaryPath)
  Step.note (ascii "processing js file " ++ scriptPath)
  let text ← Step.looking (load · scriptPath)
  let script ← adapt text scriptPath
  Step.note (ascii "writing " ++ Loader.binaryName ++ ascii " and " ++ Loader.scriptName)
  Step.changing (Outputs.publish c.outputDir binary script)

/-- Runs a command and says so before and after. -/
def runNoted (runner : Runner) (command : Command) (finished : Bytes) : Step Unit := do
  Step.note (ascii "running '" ++ command.describe ++ ascii "'")
  Step.execute runner command
  Step.note (ascii "finished '" ++ finished ++ ascii "'")

def check (runner : Runner) (c : Config) : Step Unit := do
  Step.note (ascii "running check")
  runNoted runner c.checkCommand (ascii "cargo check")

/-- Builds a project and packages it. -/
def build (runner : Runner) (c : Config) : Step Outputs := do
  Step.note (ascii "building")
  runNoted runner c.buildCommand (ascii "cargo web")
  package c

def run (runner : Runner) (c : Config) : Mode → Step Unit
  | .check => check runner c
  | .build => do let _ ← build runner c

end Pipeline
end WasmPackager
