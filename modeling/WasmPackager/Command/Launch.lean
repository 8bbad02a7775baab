/-
# `Command.Launch` — starting programs on a host

How the system finds and starts a program: the name is looked up on the
search path unless it holds a slash, a script names its interpreter in its
first line, and an executable file that is no program at all is handed to the
shell.  What a program then does is a parameter, `Behaviour`, so everything
that is said here holds of all programs.

Starting has two places to fail, entering the working directory and executing
the program, in this order; both are told apart from a program that starts
and fails by itself by what the child leaves its parent on a pipe.  What the
child asks of the system is a parameter too, `Kernel`.
-/
import WasmPackager.Command.Child
import WasmPackager.Command.Executable
import WasmPackager.FileSystem.Operations
import WasmPackager.Report.Failure

namespace WasmPackager

/-- What the system's own programs do: given the program's name and its arguments, with the
name it was called by in front, how it ends and what it leaves of the host. -/
abbrev Behaviour := (program : Name) → (argv : List Bytes) → Host → Fate × Host

abbrev Runner := Command → Host → Except Failure Completion × Host

namespace Launch

/-! ## Finding the program -/

/-- The directories in which programs are looked for, in order. -/
def searchPath : List Bytes :=
  [ascii "/usr/local/sbin", ascii "/usr/local/bin", ascii "/usr/sbin", ascii "/usr/bin",
   ascii "/sbin", ascii "/bin"]

/-- The shell that runs executable files of no other kind. -/
def shellPath : Bytes := ascii "/bin/sh"

/-- How many interpreters can be scripts themselves. -/
def interpreterDepth : Nat := 5

def argumentLimit : Nat := 131071

/-- The room there is for all arguments together, each with its end and its address. -/
def argumentSpace : Nat := 2094000

/-- The contents of the file that executing a path starts from. -/
def openProgram (h : Host) (path : Bytes) : Except SystemError Contents :=
  if path.isEmpty then .error .accessDenied
  else
    match h.stat path with
    | .error cause => .error cause
    | .ok i =>
      match i.node with
      | .file contents => if i.allows .execute then .ok contents else .error .accessDenied
      | .dir .. | .link _ | .device _ | .fifo _ => .error .accessDenied

/-- The system's program that a file at a path starts, and the arguments it is given. -/
def interpret (h : Host) : (depth : Nat) → Contents → (path : Bytes) → (argv : List Bytes) →
    Except SystemError (Name × List Bytes)
  | depth, contents, path, argv =>
    match Format.ofContents contents with
    | .unknown => .error .notExecutableFormat
    | .program name => .ok (name, argv)
    | .script interpreter argument =>
      match openProgram h interpreter with
      | .error cause => .error cause
      | .ok contents =>
        match depth with
        | 0 => .error .linkLoop
        | depth + 1 =>
          interpret h depth contents interpreter
            (interpreter :: (argument.toList ++ path :: argv.drop 1))

def fits (argv : List Bytes) : Bool :=
  argv.all (·.length ≤ argumentLimit) &&
    argv.foldl (fun sum a => sum + a.length + 9) 0 ≤ argumentSpace

/-- The system's program that executing a path starts, and the arguments it is given. -/
def execute (h : Host) (path : Bytes) (argv : List Bytes) :
    Except SystemError (Name × List Bytes) :=
  if (Host.readable path).isEmpty then .error .notFound
  else
    match openProgram h path with
    | .error cause => .error cause
    | .ok contents =>
      if fits argv then interpret h interpreterDepth contents path argv
      else .error .argumentsTooLong

/-- Executes a path; a file of no known format is run by the shell. -/
def executePath (h : Host) (path : Bytes) (argv : List Bytes) :
    Except SystemError (Name × List Bytes) :=
  match execute h path argv with
  | .error .notExecutableFormat => execute h shellPath (shellPath :: path :: argv.drop 1)
  | result => result

/-- Executes the first program of the given name in the directories.  A file that may not be
executed is passed over, but is the reason given if no other is found. -/
def executeFirst (h : Host) (name : Bytes) (argv : List Bytes) :
    (denied : Bool) → List Bytes → Except SystemError (Name × List Bytes)
  | denied, [] => .error (if denied then .accessDenied else .notFound)
  | denied, dir :: rest =>
    match executePath h (Path.join dir name) argv with
    | .error .accessDenied => executeFirst h name argv true rest
    | .error .notFound | .error .notDirectory => executeFirst h name argv denied rest
    | result => result

/-- The system's program that a program's name stands for when programs are looked for in the
given directories, and the arguments it is given. -/
def find (h : Host) (directories : List Bytes) (name : Bytes) (argv : List Bytes) :
    Except SystemError (Name × List Bytes) :=
  let name := Host.readable name
  if name.isEmpty then .error .notFound
  else if name.contains Path.slash then executePath h name argv
  else if FileSystem.nameLimit < name.length then .error .nameTooLong
  else executeFirst h name argv false directories

/-! ## Running a command -/

/-- A program that began and came to its end: how, whether its memory was dumped, and the files
it leaves. -/
structure Ending where
  fate : Fate
  dumped : Bool
  files : FileSystem

/-- What the system does for a child. -/
structure Kernel where
  /-- Enters a directory. -/
  enter : Host → (dir : Bytes) → Except ErrorNumber Host
  /-- Makes the child the program of a name, with arguments that have the name in front. -/
  execute : Host → (program : Bytes) → (argv : List Bytes) → Except ErrorNumber Ending

/-- What a child leaves to its parent. -/
structure Legacy where
  /-- What can be read from the pipe before it is closed. -/
  channel : Bytes
  status : WaitStatus
  files : FileSystem

/-- The status with which a child exits that could not become the program. -/
def gaveUpStatus : UInt8 := 127

/-- A child that could not become the program: it leaves a notice. -/
def gaveUp (h : Host) (stage : Stage) (reason : ErrorNumber) : Legacy :=
  ⟨(Notice.mk stage reason).bytes, .ofFate false (.exited gaveUpStatus), h.files⟩

/-- What becomes of the child.  When the program begins, the pipe is closed with nothing in it. -/
def child (k : Kernel) (c : Command) (h : Host) : Legacy :=
  match if c.workingDir.isEmpty then .ok h else k.enter h c.workingDir with
  | .error reason => gaveUp h .entering reason
  | .ok inside =>
    match k.execute inside c.program (c.program :: c.args) with
    | .error reason => gaveUp h .executing reason
    | .ok ending => ⟨[], .ofFate ending.dumped ending.fate, ending.files⟩

/-- What the parent makes of the child. -/
def verdict (c : Command) (legacy : Legacy) : Except Failure Completion :=
  match Notice.ofBytes? legacy.channel with
  | some ⟨.entering, reason⟩ =>
    .error (.notStarted c.program (.workingDirectory c.workingDir reason))
  | some ⟨.executing, reason⟩ => .error (.notStarted c.program (.execution reason))
  | none => .ok legacy.status.completion

/-- Starts a command and waits for its end.  The child has a working directory of its own;
what it does to the file system stays. -/
def spawn (k : Kernel) : Runner := fun c h =>
  if c.program.isEmpty then (.error (.notStarted c.program .emptyName), h)
  else
    let legacy := child k c h
    (verdict c legacy, h.withFiles legacy.files)

/-- A system that looks for programs on the search path.  No program leaves a dump of its
memory. -/
def kernel (behaviour : Behaviour) : Kernel where
  enter h dir := (h.enter dir).mapError SystemError.number
  execute h program argv :=
    match find h searchPath program argv with
    | .error cause => .error cause.number
    | .ok (program, argv) =>
      let (fate, after) := behaviour program argv h
      .ok ⟨fate, false, after.files⟩

def run (behaviour : Behaviour) : Runner := spawn (kernel behaviour)

end Launch
end WasmPackager
