/-
# `Shell.Builtins.Commands` — commands about commands

Telling what a name stands for, and giving up the process to a program.
-/
import WasmPackager.Shell.Builtins.Basic
import WasmPackager.Shell.Search

namespace WasmPackager.Shell.Builtins

/-! ## What names stand for -/

/-- The path of the program that a name stands for. -/
def programPath (directories : List Bytes) (name : Bytes) : Bytes :=
  match directories with
  | [] => name
  | dir :: _ => Path.join dir name

/-- Tells what a name stands for: in a sentence, or so that a shell can read it. -/
def describe (inWords : Bool) (directories : List Bytes) (name : Bytes) : Eval UInt8 := do
  let s ← get
  let say (words plain : Bytes) : Eval UInt8 :=
    print ((if inWords then name ++ words else plain) ++ [10])
  let missing : Eval UInt8 :=
    if inWords then printing (name ++ ascii ": not found\n") 127 else return 127
  if Token.keywords.any fun k => ascii k == name then say (ascii " is a shell keyword") name
  else
    match s.aliases.lookup name with
    | some text =>
      say (ascii " is an alias for " ++ text) (ascii "alias " ++ name ++ 61 :: quoted text)
    | none =>
      match Search.meaning s true directories name with
      | .function _ => say (ascii " is a shell function") name
      | .builtin =>
        let special := if Search.isSpecial .common name then ascii "special " else []
        say (ascii " is a " ++ special ++ ascii "shell builtin") name
      | .program directories =>
        if directories.isEmpty && !s.machine.host.pathExists name then missing
        else
          let path := programPath directories name
          say (ascii " is " ++ path) path
      | .nothing _ => missing

def type : Builtin := fun _ args => do
  let s ← get
  let statuses ← args.mapM (describe true s.searchPath)
  return (statuses.find? (· != 0)).getD 0

/-- Tells what a name stands for, if the options ask for that. -/
def command : Builtin := fun _ args => do
  let (letters, args) ← options "pvV" args
  let s ← get
  let directories := if letters.contains 112 then Search.standardPath else s.searchPath
  match args with
  | name :: _ =>
    if letters.contains 86 then describe true directories name
    else if letters.contains 118 then describe false directories name
    else return 0
  | [] => return 0

/-- Remembers where programs are, which nobody can tell. -/
def hash : Builtin := fun _ args => do
  let (_, names) ← options "rv" args
  let s ← get
  let statuses ← names.mapM fun name => do
    match Search.meaning s true s.searchPath name with
    | .nothing reason =>
      Eval.complain (name ++ ascii ": " ++ reason)
      return (1 : UInt8)
    | _ => return 0
  return (statuses.find? (· != 0)).getD 0

/-! ## Giving up the process -/

/-- Complains about a program that cannot be executed and gives the status for it. -/
def cannotExecute (name : Bytes) (cause : SystemError) : Eval UInt8 := do
  Eval.complain (name ++ ascii ": " ++ Search.reason cause)
  return Search.statusFor cause

/-- The machine as it is handed to a program: it knows the exported variables. -/
def State.handed (s : State) : Machine := { s.machine with acting.environment := s.environment }

/-- Lets a program take the place of the shell. -/
def exec : Builtin := fun engine args => do
  let (_, args) ← options "" args
  match args with
  | [] => return 0
  | name :: _ =>
    let s ← get
    match Search.execute s.machine.host s.searchPath name args with
    | .ok (program, argv) =>
      let (fate, machine) := engine.start program argv (State.handed s)
      set { s with machine }
      throw (.replaced fate)
    | .error cause =>
      Eval.setStatus (← cannotExecute name cause)
      throw .exit

end WasmPackager.Shell.Builtins
