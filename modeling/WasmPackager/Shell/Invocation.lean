/-
# `Shell.Invocation` — the shell as a program

A shell takes its script from an argument, from a file, or from what it reads.
The variables it begins with are those it is handed, and a few of its own.
-/
import WasmPackager.Shell.Evaluate

namespace WasmPackager.Shell

/-- Where a script comes from. -/
inductive ScriptSource
  | text (bytes : Bytes)
  | file (path : Bytes)
  | input

namespace State

/-- The state of a shell that knows what it is handed. -/
def initial (dialect : Dialect) (name : Bytes) (machine : Machine) : State where
  machine
  dialect
  number := machine.acting.number
  name
  arguments := []
  bindings := (machine.acting.environment.filter fun (n, _) => isName n).map fun (n, value) =>
    (n, ⟨some value, true, false⟩)
  functions := []
  aliases := []
  documents := #[]
  status := 0
  substituted := 0
  options := []
  strictPipelines := false
  line := 0
  tested := false
  command := none
  loops := 0
  calls := 0
  recursion := 0
  traps := machine.acting.ignored.map fun signal => (signal, [])
  jobs := []
  lastJob := none
  directory := []
  hidden := []
  optionPlace := 1
  optionOffset := 0

/-- The state with a variable that programs do not know. -/
def keep (s : State) (name value : Bytes) : State := s.bind name ⟨some value, false, false⟩

/-- The path that leads to the working directory: the one that was handed over, if it does, or
the one the system knows. -/
def startingDirectory (s : State) : Bytes :=
  let h := s.machine.host
  match s.value? (ascii "PWD") with
  | some path =>
    if Path.isAbsolute path && (h.locate path true).toOption == some h.cwd then path
    else h.currentPath.toOption.getD []
  | none => h.currentPath.toOption.getD []

/-- The state with the variables that every shell has. -/
def furnished (s : State) : State :=
  let s := s.keep (ascii "IFS") [32, 9, 10]
  let s := s.keep optionIndex [49]
  let s := s.keep (ascii "PPID") (Bytes.ofNat s.machine.acting.starter)
  let s := if (s.value? (ascii "PS4")).isSome then s else s.keep (ascii "PS4") (ascii "+ ")
  let s := if (s.value? (ascii "PATH")).isSome then s
    else s.keep (ascii "PATH") (Bytes.joinWith [58] Launch.searchPath)
  let directory := s.startingDirectory
  { s.store (ascii "PWD") directory true with directory }

end State

namespace Eval

/-- What the arguments of a shell ask for. -/
structure Request where
  /-- The script is the first argument. -/
  fromArgument : Bool
  rest : List Bytes

/-- Sets the options in front of the arguments of a shell. -/
def readRequest : (fuel : Nat) → (fromArgument : Bool) → List Bytes → Eval Request
  | 0, fromArgument, args => return ⟨fromArgument, args⟩
  | fuel + 1, fromArgument, args => do
    match args with
    | [45] :: rest => return ⟨fromArgument, rest⟩
    | [45, 45] :: rest => return ⟨fromArgument, rest⟩
    | (sign :: letters) :: rest =>
      let isLong := (ascii "--").isPrefixOf (sign :: letters)
      if isLong && (← get).dialect == .extended then readRequest fuel fromArgument rest
      else if sign == 45 || (sign == 43 && !letters.isEmpty) then
        let (rest, text) ← Builtins.setLetters (fun b => b == 99 || b == 108) (sign == 45)
          letters rest
        if !text.isEmpty then let _ ← emit text
        readRequest fuel (fromArgument || letters.contains 99) rest
      else return ⟨fromArgument, args⟩
    | args => return ⟨fromArgument, args⟩

/-- Gives the shell its name and its arguments. -/
def introduce (name : Bytes) (arguments : List Bytes) : Eval Unit :=
  modify ({ · with name, arguments })

/-- The script that the arguments ask for. -/
def sourceOf (request : Request) : Eval ScriptSource := do
  match request.fromArgument, request.rest with
  | true, [] => fail (ascii "-c requires an argument")
  | true, script :: rest =>
    match rest with
    | [] => pure ()
    | name :: rest => introduce name rest
    return .text script
  | false, [] =>
    modify (·.setOption 115 true)
    return .input
  | false, path :: rest =>
    if (← get).has 's' then
      modify ({ · with arguments := path :: rest })
      return .input
    else return .file path

/-- Opens the file of a script, in the search path too where a shell does that. -/
def readScript (path : Bytes) : Eval Bytes := do
  let result ← perform (Act.readPath path)
  match result with
  | .ok bytes => return bytes.filter (· != 0)
  | .error cause =>
    let message := ascii "cannot open " ++ path ++ ascii ": " ++ openingReason false cause
    match (← get).dialect with
    | .common => fail message
    | .extended =>
      complain (path ++ ascii ": " ++ cause.message)
      setStatus (if cause matches .notFound then 127 else 126)
      throw .exit

def session (engine : Engine) (args : List Bytes) : Eval Unit := do
  let request ← readRequest (args.length + 1) false args
  match ← sourceOf request with
  | .text bytes => text engine false bytes
  | .file path =>
    let bytes ← readScript path
    introduce path (request.rest.drop 1)
    text engine false bytes
  | .input =>
    let bytes ← perform do
      match ← Act.readAll Machine.input with
      | .ok bytes => return bytes
      | .error _ => return []
    text engine false (bytes.filter (· != 0))

/-- How deeply the commands of a script can be nested. -/
def depth : Nat := 20000

end Eval

/-- What a shell does that is started with arguments, the name it was called by in front. -/
def run (dialect : Dialect) (start : Name → List Bytes → Machine → Fate × Machine)
    (argv : List Bytes) (m : Machine) : Fate × Machine :=
  let engine : Engine := ⟨Eval.evaluate start Eval.depth, start⟩
  let name := argv.headD []
  let (result, after) :=
    (Eval.session engine (argv.drop 1)).on (State.initial dialect name m).furnished
  after.conclude engine result

end WasmPackager.Shell
