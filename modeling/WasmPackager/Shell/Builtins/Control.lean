/-
# `Shell.Builtins.Control` — commands that change what is done next

Leaving loops, functions and the shell, doing a text or a file as a script, and
the conditions.
-/
import WasmPackager.Shell.Builtins.Basic
import WasmPackager.Shell.Builtins.Condition

namespace WasmPackager.Shell.Builtins

def succeed : Builtin := fun _ _ => return 0

def failing : Builtin := fun _ _ => return 1

/-- Leaves loops, or goes on with the next round of one. -/
def leaveLoops (stop : Nat → Stop) : Builtin := fun _ args => do
  let count ← match args with
    | text :: _ => do
      let n ← number text
      if n = 0 then Eval.fail (ascii "Illegal number: " ++ text) else pure n
    | [] => pure 1
  let count := min count (← get).loops
  if count = 0 then return 0
  else
    Eval.setStatus 0
    throw (stop count)

def exit : Builtin := fun _ args => do
  match args with
  | [] => throw .exit
  | text :: _ =>
    let n ← number text
    Eval.setStatus (UInt8.ofNat n)
    throw .exit

/-- Leaves a function, or a script called by another one. -/
def leaveFunction : Builtin := fun _ args => do
  match args with
  | [] => throw .finish
  | text :: _ =>
    let n ← number text
    Eval.setStatus (UInt8.ofNat n)
    throw .finish

def eval : Builtin := fun engine args => do
  if args.isEmpty then return 0
  else
    Eval.text engine (← get).tested (Bytes.joinWith [32] args)
    return (← get).status

/-- The path of a file that is looked for in the search path. -/
def sourcePath? (s : State) (name : Bytes) : Option Bytes :=
  if name.contains Path.slash then some name
  else
    let here := if s.dialect == .extended then [([] : Bytes)] else []
    ((s.searchPath ++ here).map (Path.join · name)).find? s.machine.host.isRegularFile

def source : Builtin := fun engine args => do
  let (_, args) ← options "" args
  match args with
  | [] => return 0
  | name :: rest =>
    match sourcePath? (← get) name with
    | none => Eval.fail (name ++ ascii ": not found")
    | some path =>
      match ← Eval.perform (Act.readPath path) with
      | .error cause =>
        Eval.fail (ascii "cannot open " ++ path ++ ascii ": " ++ Eval.openingReason false cause)
      | .ok bytes =>
        let s ← get
        let replaces := s.dialect == Dialect.extended && !rest.isEmpty
        let arguments := if replaces then rest else s.arguments
        let (result, after) := (Eval.text engine false (bytes.filter (· != 0))).on
          { s with command := some path, arguments }
        set { after with
          command := s.command
          line := s.line
          arguments := if replaces then s.arguments else after.arguments }
        match result with
        | .ok () | .error .finish => return (← get).status
        | .error stop => throw stop

def test (name : String) : Builtin := fun _ args => do
  let s ← get
  match Condition.ofCommand s.dialect s.machine.host (ascii name) args with
  | .ok holds => return if holds then 0 else 1
  | .error message => Eval.fail message

/-- The times that the shell and its children took: none that would show. -/
def times : Builtin := fun _ _ =>
  let line := ascii "0m0.000000s 0m0.000000s\n"
  print (line ++ line)

/-- The limits of the shell, which has none. -/
def ulimit : Builtin := fun _ args => do
  if args.any fun a => a.head? != some 45 then return 0 else print (ascii "unlimited\n")

end WasmPackager.Shell.Builtins
