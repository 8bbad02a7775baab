/-
# `Shell.Builtins.Location` — commands about directories and permissions

A shell remembers the path that led to its working directory and goes by that:
a step up takes away the last name of the path, whatever links it went through.
-/
import WasmPackager.Shell.Builtins.Basic
import WasmPackager.Shell.Text.Permissions

namespace WasmPackager.Shell.Builtins

/-! ## The working directory -/

/-- The names of a path with more names behind it, without steps that lead nowhere or up. -/
def stepping (names : List Name) (more : List Name) : List Name :=
  (more.foldl (fun reversed name =>
    if name == Path.dot then reversed
    else if name == Path.dotDot then reversed.drop 1
    else name :: reversed) names.reverse).reverse

/-- The path that a destination has when one goes by the path that led here. -/
def reckoned (directory destination : Bytes) : Bytes :=
  let start := if Path.isAbsolute destination then [] else Path.names directory
  Path.ofNames true (stepping start (Path.names destination))

/-- The path of the working directory as the system knows it. -/
def physical (s : State) : Bytes := s.machine.host.currentPath.toOption.getD []

/-- The state in which the working directory has a path. -/
def State.located (s : State) (directory : Bytes) (keepOld : Bool) : State :=
  let old := s.directory
  let s := if keepOld then s.store (ascii "OLDPWD") old true else s
  { s.store (ascii "PWD") directory true with directory }

/-- Goes to a directory; says whether that could be done. -/
def enter (destination : Bytes) (asWritten : Bool) : Eval Bool := do
  let s ← get
  let byPath := !asWritten && (Path.isAbsolute destination || !s.directory.isEmpty)
  let path := if byPath then reckoned s.directory destination else destination
  match s.machine.host.enter path with
  | .error _ => return false
  | .ok h =>
    let s := { s with machine := s.machine.withHost h }
    set (State.located s (if byPath then path else physical s) true)
    return true

/-- The destination is looked for where it is said, and not in a list of directories. -/
def isPlain (destination : Bytes) : Bool :=
  Path.isAbsolute destination ||
    match Path.names destination with
    | first :: _ => first == Path.dot || first == Path.dotDot
    | [] => false

/-- The directories in which a destination is looked for, each with whether it is worth telling. -/
def candidates (s : State) (destination : Bytes) : List (Bytes × Bool) :=
  match s.value? (ascii "CDPATH") with
  | some list =>
    if isPlain destination then []
    else (Bytes.splitOn 58 list).map fun dir => (Path.join dir destination, !dir.isEmpty)
  | none => []

def changeDirectory : Builtin := fun _ args => do
  let (letters, args) ← options "LP" args
  let s ← get
  let back := args.head? == some [45]
  let target := match args with
    | [] => (s.value? (ascii "HOME")).getD []
    | dir :: _ => if back then (s.value? (ascii "OLDPWD")).getD [] else dir
  let destination := if target.isEmpty then Path.dot else target
  let found := (candidates s destination).find? fun (path, _) => s.machine.host.isDirectory path
  let (path, tells) := found.getD (destination, false)
  if ← enter path (choice letters == some 'P') then
    if back || tells then print ((← get).directory ++ [10]) else return 0
  else Eval.fail (ascii "can't cd to " ++ target)

def printDirectory : Builtin := fun _ args => do
  let (letters, _) ← options "LP" args
  let s ← get
  print ((if choice letters == some 'P' then physical s else s.directory) ++ [10])

/-! ## The mask of permissions -/

/-- Shows or sets the permissions that new files do not get. -/
def umask : Builtin := fun _ args => do
  let (letters, args) ← options "S" args
  let mask := (← get).machine.acting.umask
  match args with
  | [] =>
    if letters.isEmpty then print (Permissions.octal 4 mask ++ [10])
    else print (Permissions.symbolic mask ++ [10])
  | text :: _ =>
    let set (mask : Nat) : Eval UInt8 := do
      modify fun s => { s with machine.acting.umask := mask % 512 }
      return 0
    if text.head?.any fun b => 48 ≤ b && b ≤ 57 then
      match Permissions.ofOctal? text with
      | some mask => set mask
      | none => Eval.fail (ascii "Illegal number: " ++ text)
    else
      match Permissions.ofSymbols? text with
      | some changes => set (511 - Permissions.apply changes false 0 (511 - mask % 512) % 512)
      | none => Eval.fail (ascii "Illegal mode: " ++ text)

end WasmPackager.Shell.Builtins
