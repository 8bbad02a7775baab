/-
# `Shell.State` — what a running shell knows

Beside the machine a shell knows variables, arguments, functions, what to do
about signals, and the jobs it has in the background.  A command changes this
and the machine, and it may stop what comes behind it: `Eval` is a computation
that does so.

A shell that is stopped in the middle of a script has what was done up to there
done, so a stop does not take the state back.
-/
import WasmPackager.Shell.Machine.Streams
import WasmPackager.Shell.Script

namespace WasmPackager.Shell

/-- A variable. -/
structure Variable where
  /-- A variable can have properties before it has a value. -/
  value : Option Bytes
  /-- The programs that are started know it. -/
  exported : Bool
  /-- Its value stays. -/
  constant : Bool

/-- A job in the background. -/
structure Job where
  /-- The number of its process. -/
  number : Nat
  /-- Its place among the jobs, counted from one. -/
  place : Nat
  /-- It is a program of its own, and not a part of the shell. -/
  alone : Bool
  /-- When it was started. -/
  since : Nat
  /-- What the job does, and how it ends, when its time has come. -/
  work : Machine → Fate × Machine
  /-- How it ended, if it has. -/
  fate : Option Fate
  /-- Somebody has waited for it, so it can be forgotten. -/
  waited : Bool
  /-- It ended, and the shell has not noticed that. -/
  unseen : Bool

/-- What a running shell knows. -/
structure State where
  machine : Machine
  dialect : Dialect
  /-- The number of the process that the shell began as. -/
  number : Nat
  /-- The name the script was called by. -/
  name : Bytes
  arguments : List Bytes
  bindings : List (Bytes × Variable)
  functions : List (Bytes × Script)
  aliases : List (Bytes × Bytes)
  documents : Array Word
  status : UInt8
  /-- The status of the script that was substituted last. -/
  substituted : UInt8
  /-- The letters of the options that are set. -/
  options : List UInt8
  /-- A pipeline fails if one of its commands does. -/
  strictPipelines : Bool
  line : Nat
  /-- Somebody asks for the status of the command at work, so its failure ends nothing. -/
  tested : Bool
  /-- The shell's own command that is at work. -/
  command : Option Bytes
  /-- How many loops the command is in. -/
  loops : Nat
  /-- How many functions and scripts called by others the command is in. -/
  calls : Nat
  /-- How many functions called by others the command is in, in the shells around it too. -/
  recursion : Nat
  /-- What to do about signals; nothing at all if it is empty. -/
  traps : List (Nat × Bytes)
  jobs : List Job
  lastJob : Option Nat
  /-- The working directory by the path that led to it. -/
  directory : Bytes
  /-- The values that variables had outside of the functions at work, the innermost first. -/
  hidden : List (List (Bytes × Option Variable))
  /-- Which argument is looked at next for options. -/
  optionPlace : Nat
  /-- How far the option before that was read, counted in letters; zero if it was read. -/
  optionOffset : Nat

/-- Why the commands that come next are left out. -/
inductive Stop
  /-- The shell ends. -/
  | exit
  | killed (signal : Nat)
  /-- A program took the shell's place and ended. -/
  | replaced (fate : Fate)
  /-- A mistake that ends a shell which runs a script. -/
  | mistake
  /-- Loops are left. -/
  | leave (loops : Nat)
  /-- All but the last of the loops are left, and that one goes on. -/
  | again (loops : Nat)
  /-- A function, or a script called by another one, is left. -/
  | finish

abbrev Eval (α : Type) := ExceptT Stop (StateM State) α

namespace Eval

/-- What a computation gives, and the state it leaves. -/
def on {α : Type} (x : Eval α) (s : State) : Except Stop α × State := StateT.run (ExceptT.run x) s

/-- Something that is read off the state. -/
def looking {α : Type} (look : State → α) : Eval α := return look (← get)

/-- Does on the machine what a process can do. -/
def perform {α : Type} (act : Act α) : Eval α := do
  let s ← get
  let (result, machine) := act.on s.machine
  set { s with machine }
  match result with
  | .ok a => return a
  | .error (.killed signal) => throw (.killed signal)
  | .error (.exited status) =>
    modify ({ · with status })
    throw .exit

/-- Does something whatever way a computation ends. -/
def finally_ {α : Type} (x : Eval α) (always : Eval Unit) : Eval α := do
  let s ← get
  let (result, s) := x.on s
  set s
  always
  match result with
  | .ok a => return a
  | .error stop => throw stop

def setStatus (status : UInt8) : Eval Unit := modify ({ · with status })

end Eval

namespace State

/-! ## Options -/

def has (s : State) (letter : Char) : Bool := s.options.contains (UInt8.ofNat letter.toNat)

/-! ## Variables -/

def value? (s : State) (name : Bytes) : Option Bytes := (s.bindings.lookup name).bind Variable.value

/-- The state with a variable in the place of what had its name. -/
def bind (s : State) (name : Bytes) (v : Variable) : State :=
  if s.bindings.any (·.1 == name) then
    { s with bindings := s.bindings.map fun (n, old) => if n == name then (n, v) else (n, old) }
  else { s with bindings := s.bindings ++ [(name, v)] }

/-- The variable of a name, which may have nothing yet. -/
def variableOf (s : State) (name : Bytes) : Variable :=
  (s.bindings.lookup name).getD ⟨none, false, false⟩

def unbind (s : State) (name : Bytes) : State :=
  { s with bindings := s.bindings.filter (·.1 != name) }

/-- The name of the variable that tells which argument is looked at for options. -/
def optionIndex : Bytes := ascii "OPTIND"

/-- The state in which a variable has a value; `exported` makes the programs know it. -/
def store (s : State) (name value : Bytes) (exported : Bool) : State :=
  let old := s.variableOf name
  let s := if name == optionIndex then
      { s with optionOffset := 0, optionPlace := max 1 ((Bytes.toNat? value).getD 1) }
    else s
  s.bind name ⟨some value, old.exported || exported || s.has 'a', old.constant⟩

def separators (s : State) : Bytes := (s.value? (ascii "IFS")).getD [32, 9, 10]

/-- What joins the arguments to one text. -/
def joint (s : State) : Bytes := s.separators.take 1

/-- The variables that a program is given. -/
def environment (s : State) : List (Bytes × Bytes) :=
  s.bindings.filterMap fun (name, v) => if v.exported then v.value.map (name, ·) else none

/-- The directories in which programs are looked for. -/
def searchPath (s : State) : List Bytes :=
  match s.value? (ascii "PATH") with
  | some path => Bytes.splitOn 58 path
  | none => []

/-! ## Signals -/

/-- What is done about a signal, if that was said. -/
def trap? (s : State) (signal : Nat) : Option Bytes := s.traps.lookup signal

/-- The state in which something is done about a signal; nothing special if nothing is given. -/
def setTrap (s : State) (signal : Nat) (action : Option Bytes) : State :=
  let others := s.traps.filter (·.1 != signal)
  let ignored := s.machine.acting.ignored.filter (· != signal)
  match action with
  | none => { s with traps := others, machine.acting.ignored := ignored }
  | some action =>
    { s with
      traps := (signal, action) :: others
      machine.acting.ignored := if action.isEmpty then signal :: ignored else ignored }

/-- The state of a shell that does a part of the script on its own: it does not know the jobs,
and what was to be done about signals is forgotten. -/
def detached (s : State) : State :=
  { s with traps := s.traps.filter (·.2.isEmpty), jobs := [] }

/-- The state of a shell that has waited for a process: it has noticed which jobs ended. -/
def noticed (s : State) : State :=
  { s with jobs := s.jobs.map fun job => { job with unseen := false } }

end State

/-! ## Complaints -/

/-- A signal has come that nobody expects. -/
def State.isDoomed (s : State) : Bool :=
  s.machine.pending.any fun signal =>
    signal == Signal.kill ||
      ((s.trap? signal).isNone && Signal.isFatal signal &&
        !s.machine.acting.ignored.contains signal)

namespace Eval

/-- The beginning of a complaint: who complains and about which line. -/
def introduction (s : State) : Bytes :=
  match s.dialect with
  | .common => s.name ++ ascii ": " ++ Bytes.ofNat s.line ++ ascii ": "
  | .extended => s.name ++ ascii ": line " ++ Bytes.ofNat s.line ++ ascii ": "

def complain (text : Bytes) : Eval Unit := do
  let s ← get
  let command := match s.command with
    | some c => c ++ ascii ": "
    | none => []
  let _ ← perform (Act.write Machine.complaints (introduction s ++ command ++ text ++ [10]))

def fail {α : Type} (text : Bytes) : Eval α := do
  complain text
  setStatus 2
  throw .mistake

def assign (name value : Bytes) (exported : Bool) : Eval Unit := do
  let s ← get
  if (s.variableOf name).constant then fail (name ++ ascii ": is read only")
  else set (s.store name value exported)

def emit (bytes : Bytes) : Eval (Except SystemError Unit) :=
  perform (Act.write Machine.output bytes)

/-! ## Signals -/

/-- Takes notice of the signals that came, and gives those something is to be done about.  One
that nobody expects ends the shell. -/
def notice : Eval (List Nat) := do
  let s ← get
  let (signals, machine) := s.machine.collect
  if signals.isEmpty then return []
  set { s with machine }
  signals.filterMapM fun signal =>
    if signal == Signal.kill then throw (.killed signal)
    else
      match s.trap? signal with
      | some action => return if action.isEmpty then none else some signal
      | none =>
        if Signal.isFatal signal && !s.machine.acting.ignored.contains signal then
          throw (.killed signal)
        else return none

end Eval

/-! ## The recursion -/

/-- What the parts of a shell need of the whole: doing a script, and starting a program that is
not part of the shell. -/
structure Engine where
  /-- Does a script; with `tested` somebody asks for its status, so a failure ends nothing. -/
  evaluate : Script → (tested : Bool) → Eval Unit
  /-- What a process does that starts one of the system's programs. -/
  start : (program : Name) → (argv : List Bytes) → Machine → Fate × Machine

end WasmPackager.Shell
