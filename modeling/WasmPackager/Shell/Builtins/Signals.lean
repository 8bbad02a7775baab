/-
# `Shell.Builtins.Signals` — commands about processes and signals

Sending signals, saying what is to be done when one comes, and waiting for the
jobs in the background.
-/
import WasmPackager.Shell.Builtins.Basic
import WasmPackager.Shell.Jobs

namespace WasmPackager.Shell.Builtins

/-! ## Signals by name -/

/-- The signal of a name without beginnings, or of a number. -/
def signalOf? (lowest : Nat) (text : Bytes) : Option Nat :=
  match Bytes.toNat? text with
  | some n => if n ≤ Signal.last then some n else none
  | none =>
    let name := Signal.upperCase text
    if name == Signal.exitName then (if lowest = 0 then some 0 else none)
    else Signal.table.lookup name

/-- The signal that a text means in a dialect; some also know names that begin with `SIG`. -/
def signalIn? (dialect : Dialect) (lowest : Nat) (text : Bytes) : Option Nat :=
  match dialect with
  | .common => signalOf? lowest text
  | .extended => Signal.ofText? text

def listedName (n : Nat) : Bytes :=
  match Signal.name? n with
  | some name => if n = 0 then [48] else name
  | none =>
    if 34 < n && n < 50 then ascii "RTMIN+" ++ Bytes.ofNat (n - 34)
    else if 50 ≤ n && n < 64 then ascii "RTMAX-" ++ Bytes.ofNat (64 - n)
    else Bytes.ofNat n

/-! ## kill -/

def killUsage {α : Type} : Eval α :=
  Eval.fail (ascii
    "Usage: kill [-s sigspec | -signum | -sigspec] [pid | job]... or\nkill -l [exitstatus]")

def jobOf (text : Bytes) : Eval Job := do
  let jobs := (← get).jobs
  let found : Option Job := match text with
    | [37] | [37, 37] | [37, 43] => jobs.getLast?
    | [37, 45] => jobs.dropLast.getLast?
    | 37 :: rest => (Bytes.toNat? rest).bind fun place => jobs.find? (·.place == place)
    | text => (Bytes.toNat? text).bind fun number => jobs.find? (·.number == number)
  match found with
  | some job => return job
  | none =>
    if text == [37] || text == [37, 37] || text == [37, 43] then Eval.fail (ascii "No current job")
    else Eval.fail (ascii "No such job: " ++ text)

/-- The process that an argument of `kill` means. -/
def target (text : Bytes) : Eval Nat := do
  match text with
  | 37 :: _ => return (← jobOf text).number
  | 45 :: rest => number rest
  | text => number text

/-- Sends a signal to a process; says whether there is such a process. -/
def send (signal process : Nat) : Eval Bool := do
  let s ← get
  if !s.machine.alive.contains process && process != 0 then return false
  else
    match ← Eval.job? process with
    | some job =>
      if job.fate.isNone && Signal.isFatal signal then Eval.stopJob job signal
      return job.fate.isNone
    | none =>
      let process := if process = 0 then s.machine.acting.number else process
      modify fun s =>
        { s with machine := if signal = 0 then s.machine else s.machine.post process signal }
      return true

def listSignals (args : List Bytes) : Eval UInt8 := do
  match args with
  | [] => print ((List.range (Signal.last + 1)).flatMap fun n => listedName n ++ [10])
  | text :: _ =>
    let n ← number text
    let n := if 128 < n then n - 128 else n
    if 0 < n && n ≤ Signal.last then print (listedName n ++ [10])
    else Eval.fail (ascii "invalid signal number or exit status: " ++ text)

def kill : Builtin := fun _ args => do
  let dialect := (← get).dialect
  let first := args.headD []
  let direct := if first.head? == some 45 then signalIn? dialect 1 (first.drop 1) else none
  let (signal, list, rest) : Option Nat × Bool × List Bytes ←
    match direct with
    | some signal => pure (some signal, false, args.drop 1)
    | none => do
      let (found, rest) ← readOptions ⟨"l", "s"⟩ (args.length + 1) args
      let named ← found.filterMapM fun (_, value) => do
        match value with
        | none => return none
        | some name =>
          match signalIn? dialect 1 name with
          | some signal => return some signal
          | none => Eval.fail (ascii "invalid signal number or name: " ++ name)
      pure (named.getLast?, found.any (·.1 == 108), rest)
  if list then
    if signal.isSome then killUsage else listSignals rest
  else if rest.isEmpty then killUsage
  else
    let sent ← rest.mapM fun text => do
      let found ← send (signal.getD Signal.terminate) (← target text)
      if !found then Eval.complain (SystemError.noProcess.message ++ [10])
      return found
    return if sent.all id then 0 else 1

/-! ## trap -/

/-- What is done about signals, as commands. -/
def trapList (s : State) : Bytes :=
  (List.range (Signal.last + 1)).flatMap fun signal =>
    match s.trap? signal with
    | some action =>
      ascii "trap -- " ++ quoted action ++ 32 ::
        ((if signal = 0 then Signal.exitName else listedName signal) ++ [10])
    | none => []

/-- Says what is to be done about signals. -/
def setTraps (action : Option Bytes) : List Bytes → Eval UInt8
  | [] => return 0
  | name :: rest => do
    match signalIn? (← get).dialect 0 name with
    | some signal =>
      modify (·.setTrap signal action)
      setTraps action rest
    | none =>
      let _ ← Eval.perform (Act.write Machine.complaints
        (ascii "trap: " ++ name ++ ascii ": bad trap\n"))
      return 1

/-- Says what is to be done about signals, or tells it. -/
def trap : Builtin := fun _ args => do
  let (_, args) ← options "" args
  match args with
  | [] => print (trapList (← get))
  | [name] => setTraps none [name]
  | action :: names =>
    if ((Bytes.toNat? action).any fun n => n ≤ Signal.last) then setTraps none args
    else setTraps (if action == [45] then none else some action) names

/-! ## wait -/

def wait : Builtin := fun _ args => do
  let (_, args) ← options "" args
  match args with
  | [] =>
    Eval.awaitAll
    return 0
  | _ =>
    args.foldlM (fun _ text => do
      let process ← target text
      match ← Eval.job? process with
      | some job =>
        let fate ← Eval.awaitJob job
        if let .killed signal := fate then
          if job.fate.isNone || job.unseen then
            if let some text := Signal.report? signal then
              let _ ← Eval.perform (Act.write Machine.complaints (text ++ [10]))
        Eval.letPass 0
        return fate.status
      | none => return 127) (0 : UInt8)

/-! ## jobs -/

def stateText (job : Job) : Bytes :=
  match job.fate with
  | none => ascii "Running"
  | some (.exited 0) => ascii "Done"
  | some (.exited status) => ascii "Done(" ++ Bytes.ofNat status.toNat ++ [41]
  | some (.killed signal) => (Signal.report? signal).getD (ascii "Signal " ++ Bytes.ofNat signal)

def jobColumn : Nat := 33

/-- The line that tells of a job; `mark` says whether it is the current one. -/
def jobLine (numbered : Bool) (mark : UInt8) (job : Job) : Bytes :=
  let text := 91 :: (Bytes.ofNat job.place ++ [93, 32, mark, 32]) ++
    (if numbered then Bytes.ofNat job.number ++ [32] else []) ++ stateText job
  text ++ List.replicate (max 1 (jobColumn - text.length)) 32 ++ [10]

/-- Tells of jobs, and forgets those that have ended. -/
def jobs : Builtin := fun _ args => do
  let (found, args) ← options "lp" args
  let all := (← get).jobs
  let chosen ← if args.isEmpty then pure all.reverse else args.mapM jobOf
  let (left, reversed) := chosen.foldl (fun (left, lines) job =>
    let isNewest (jobs : List Job) : Bool := (jobs.getLast?.map Job.number) == some job.number
    let line :=
      if found.contains 112 then Bytes.ofNat job.number ++ [10]
      else
        jobLine (found.contains 108)
          (if isNewest left then 43 else if isNewest left.dropLast then 45 else 32) job
    (if job.fate.isNone then left else left.filter (·.number != job.number), line :: lines))
    (all, ([] : List Bytes))
  modify ({ · with jobs := left })
  print reversed.reverse.flatten

/-- Would give a job the terminal, or let it go on; no job is under control of a terminal. -/
def resumeJob : Builtin := fun _ args => do
  let _ ← jobOf (args.headD [37])
  Eval.fail (ascii "job " ++ args.headD (ascii "(null)") ++
    ascii " not created under job control")

end WasmPackager.Shell.Builtins
