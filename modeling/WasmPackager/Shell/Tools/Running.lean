/-
# `Shell.Tools.Running` — programs that run other programs

A program can be run with other variables, for a limited time, or once for
each of some names.  Time passes only when somebody sleeps.
-/
import WasmPackager.Shell.Tools.Basic
import WasmPackager.Shell.Text.Duration

namespace WasmPackager.Tools

/-! ## Starting programs -/

namespace Call

/-- The directories in which programs are looked for by a process. -/
def directories (m : Machine) : List Bytes :=
  match m.environmentValue? (ascii "PATH") with
  | some path => Bytes.splitOn 58 path
  | none => [ascii "/bin", ascii "/usr/bin"]

/-- The system's program that a name stands for. -/
def programOf (m : Machine) (argv : List Bytes) : Except SystemError (Name × List Bytes) :=
  Launch.find m.host (directories m) (argv.headD []) argv

/-- A program that cannot be run has a status that tells whether it was found. -/
def statusFor (cause : SystemError) : UInt8 :=
  if cause matches .notFound then 127 else 126

def become (c : Call) (argv : List Bytes) (environment : List (Bytes × Bytes)) : Act UInt8 := do
  let m ← get
  match programOf { m with acting.environment := environment } argv with
  | .error cause =>
    c.complainOf (Quote.always (argv.headD [])) cause
    return statusFor cause
  | .ok (program, given) =>
    let (fate, m) := c.start program given { m with acting.environment := environment }
    set m
    throw fate

/-- Runs a program and waits for its end; `prepare` changes what the new process has. -/
def runChild (c : Call) (argv : List Bytes) (prepare : Machine → Machine) :
    Act (Except SystemError Fate) := do
  match programOf (← get) argv with
  | .error cause => return .error cause
  | .ok (program, given) => return .ok (← Act.inChild fun m => c.start program given (prepare m))

end Call

/-! ## env -/

/-- The words of a text that stands for several arguments. -/
def splitWords (text : Bytes) : List Bytes :=
  let rec go : (fuel : Nat) → (current : Option Bytes) → Bytes → List Bytes
    | 0, current, _ => current.toList
    | fuel + 1, current, s =>
      match s with
      | [] => current.toList
      | 39 :: rest =>
        let inside := rest.takeWhile (· != 39)
        go fuel (some (current.getD [] ++ inside)) (rest.drop (inside.length + 1))
      | 34 :: rest =>
        let inside := rest.takeWhile (· != 34)
        go fuel (some (current.getD [] ++ inside)) (rest.drop (inside.length + 1))
      | 92 :: b :: rest => go fuel (some (current.getD [] ++ [if b == 95 then 32 else b])) rest
      | b :: rest =>
        if isSpace b then current.toList ++ go fuel none rest
        else go fuel (some (current.getD [] ++ [b])) rest
  go (text.length + 1) none text

def envSpec : Spec :=
  ⟨"iu:0vC:S:", [⟨"ignore-environment", .nothing, 'i'⟩, ⟨"unset", .value, 'u'⟩,
    ⟨"null", .nothing, '0'⟩, ⟨"debug", .nothing, 'v'⟩, ⟨"chdir", .value, 'C'⟩,
    ⟨"split-string", .value, 'S'⟩], true, 125⟩

/-- The arguments with a text for several arguments replaced by them. -/
def splitArguments : List Bytes → List Bytes
  | (45 :: 83 :: b :: text) :: rest => splitWords (b :: text) ++ rest
  | [45, 83] :: text :: rest => splitWords text ++ rest
  | a :: rest =>
    if (ascii "--split-string=").isPrefixOf a then splitWords (a.drop 15) ++ rest
    else if (ascii "-vS").isPrefixOf a then splitWords (a.drop 3) ++ rest
    else if a.head? == some 45 then a :: splitArguments rest
    else a :: rest
  | [] => []

/-- Runs a program with other variables, or tells them. -/
def env : Tool := fun c => do
  let c := { c with args := splitArguments c.args }
  let blankOption := c.args.takeWhile (fun a => a.head? == some 45) |>.find? fun a =>
    a.contains 32 && !(ascii "--").isPrefixOf a && (envSpec.demand? (a.getD 1 0)).isNone
  if let some a := blankOption then
    c.complain (ascii "invalid option -- '" ++ a.getD 1 0 :: [39])
    c.complain (ascii "use -[v]S to pass options in shebang lines")
    c.tryHelp 125
  let found ← c.arguments envSpec
  let operands := match found.operands with
    | [45] :: rest => rest
    | operands => operands
  let fresh := found.has 'i' || found.operands.head? == some [45]
  let inherited := (← get).acting.environment
  let environment := if fresh then [] else inherited
  let environment := environment.filter fun (name, _) => !(found.values 'u').contains name
  let assignments := operands.takeWhile (·.contains 61)
  let environment := assignments.foldl (fun e a =>
    let name := a.takeWhile (· != 61)
    Machine.assign e name (a.drop (name.length + 1))) environment
  if let some dir := found.value? 'C' then
    match ← Act.changing (·.enter dir) with
    | .ok () => pure ()
    | .error cause =>
      c.complainOf (ascii "cannot change directory to " ++ Quote.always dir) cause
      Act.exit 125
  match operands.drop assignments.length with
  | [] =>
    let mark : UInt8 := if found.has '0' then 0 else 10
    c.say (environment.flatMap fun (name, value) => name ++ 61 :: (value ++ [mark]))
    return 0
  | argv => c.become argv environment

/-! ## Time -/

/-- Lets time pass.  A process is stopped when its time has come, and one nobody waits for does
not get to its end. -/
def pause (duration : Nat) : Act Unit := do
  let m ← get
  if m.acting.orphaned && 0 < duration then throw (.killed Signal.kill)
  else
    let now := m.files.clock
    match m.nextStop with
    | some d =>
      if d.time < now + duration then
        set (m.later (d.time - now))
        throw (.killed d.signal)
      else set (m.later duration)
    | none => set (m.later duration)

def sleep : Tool := fun c => do
  let found ← c.arguments (.usual "" [])
  c.demandOperand found.operands
  let durations := found.operands.map fun text => (text, Duration.ofText? text)
  let wrong := durations.filter fun (_, d) => d.isNone
  if wrong.isEmpty then
    pause (total (durations.filterMap Prod.snd))
    return 0
  else
    wrong.forM fun (text, _) => c.complain (ascii "invalid time interval " ++ Quote.always text)
    c.tryHelp 1

def timeout : Tool := fun c => do
  let found ← c.arguments ⟨"s:k:v", [⟨"signal", .value, 's'⟩, ⟨"kill-after", .value, 'k'⟩,
    ⟨"preserve-status", .nothing, 'p'⟩, ⟨"foreground", .nothing, 'f'⟩,
    ⟨"verbose", .nothing, 'v'⟩], true, 125⟩
  let signal ← match found.value? 's' with
    | none => pure Signal.terminate
    | some text =>
      match Signal.ofText? text with
      | some n => pure n
      | none => c.misuse (Quote.always text ++ ascii ": invalid signal") 125
  match found.operands with
  | duration :: program :: args =>
    match Duration.ofText? duration with
    | none => c.misuse (ascii "invalid time interval " ++ Quote.always duration) 125
    | some amount =>
      let m ← get
      let limit := m.files.clock + amount
      let later ← match found.value? 'k' with
        | none => pure []
        | some text =>
          match Duration.ofText? text with
          | some more => pure [(⟨limit + more, Signal.kill, true⟩ : Deadline)]
          | none => c.misuse (ascii "invalid time interval " ++ Quote.always text) 125
      let prepare (m : Machine) : Machine :=
        if amount = 0 then m
        else
          { m with acting.deadlines :=
              ⟨limit, signal, !found.has 'f'⟩ :: (later ++ m.acting.deadlines) }
      match ← c.runChild (program :: args) prepare with
      | .error cause =>
        c.complainOf (ascii "failed to run command " ++ Quote.always program) cause
        return Call.statusFor cause
      | .ok fate =>
        if amount != 0 && limit ≤ (← get).files.clock && !found.has 'p' then
          if fate matches .killed 9 then throw fate else return 124
        else
          match fate with
          | .exited status => return status
          | .killed signal => return UInt8.ofNat (128 + signal)
  | _ => c.tryHelp 125

/-- Runs a program that gives way to others. -/
def nice : Tool := fun c => do
  let args := match c.args with
    | (45 :: d :: digits) :: rest => if 48 ≤ d && d ≤ 57 then (ascii "-n" ++ d :: digits) :: rest
      else c.args
    | args => args
  let found ← { c with args }.arguments ⟨"n:", [⟨"adjustment", .value, 'n'⟩], true, 125⟩
  match found.operands with
  | [] =>
    c.say (ascii "0\n")
    return 0
  | argv => c.become argv (← get).acting.environment

/-- Runs a program that nobody ends by hanging up. -/
def nohup : Tool := fun c => do
  let found ← c.arguments ⟨"", [], true, 125⟩
  match found.operands with
  | [] => c.misuse (ascii "missing operand") 125
  | argv =>
    modify fun m => { m with acting.ignored := 1 :: m.acting.ignored }
    c.become argv (← get).acting.environment

/-! ## xargs -/

/-- The arguments in a text: separated by blanks, with quotes, or by a mark. -/
def argumentsIn (mark : Option UInt8) (text : Bytes) : List Bytes :=
  match mark with
  | some mark => (linesOf mark text).map (withoutMark mark)
  | none => splitWords text

/-- The groups of at most so many values. -/
def groupsOf {α : Type} (size : Nat) : (fuel : Nat) → List α → List (List α)
  | 0, _ => []
  | fuel + 1, xs => if xs.isEmpty then [] else xs.take size :: groupsOf size fuel (xs.drop size)

/-- The text with a token replaced wherever it occurs. -/
def replaceAll (token new : Bytes) : (fuel : Nat) → Bytes → Bytes
  | 0, s => s
  | fuel + 1, s =>
    match s with
    | [] => []
    | b :: rest =>
      if !token.isEmpty && token.isPrefixOf s then
        new ++ replaceAll token new fuel (s.drop token.length)
      else b :: replaceAll token new fuel rest

/-- Runs a program with the arguments it reads. -/
def xargs : Tool := fun c => do
  let found ← c.arguments ⟨"0rtd:n:I:L:P:s:", [⟨"null", .nothing, '0'⟩, ⟨"max-args", .value, 'n'⟩,
    ⟨"no-run-if-empty", .nothing, 'r'⟩, ⟨"delimiter", .value, 'd'⟩, ⟨"replace", .value, 'I'⟩,
    ⟨"max-procs", .value, 'P'⟩, ⟨"verbose", .nothing, 't'⟩], true, 1⟩
  let given ← Act.readAll Machine.input
  let text : Bytes := given.toOption.getD []
  let mark : Option UInt8 :=
    if found.has '0' then some 0
    else match found.value? 'd' with
      | some d => some (((Escape.expand true d).1).headD 10)
      | none => none
  let command := if found.operands.isEmpty then [ascii "echo"] else found.operands
  let runs := match found.value? 'I' with
    | some token =>
      let lines : List Bytes := match mark with
        | some _ => argumentsIn mark text
        | none =>
          ((plainLines text).map fun (line : Bytes) =>
            line.dropWhile Format.isBlank).filter (!·.isEmpty)
      lines.map fun line => command.map fun (a : Bytes) => replaceAll token line (a.length + 1) a
    | none =>
      let args := argumentsIn mark text
      let size := ((found.value? 'n').bind Bytes.toNat?).getD (args.length + 1)
      if args.isEmpty then (if found.has 'r' then [] else [command])
      else (groupsOf (max 1 size) (args.length + 1) args).map (command ++ ·)
  let statuses ← runs.mapM fun argv => do
    match ← c.runChild argv id with
    | .error cause =>
      c.complainOf (argv.headD []) cause
      Act.exit (Call.statusFor cause)
    | .ok (.exited 255) =>
      c.complain (argv.headD [] ++ ascii ": exited with status 255; aborting")
      Act.exit 124
    | .ok (.killed signal) =>
      c.complain (argv.headD [] ++ ascii ": terminated by signal " ++ Bytes.ofNat signal)
      Act.exit 125
    | .ok (.exited status) => return (if status == 0 then 0 else 123 : UInt8)
  match given with
  | .ok _ => return if statuses.any (· != 0) then 123 else 0
  | .error cause => c.abort (ascii "error closing file: " ++ cause.message) 1

/-! ## Where programs are -/

def which : Tool := fun c => do
  let found ← c.arguments (.usual "a" [])
  let m ← get
  let isProgram (path : Bytes) : Bool := match m.host.stat path with
    | .ok i => i.node.isRegular && i.allows .execute
    | .error _ => false
  let results ← found.operands.mapM fun name => do
    let paths := if name.contains Path.slash then [name]
      else (Call.directories m).map (Path.join · name)
    match paths.filter isProgram with
    | [] => return false
    | first :: rest =>
      c.say ((if found.has 'a' then first :: rest else [first]).flatMap (· ++ [10]))
      return true
  return Call.statusOf results

def kill : Tool := fun c => do
  let (signal, rest) : Nat × List Bytes := match c.args with
    | [45, 115] :: text :: rest => ((Signal.ofText? text).getD Signal.terminate, rest)
    | (45 :: text) :: rest => ((Signal.ofText? text).getD Signal.terminate, rest)
    | args => (Signal.terminate, args)
  let results ← rest.mapM fun text => do
    let m ← get
    match Bytes.toNat? text with
    | some n =>
      if m.alive.contains n then
        if signal != 0 then set (m.post n signal)
        return true
      else
        c.complain (ascii "(" ++ text ++ ascii ") - " ++ SystemError.noProcess.message)
        return false
    | none =>
      c.complain (ascii "failed to parse argument: '" ++ text ++ [39])
      return false
  return Call.statusOf results

end WasmPackager.Tools
