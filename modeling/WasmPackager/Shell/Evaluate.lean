/-
# `Shell.Evaluate` — doing what a script says

Every construct has its meaning on the state of a shell.  What a construct
needs of those within it comes from an `Engine`, so that each is said on its
own; `evaluate` puts them together, with a unit of fuel for every level of
nesting and every call of a function.

A failure ends the shell if that was asked for, unless somebody tests the
status: the commands in a condition, behind a negation and in front of `&&` and
`||` are tested.
-/
import WasmPackager.Shell.Builtins.Table
import WasmPackager.Shell.Trial
import WasmPackager.Shell.Text.Duration

namespace WasmPackager.Shell

namespace Eval

/-! ## Variables for a while -/

/-- Gives the variables of a level back what they had. -/
def reveal (level : List (Bytes × Option Variable)) : Eval Unit :=
  level.forM fun (name, before) =>
    modify fun s => match before with
      | some v => s.bind name v
      | none => s.unbind name

/-- Does something; what it hides of the variables comes back afterwards. -/
def confined (body : Eval Unit) : Eval Unit := do
  modify fun s => { s with hidden := [] :: s.hidden }
  finally_ body do
    match (← get).hidden with
    | level :: outer =>
      modify ({ · with hidden := outer })
      reveal level
    | [] => return

/-- Hides the value of a variable until the end of the scope. -/
def hide (name : Bytes) : Eval Unit :=
  modify fun s =>
    match s.hidden with
    | level :: outer =>
      if level.any (·.1 == name) then s
      else { s with hidden := ((name, s.bindings.lookup name) :: level) :: outer }
    | [] => s

/-- Makes the assignments in front of a command, for the time of the command or for good; gives
them as text. -/
def makeAssignments (engine : Engine) (forAWhile : Bool) (assignments : List (Bytes × Word)) :
    Eval (List Bytes) :=
  assignments.mapM fun (name, word) => do
    let value ← textOf engine .inList word
    if forAWhile then
      hide name
      assign name value true
    else assign name value false
    return name ++ 61 :: value

/-! ## Words of a command -/

/-- The name of the command that fields begin, behind a request for no function. -/
def commandName (fields : List Bytes) : Option Bytes :=
  match fields with
  | first :: rest =>
    if first == ascii "command" then
      (rest.dropWhile fun a => a == ascii "-p" || a == ascii "--").head?
    else some first
  | [] => none

/-- The fields of the words of a command.  Where assignments are expected their values are not
split. -/
def commandFields (engine : Engine) : (reversed : List (List Bytes)) → List Word →
    Eval (List Bytes)
  | reversed, [] => return reversed.reverse.flatten
  | reversed, word :: rest => do
    let assigning := match commandName reversed.reverse.flatten with
      | some name => Search.assigningNames.contains name
      | none => false
    match if assigning then word.assignment? else none with
    | some (name, value) =>
      let text ← textOf engine .inList value
      commandFields engine ([name ++ 61 :: text] :: reversed) rest
    | none =>
      let fields ← fieldsOf engine word
      commandFields engine (fields :: reversed) rest

/-! ## Running commands -/

/-- Writes to a place in the table of open files, if that can be done. -/
def writeAt (place : Option Nat) (bytes : Bytes) : Eval Unit := do
  let m := (← get).machine
  match place, place.bind (m.opened[·]?) with
  | some place, some file =>
    match m.writeOpen place file bytes with
    | .ok machine => modify ({ · with machine })
    | .error _ => return
  | _, _ => return

/-- Shows a command before it is run, if that was asked for. -/
def trace (place : Option Nat) (words : List Bytes) : Eval Unit := do
  let s ← get
  if s.has 'x' then
    let mark := (s.value? (ascii "PS4")).getD (ascii "+ ")
    writeAt place (mark ++ Bytes.joinWith [32] words ++ [10])

/-- Runs a command of the shell itself.  A mistake ends the script only if the command is
special. -/
def runBuiltin (engine : Engine) (special tested : Bool) (name : Bytes) (args : List Bytes) :
    Eval Unit := do
  let before ← get
  let (result, after) := (Builtins.named name engine args).on
    { before with command := some name, tested }
  set { after with command := before.command, tested := before.tested }
  match result with
  | .ok status => setStatus status
  | .error .mistake => if special then throw .mistake else return
  | .error stop => throw stop

/-- How many functions can be called by others. -/
def recursionLimit : Nat := 1000

def call (engine : Engine) (tested : Bool) (script : Script) (args : List Bytes) :
    Eval Unit := do
  let before ← get
  if before.dialect == Dialect.common && recursionLimit ≤ before.recursion then
    setStatus 2
    complain (ascii "Maximum function recursion depth (" ++ Bytes.ofNat recursionLimit ++
      ascii ") reached")
    throw .exit
  let (result, after) := (engine.evaluate script tested).on
    { before with
      arguments := args, loops := 0, calls := before.calls + 1
      recursion := before.recursion + 1, optionPlace := 1
      optionOffset := 0 }
  set { after with
    arguments := before.arguments
    loops := before.loops
    calls := before.calls
    recursion := before.recursion
    optionPlace := before.optionPlace
    optionOffset := before.optionOffset }
  match result with
  | .ok () | .error .finish => return
  | .error stop => throw stop

/-- How long the start of a program takes. -/
def startTime : Nat := 1000000

/-- Some word of a command leads to a queue between processes, so what runs in the background
has its turn first. -/
def meetsQueue (s : State) (args : List Bytes) : Bool :=
  let isQueue (n : InodeNumber) : Bool := match s.machine.files.node? n with
    | some (.fifo _) => true
    | _ => false
  args.any (fun a => match s.machine.host.locate a true with
    | .ok n => isQueue n
    | .error _ => false) ||
  match s.machine.openFile? Machine.input with
  | some file => file.reads && isQueue file.inode
  | none => false

/-- Runs a program and waits for its end. -/
def runProgram (engine : Engine) (directories : List Bytes) (name : Bytes) (argv : List Bytes) :
    Eval Unit := do
  if (← get).jobs.any (·.fate.isNone) then
    if meetsQueue (← get) argv then awaitAll
  let _ ← roomForJob
  modify fun s => { s.noticed with machine := s.machine.later startTime }
  let s ← get
  match Search.execute s.machine.host directories name argv with
  | .ok (program, given) =>
    if program == ascii "sleep" then
      letPass ((given.drop 1).foldl (fun sum a => sum + (Duration.ofText? a).getD 0) 0)
    let environment := s.environment
    let fate ← perform (Act.inChild fun m =>
      engine.start program given { m with acting.environment := environment })
    match fate with
    | .killed signal =>
      let s ← get
      if s.machine.acting.orphaned then throw (.killed signal)
      if let some text := if s.isDoomed then none else Signal.report? signal then
        writeAt ((← get).machine.place? Machine.complaints) (text ++ [10])
    | .exited _ => pure ()
    setStatus fate.status
  | .error cause => setStatus (← Builtins.cannotExecute name cause)

/-- What the first words of a command are to be run as. -/
structure Target where
  meant : Meant
  /-- The command and its arguments. -/
  words : List Bytes
  special : Bool
  /-- Programs are looked for where the standard ones are. -/
  standard : Bool
  /-- The assignments in front hold for the time of the command only. -/
  forAWhile : Bool

/-- The words behind `command` and its options, if the words are a request to run something
without looking at functions; with whether only the standard programs are wanted. -/
def withoutFunctions? : (standard : Bool) → List Bytes → Option (List Bytes × Bool)
  | _, [] => none
  | standard, first :: rest =>
    if first == ascii "--" then (if rest.isEmpty then none else some (rest, standard))
    else if first == ascii "-p" then withoutFunctions? true rest
    else if first.head? == some 45 && first.length > 1 then none
    else some (first :: rest, standard)

/-- The words that are to be run, behind requests to look at no functions. -/
def stripped : (fuel : Nat) → (direct standard : Bool) → List Bytes → List Bytes × Bool × Bool
  | 0, direct, standard, words => (words, direct, standard)
  | fuel + 1, direct, standard, words =>
    match words with
    | first :: rest =>
      if first == ascii "command" then
        match withoutFunctions? standard rest with
        | some (words, standard) => stripped fuel true standard words
        | none => (words, direct, standard)
      else (words, direct, standard)
    | [] => ([], direct, standard)

def target (s : State) (words : List Bytes) : Target :=
  let isFunction := words.head?.any fun name => (s.functions.lookup name).isSome
  let (words, direct, standard) :=
    if isFunction then (words, false, false) else stripped words.length false false words
  let name := words.headD []
  let directories := if standard then Search.standardPath else s.searchPath
  let meant := Search.meaning s (!direct) directories name
  let isSpecial := match meant with
    | .builtin => Search.isSpecial s.dialect name && !direct
    | _ => false
  ⟨meant, words, isSpecial, standard, !isSpecial⟩

/-- Runs a command with its streams redirected. -/
def runTarget (engine : Engine) (tested : Bool) (t : Target) : Eval Unit := do
  match t.words with
  | [] => return
  | name :: args =>
    let s ← get
    match t.meant with
    | .function body => call engine tested body args
    | .builtin => runBuiltin engine t.special tested name args
    | .program _ | .nothing _ =>
      let directories := if t.standard then Search.standardPath else s.searchPath
      match Search.programOf s directories name with
      | .program directories => runProgram engine directories name t.words
      | .nothing reason =>
        complain (name ++ ascii ": " ++ reason)
        setStatus 127
      | .function _ | .builtin => setStatus 127

/-- Notes the line of a command, for complaints. -/
def tellLine (line : Nat) : Eval Unit := modify ({ · with line })

/-- Makes the assignments of a command that is nothing else.  Its status is that of the last
script that was substituted. -/
def runAssignments (engine : Engine) (assignments : List (Bytes × Word))
    (redirections : List Redirection) : Eval Unit := do
  let place := (← get).machine.place? Machine.complaints
  match ← redirectAll [] (← expandRedirections engine redirections) with
  | none => setStatus 2
  | some before =>
    finally_ (do
      let texts ← makeAssignments engine false assignments
      if !texts.isEmpty then trace place texts
      setStatus (← get).substituted) (putBack before)

def command (engine : Engine) (tested : Bool) (line : Nat) (assignments : List (Bytes × Word))
    (words : List Word) (redirections : List Redirection) : Eval Unit := do
  tellLine line
  modify ({ · with substituted := 0 })
  let fields ← commandFields engine [] words
  if fields.isEmpty then runAssignments engine assignments redirections
  else
    let t := target (← get) fields
    let redirects ← expandRedirections engine redirections
    let place := (← get).machine.place? Machine.complaints
    match ← redirectAll [] redirects with
    | none =>
      setStatus 2
      if t.special then throw .mistake
    | some before =>
      let stays := t.words.headD [] == ascii "exec" && t.words.length == 1 &&
        (match t.meant with
          | .builtin => true
          | _ => false)
      let body : Eval Unit := do
        let texts ← makeAssignments engine t.forAWhile assignments
        trace place (texts ++ fields)
        runTarget engine tested t
      let body := if t.forAWhile then confined body else body
      if stays then body else finally_ body (putBack before)

/-! ## Compound commands -/

/-- How a round of a loop ended. -/
inductive Round
  | complete
  /-- The rest of it was left out. -/
  | cutShort
  /-- The loop is left. -/
  | last
deriving DecidableEq

def round (body : Eval Unit) : Eval Round := do
  let (result, after) := body.on (← get)
  set after
  match result with
  | .ok () => return .complete
  | .error (.leave (n + 2)) => throw (.leave (n + 1))
  | .error (.leave _) => return .last
  | .error (.again (n + 2)) => throw (.again (n + 1))
  | .error (.again _) => return .cutShort
  | .error stop => throw stop

def looping (body : Eval Unit) : Eval Unit := do
  modify fun s => { s with loops := s.loops + 1 }
  finally_ body (modify fun s => { s with loops := s.loops - 1 })

def roundLimit : Nat := 1000000

/-- How long a round of a loop takes at least. -/
def roundTime : Nat := 100000

/-- Does the rounds of a loop, of which so many are allowed; `status` is that of the last body. -/
def rounds (continues : Eval Bool) (body step : Eval Unit) : (fuel : Nat) → (status : UInt8) →
    Eval Unit
  | 0, _ => throw (.killed Signal.kill)
  | fuel + 1, status => do
    let mut goesOn := false
    let (result, after) := continues.on (← get)
    set after
    let outcome ← match result with
      | .ok b => do
        goesOn := b
        pure Round.complete
      | .error stop => round (throw stop)
    match outcome with
    | .last => setStatus status
    | .cutShort => rounds continues body step fuel status
    | .complete =>
      if goesOn then
        let outcome ← round body
        modify fun s => { s with machine := s.machine.later roundTime }
        let status := (← get).status
        if outcome == Round.last then return
        else
          step
          rounds continues body step fuel status
      else setStatus status

/-- Repeats a script as long as a condition succeeds or fails. -/
def loop (engine : Engine) (tested untilSuccess : Bool) (condition body : Script) : Eval Unit :=
  looping (rounds
    (do
      engine.evaluate condition true
      return ((← get).status == 0) != untilSuccess)
    (engine.evaluate body tested) (pure ()) roundLimit 0)

/-- Does a script for each of the values of a variable. -/
def eachOf (engine : Engine) (tested : Bool) (name : Bytes) (body : Script) : List Bytes →
    Eval Unit
  | [] => return
  | value :: rest => do
    assign name value false
    let outcome ← round (engine.evaluate body tested)
    if outcome == Round.last then return else eachOf engine tested name body rest

/-- Does the script of the first arm that has the form of the subject. -/
def arms (engine : Engine) (tested : Bool) (subject : Bytes) :
    List (List Word × Option Script) → Eval Unit
  | [] => setStatus 0
  | (forms, script) :: rest => do
    let found ← forms.foldlM (fun found form => do
      if found then return true
      else return (Pattern.ofLetters (← formOf engine form)).accepts subject) false
    if found then
      match script with
      | some script => engine.evaluate script tested
      | none => setStatus 0
    else arms engine tested subject rest

/-- Does the scripts of a pipeline, each in a copy of the shell; `source` is the place that the
first of them reads from.  Gives the status of each. -/
def stages (engine : Engine) (tested : Bool) : (source : Option Nat) → List Script →
    Eval (List UInt8)
  | _, [] => return []
  | source, script :: rest => do
    let reading (s : State) : State := match source with
      | some place => leading Machine.input place s
      | none => s
    if rest.isEmpty then
      let fate ← inChild engine reading (engine.evaluate script tested)
      return [fate.status]
    else
      let (ahead, behind) ← pipe
      let fate ← inChild engine (fun s => leading Machine.output behind (reading s))
        (engine.evaluate script tested)
      return fate.status :: (← stages engine tested (some ahead) rest)

def pipelineStatus (strict : Bool) (statuses : List UInt8) : UInt8 :=
  if strict then (statuses.reverse.find? (· != 0)).getD 0 else statuses.getLastD 0

/-- Does a script in the shell itself with streams redirected for good. -/
def redirected (engine : Engine) (script : Script) (redirections : List Redirection) :
    Eval Unit := do
  let redirects ← expandRedirections engine redirections
  match ← redirectAll [] redirects with
  | some _ => engine.evaluate script false
  | none =>
    setStatus 2
    throw .mistake

/-- Does a script in a copy of the shell with streams redirected. -/
def subshell (engine : Engine) (tested : Bool) (script : Script)
    (redirections : List Redirection) : Eval Unit := do
  let redirects ← expandRedirections engine redirections
  let fate ← inChild engine id do
    match ← redirectAll [] redirects with
    | some _ => engine.evaluate script tested
    | none =>
      setStatus 2
      throw .mistake
  setStatus fate.status

/-- The value of an expression, none being worth one. -/
def worth (engine : Engine) (expression : Word) : Eval Int64 := do
  match expression with
  | [] => return 1
  | [.arithmetic _ parts] =>
    let text ← textOf engine .nowhere parts
    if text.all isSpace then return 1 else calculate text
  | word => do
    let text ← textOf engine .nowhere word
    calculate text

/-! ## Signals -/

/-- Does what is to be done about the signals that came. -/
def heed (engine : Engine) : Eval Unit := do
  let signals ← notice
  signals.forM fun signal => do
    let s ← get
    match s.trap? signal with
    | some action =>
      text engine false action
      setStatus s.status
    | none => return

/-! ## Everything -/

def construct (engine : Engine) (tested : Bool) : Script → Eval Unit
  | .command line assignments words redirections =>
    command engine tested line assignments words redirections
  | .sequence scripts => scripts.forM (engine.evaluate · tested)
  | .conjunction first second => do
    engine.evaluate first true
    if (← get).status == 0 then engine.evaluate second tested
  | .disjunction first second => do
    engine.evaluate first true
    if (← get).status != 0 then engine.evaluate second tested
  | .negation script => do
    engine.evaluate script true
    setStatus (if (← get).status == 0 then 1 else 0)
  | .pipeline scripts => do
    let statuses ← stages engine tested none scripts
    setStatus (pipelineStatus (← get).strictPipelines statuses)
  | .background script => do
    match script with
    | .subshell inner redirections =>
      startJob engine false (redirected engine inner redirections)
    | script => startJob engine (script matches .command ..) (engine.evaluate script false)
    setStatus 0
  | .subshell script redirections => subshell engine tested script redirections
  | .redirected line script redirections => do
    tellLine line
    withRedirections engine redirections (engine.evaluate script tested)
  | .conditional condition onSuccess onFailure => do
    engine.evaluate condition true
    if (← get).status == 0 then engine.evaluate onSuccess tested
    else
      match onFailure with
      | some script => engine.evaluate script tested
      | none => setStatus 0
  | .loop untilSuccess condition body => loop engine tested untilSuccess condition body
  | .each line name words body => do
    tellLine line
    let fields ← words.mapM (fieldsOf engine)
    setStatus 0
    looping (eachOf engine tested name body fields.flatten)
  | .choice line subject choices => do
    tellLine line
    arms engine tested (← textOf engine .atStart subject) choices
  | .function name body => do
    modify fun s =>
      { s with functions := (name, body) :: s.functions.filter (·.1 != name) }
    setStatus 0
  | .trial line words => do
    tellLine line
    setStatus (← trial engine words)
  | .calculation line expression => do
    tellLine line
    setStatus (if (← worth engine expression) == 0 then 1 else 0)
  | .counted line start condition step body => do
    tellLine line
    if !start.isEmpty then let _ ← worth engine start
    looping (rounds (do return (← worth engine condition) != 0) (engine.evaluate body tested)
      (if step.isEmpty then pure () else do let _ ← worth engine step) roundLimit 0)

/-- The failure of a construct can end the shell. -/
def isDecisive : Script → Bool
  | .command .. | .pipeline _ | .subshell .. | .trial .. | .calculation .. => true
  | .sequence _ | .conjunction .. | .disjunction .. | .negation _ | .background _
  | .redirected .. | .conditional .. | .loop .. | .each .. | .choice .. | .function ..
  | .counted .. => false

/-- Does a construct and what is due behind it. -/
def step (engine : Engine) (script : Script) (tested : Bool) : Eval Unit := do
  if (← get).has 'n' then return
  construct engine tested script
  heed engine
  let s ← get
  if isDecisive script && !tested && s.status != 0 && s.has 'e' then throw .exit

/-- Does a script, with a unit of fuel for every level of nesting.  A script that is nested more
deeply ends like every program that runs out of room. -/
def evaluate (start : Name → List Bytes → Machine → Fate × Machine) :
    (fuel : Nat) → Script → (tested : Bool) → Eval Unit
  | 0, _, _ => throw (.killed Signal.segmentationFault)
  | fuel + 1, script, tested => step ⟨evaluate start fuel, start⟩ script tested

end Eval
end WasmPackager.Shell
