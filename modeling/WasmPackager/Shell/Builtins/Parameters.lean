/-
# `Shell.Builtins.Parameters` — commands that change what names stand for

Variables and their properties, the arguments, the options of the shell, and
the names that stand for other text.
-/
import WasmPackager.Shell.Builtins.Basic

namespace WasmPackager.Shell

/-! ## Options of the shell -/

namespace State

/-- The options by letter and name, in the order in which they are listed. -/
def optionTable : List (Char × String) :=
  [('e', "errexit"), ('f', "noglob"), ('I', "ignoreeof"), ('i', "interactive"), ('m', "monitor"),
   ('n', "noexec"), ('s', "stdin"), ('x', "xtrace"), ('v', "verbose"), ('V', "vi"),
   ('E', "emacs"), ('C', "noclobber"), ('a', "allexport"), ('b', "notify"), ('u', "nounset"),
   ('p', "privileged")]

def optionByte (letter : Char) : UInt8 := UInt8.ofNat letter.toNat

/-- The state with an option set or not; the letters stay in their order, the last of the table
first. -/
def setOption (s : State) (letter : UInt8) (on : Bool) : State :=
  let isSet (b : UInt8) : Bool := if b == letter then on else s.options.contains b
  { s with options := (optionTable.reverse.map fun o => optionByte o.1).filter isSet }

/-- The letter of an option of the given name. -/
def optionNamed? (name : Bytes) : Option UInt8 :=
  (optionTable.find? fun o => ascii o.2 == name).map fun o => optionByte o.1

def isOption (letter : UInt8) : Bool := optionTable.any fun o => optionByte o.1 == letter

end State

namespace Builtins

def signOf (on : Bool) : UInt8 := if on then 45 else 43

def setNamed (name : Bytes) (on : Bool) : Eval Unit := do
  if (← get).dialect == .extended && name == ascii "pipefail" then
    modify ({ · with strictPipelines := on })
  else
    match State.optionNamed? name with
    | some letter => modify (·.setOption letter on)
    | none => Eval.fail (ascii "Illegal option " ++ signOf on :: ascii "o " ++ name)

def column (width : Nat) (text : Bytes) : Bytes := text ++ List.replicate (width - text.length) 32

/-- The list of the options, for a reader or for a shell. -/
def optionList (s : State) (forReader : Bool) : Bytes :=
  let named := State.optionTable.map fun o => (ascii o.2, s.has o.1)
  let all := named ++ [(ascii "nolog", false), (ascii "debug", false)]
  if forReader then
    ascii "Current option settings\n" ++ all.flatMap fun (name, on) =>
      column 16 name ++ ascii (if on then "on\n" else "off\n")
  else all.flatMap fun (name, on) => ascii (if on then "set -o " else "set +o ") ++ name ++ [10]

/-- Sets the options that a word has letters of; gives the arguments that are left and what is to
be printed.  `isOther` tells the letters that are of no concern here. -/
def setLetters (isOther : UInt8 → Bool) (on : Bool) : Bytes → List Bytes →
    Eval (List Bytes × Bytes)
  | [], args => return (args, [])
  | letter :: more, args => do
    if letter == 111 then
      match args with
      | [] =>
        let list := optionList (← get) on
        let (args, text) ← setLetters isOther on more []
        return (args, list ++ text)
      | name :: rest =>
        setNamed name on
        setLetters isOther on more rest
    else if isOther letter then setLetters isOther on more args
    else if State.isOption letter then
      modify (·.setOption letter on)
      setLetters isOther on more args
    else Eval.fail (ascii "Illegal option " ++ [signOf on, letter])

/-- What words in front of the arguments say about options. -/
structure Settings where
  /-- The arguments behind them. -/
  rest : List Bytes
  /-- They were ended by a word of its own. -/
  ended : Bool
  /-- What is to be printed. -/
  text : Bytes

/-- Sets the options in front of the arguments. -/
def setOptions : (fuel : Nat) → List Bytes → Eval Settings
  | 0, args => return ⟨args, false, []⟩
  | fuel + 1, args => do
    match args with
    | [45] :: rest =>
      modify fun s => (s.setOption 120 false).setOption 118 false
      return ⟨rest, false, []⟩
    | [45, 45] :: rest => return ⟨rest, true, []⟩
    | (sign :: letters) :: rest =>
      if sign == 45 || (sign == 43 && !letters.isEmpty) then
        let (rest, text) ← setLetters (fun _ => false) (sign == 45) letters rest
        let after ← setOptions fuel rest
        return { after with text := text ++ after.text }
      else return ⟨args, false, []⟩
    | args => return ⟨args, false, []⟩

/-! ## Variables -/

/-- The variables with a property, as commands of the given name, in order. -/
def listing (s : State) (command : Bytes) (has : Variable → Bool) : Bytes :=
  let chosen := (Bytes.sortBy Prod.fst s.bindings).filter fun (_, v) => has v
  chosen.flatMap fun (name, v) =>
    let start := if command.isEmpty then name else command ++ 32 :: name
    start ++ (match v.value with
      | some value => 61 :: quoted value
      | none => []) ++ [10]

/-- A name and perhaps a value, of an argument that has them with an equals sign between. -/
def binding (argument : Bytes) : Bytes × Option Bytes :=
  let name := argument.takeWhile (· != 61)
  match argument.drop name.length with
  | _ :: value => (name, some value)
  | [] => (name, none)

/-- The argument has to begin with a name. -/
def demandName (name : Bytes) : Eval Unit := do
  if !isName name then Eval.fail (name ++ ascii ": bad variable name")

/-- Gives variables a property, and perhaps a value. -/
def mark (command : String) (change : Variable → Variable) (has : Variable → Bool) : Builtin :=
  fun _ args => do
    let (letters, args) ← options "p" args
    if !letters.isEmpty || args.isEmpty then print (listing (← get) (ascii command) has)
    else
      args.forM fun argument => do
        let (name, value) := binding argument
        demandName name
        if let some value := value then Eval.assign name value false
        modify fun s => s.bind name (change (s.variableOf name))
      return 0

/-- Makes variables known to the programs that are started. -/
def markExported : Builtin := mark "export" ({ · with exported := true }) Variable.exported

def markConstant : Builtin := mark "readonly" ({ · with constant := true }) Variable.constant

def unset : Builtin := fun _ args => do
  let (letters, args) ← options "vf" args
  let ofFunctions := choice letters == some 'f'
  args.forM fun name => do
    if ofFunctions then
      modify fun s => { s with functions := s.functions.filter (·.1 != name) }
    else
      demandName name
      let s ← get
      if (s.variableOf name).constant then Eval.fail (name ++ ascii ": is read only")
      let isVariable := s.bindings.any (·.1 == name)
      if s.dialect == .extended && !isVariable && letters.isEmpty then
        set { s with functions := s.functions.filter (·.1 != name) }
      else set (s.unbind name)
  return 0

/-- The variables that belong to the function at work: they get back what they had before. -/
def declareLocal : Builtin := fun _ args => do
  if (← get).hidden.isEmpty then Eval.fail (ascii "not in a function")
  args.forM fun argument => do
    let (name, value) := binding argument
    demandName name
    modify fun s =>
      match s.hidden with
      | level :: outer =>
        if level.any (·.1 == name) then s
        else { s with hidden := ((name, s.bindings.lookup name) :: level) :: outer }
      | [] => s
    match value with
    | some value => Eval.assign name value false
    | none => modify fun s =>
        if s.dialect == .extended then s.unbind name else s.bind name (s.variableOf name)
  return 0

/-- Changes the options and the arguments of the shell. -/
def configure : Builtin := fun _ args => do
  if args.isEmpty then print (listing (← get) [] fun v => v.value.isSome)
  else
    let settings ← setOptions (args.length + 1) args
    if settings.ended || !settings.rest.isEmpty then
      modify ({ · with arguments := settings.rest, optionPlace := 1, optionOffset := 0 })
    if settings.text.isEmpty then return 0 else print settings.text

def shift : Builtin := fun _ args => do
  let count ← match args with
    | text :: _ => number text
    | [] => pure 1
  let s ← get
  if s.arguments.length < count then Eval.fail (ascii "can't shift that many")
  set { s with arguments := s.arguments.drop count, optionPlace := 1, optionOffset := 0 }
  return 0

/-! ## Reading a line -/

/-- A byte that was read, and whether it can separate fields. -/
abbrev Read := Bool × UInt8

/-- The line at the beginning of what comes next, how much it takes, and whether it ended with a
line feed.  Unless `raw` is asked for, a backslash protects the next byte, or joins lines. -/
def takeLine (raw : Bool) : (reversed : List Read) → (taken : Nat) → Bytes →
    List Read × Nat × Bool
  | reversed, n, [] => (reversed.reverse, n, false)
  | reversed, n, 92 :: rest =>
    if raw then takeLine raw ((true, 92) :: reversed) (n + 1) rest
    else
      match rest with
      | [] => (reversed.reverse, n + 1, false)
      | 10 :: rest => takeLine raw reversed (n + 2) rest
      | b :: rest => takeLine raw ((false, b) :: reversed) (n + 2) rest
  | reversed, n, b :: rest =>
    if b == 10 then (reversed.reverse, n + 1, true)
    else if b == 0 then takeLine raw reversed (n + 1) rest
    else takeLine raw ((true, b) :: reversed) (n + 1) rest

/-- The line without the separators at its end that the last variable does not get: the blanks,
and if they leave nothing but one separator, that one too. -/
def lastField (separates blank : Read → Bool) (line : List Read) : List Read :=
  let trimmed := (line.reverse.dropWhile blank).reverse
  let word := trimmed.takeWhile (!separates ·)
  let behind := (trimmed.drop word.length).dropWhile blank
  match behind with
  | [b] => if separates b && !blank b then word else trimmed
  | _ => trimmed

/-- The texts for so many variables; the last one is given everything that is left. -/
def distribute (separates blank : Read → Bool) : (count : Nat) → List Read → List (List Read)
  | 0, _ => []
  | 1, line => [lastField separates blank line]
  | count + 2, line =>
    let word := line.takeWhile (!separates ·)
    let rest := (line.drop word.length).dropWhile blank
    let rest := match rest with
      | b :: after => if separates b then after.dropWhile blank else rest
      | [] => []
    word :: distribute separates blank (count + 1) rest

/-- Reads a line and gives its fields to variables. -/
def read : Builtin := fun _ args => do
  let (found, names) ← readOptions ⟨"r", "p"⟩ (args.length + 1) args
  let raw := found.any (·.1 == 114)
  let names ← match names with
    | [] =>
      if (← get).dialect == .extended then pure [ascii "REPLY"]
      else Eval.fail (ascii "arg count")
    | names => pure names
  let input ← Eval.perform (do
    let m ← get
    match m.openFile? Machine.input with
    | some file => return (m.ahead file).toOption.getD []
    | none => return [])
  let (line, taken, ended) := takeLine raw [] 0 input
  let _ ← Eval.perform (Act.readSome Machine.input taken)
  let separators := (← get).separators
  let separates (r : Read) : Bool := r.1 && separators.contains r.2
  let blank (r : Read) : Bool := separates r && Splitting.isBlank r.2
  let texts := distribute separates blank names.length (line.dropWhile blank)
  (names.zip texts).forM fun (name, text) => do
    demandName name
    Eval.assign name (text.map Prod.snd) false
  return if ended then 0 else 1

/-! ## Options of scripts -/

/-- What the next option of a script is. -/
structure OptionFound where
  letter : UInt8
  value : Option Bytes
  /-- There are no options any more. -/
  done : Bool
  place : Nat
  offset : Nat
  complaint : Option Bytes

/-- Finds the next option among the arguments. -/
def nextOption (known : Bytes) (args : List Bytes) (place offset : Nat) : OptionFound :=
  let current := if offset = 0 then [] else (((args[place - 2]?).getD []).drop offset)
  let ended (place : Nat) : OptionFound := ⟨63, none, true, place, 0, none⟩
  let silent := known.head? == some 58
  let go (letter : UInt8) (rest : Bytes) (place offset : Nat) : OptionFound :=
    let behind := known.dropWhile (· != letter)
    let next := if rest.isEmpty then 0 else offset + 1
    if behind.isEmpty || letter == 58 then
      if silent then ⟨63, some [letter], false, place, next, none⟩
      else ⟨63, none, false, place, next, some (ascii "Illegal option -" ++ [letter])⟩
    else if behind[1]? == some 58 then
      if !rest.isEmpty then ⟨letter, some rest, false, place, 0, none⟩
      else
        match args[place - 1]? with
        | some value => ⟨letter, some value, false, place + 1, 0, none⟩
        | none =>
          if silent then ⟨58, some [letter], false, place, 0, none⟩
          else
            ⟨63, none, false, place, 0, some (ascii "No arg for -" ++ letter :: ascii " option")⟩
    else ⟨letter, some [], false, place, next, none⟩
  match current with
  | letter :: rest => go letter rest place offset
  | [] =>
    match args[place - 1]? with
    | some [45, 45] => ended (place + 1)
    | some (45 :: letter :: rest) => go letter rest (place + 1) 1
    | _ => ended place

def getopts : Builtin := fun _ args => do
  match args with
  | known :: name :: rest =>
    let s ← get
    let args := if rest.isEmpty then s.arguments else rest
    let place := if args.length + 1 < s.optionPlace then 1 else s.optionPlace
    let offset := if args.length + 1 < s.optionPlace then 0 else s.optionOffset
    let found := nextOption known args place offset
    if let some complaint := found.complaint then
      let _ ← Eval.perform (Act.write Machine.complaints (complaint ++ [10]))
    if !found.done then
      match found.value with
      | some value => Eval.assign (ascii "OPTARG") value false
      | none => modify (·.unbind (ascii "OPTARG"))
    Eval.assign State.optionIndex (Bytes.ofNat found.place) false
    Eval.assign name [found.letter] false
    modify ({ · with optionPlace := found.place, optionOffset := found.offset })
    return if found.done then 1 else 0
  | _ => Eval.fail (ascii "Usage: getopts optstring var [arg]")

/-! ## Names for other text -/

/-- Makes names stand for other text, or tells what they stand for. -/
def aliasNames : Builtin := fun _ args => do
  let line (name text : Bytes) : Bytes := name ++ 61 :: (quoted text ++ [10])
  if args.isEmpty then
    print ((Bytes.sortBy Prod.fst (← get).aliases).flatMap fun (name, text) => line name text)
  else
    let statuses ← args.mapM fun argument => do
      match binding argument with
      | (name, some text) =>
        modify fun s => { s with aliases := (name, text) :: s.aliases.filter (·.1 != name) }
        return (0 : UInt8)
      | (name, none) =>
        match (← get).aliases.lookup name with
        | some text => print (line name text)
        | none =>
          let _ ← Eval.perform (Act.write Machine.complaints
            (ascii "alias: " ++ name ++ ascii " not found\n"))
          return 1
    return if statuses.any (· != 0) then 1 else 0

/-- Makes names stand for themselves again. -/
def unalias : Builtin := fun _ args => do
  let (letters, args) ← options "a" args
  if !letters.isEmpty then
    modify ({ · with aliases := [] })
    return 0
  let statuses ← args.mapM fun name => do
    let s ← get
    if s.aliases.any (·.1 == name) then
      set { s with aliases := s.aliases.filter (·.1 != name) }
      return (0 : UInt8)
    else
      let _ ← Eval.perform (Act.write Machine.complaints
        (ascii "unalias: " ++ name ++ ascii " not found\n"))
      return 1
  return if statuses.any (· != 0) then 1 else 0

end Builtins
end WasmPackager.Shell
