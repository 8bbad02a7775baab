/-
# `Shell.Tools.Basic` — what the system's programs have in common

A program is called by a name, which its messages begin with, and is given
arguments.  Options can stand anywhere among the arguments up to a double dash;
letters can be joined in one word, and long names can be cut short as long as
they are unambiguous.
-/
import WasmPackager.Shell.Machine.Streams
import WasmPackager.Shell.Text.Quote

namespace WasmPackager.Tools

/-- How a program is started by another one. -/
abbrev Starter := (program : Name) → (argv : List Bytes) → Machine → Fate × Machine

/-- The call of a program. -/
structure Call where
  /-- The name it was called by. -/
  name : Bytes
  args : List Bytes
  start : Starter

/-- A program: what it does when it is called, and its status. -/
abbrev Tool := Call → Act UInt8

/-! ## Messages and results -/

namespace Call

def complain (c : Call) (text : Bytes) : Act Unit := do
  let _ ← Act.write Machine.complaints (c.name ++ ascii ": " ++ text ++ [10])

/-- Complains about something that has a name. -/
def complainOf (c : Call) (subject : Bytes) (cause : SystemError) : Act Unit :=
  c.complain (subject ++ ascii ": " ++ cause.message)

def abort {α : Type} (c : Call) (text : Bytes) (status : UInt8) : Act α := do
  c.complain text
  Act.exit status

/-- Says where help can be found, and gives up. -/
def tryHelp {α : Type} (c : Call) (status : UInt8) : Act α := do
  let _ ← Act.write Machine.complaints
    (ascii "Try '" ++ c.name ++ ascii " --help' for more information.\n")
  Act.exit status

/-- Complains about the way the program was called, and gives up. -/
def misuse {α : Type} (c : Call) (text : Bytes) (status : UInt8) : Act α := do
  c.complain text
  c.tryHelp status

/-- The name of a program without the path to it. -/
def baseName (path : Bytes) : Bytes := (path.reverse.takeWhile (· != Path.slash)).reverse

/-- The statuses of programs whose results cannot be written, where that is not 1. -/
def writeFailures : List (String × UInt8) :=
  [("ls", 2), ("sort", 2), ("grep", 2), ("egrep", 2), ("fgrep", 2), ("sed", 4), ("env", 125),
   ("expr", 3), ("printenv", 2), ("cmp", 2), ("diff", 2)]

/-- What a program says when its results cannot be written. -/
def writeComplaint (name : Bytes) (cause : SystemError) : List Bytes :=
  if name == ascii "sort" then
    [ascii "fflush failed: 'standard output': " ++ cause.message, ascii "write error"]
  else if name == ascii "sed" then
    [ascii (if cause == SystemError.badDescriptor then "couldn't close stdout: "
      else "couldn't flush stdout: ") ++ cause.message]
  else [ascii "write error: " ++ cause.message]

def say (c : Call) (bytes : Bytes) : Act Unit := do
  match ← Act.write Machine.output bytes with
  | .ok () => return
  | .error cause =>
    let name := baseName c.name
    (writeComplaint name cause).forM c.complain
    Act.exit (((writeFailures.find? fun (n, _) => ascii n == name).map Prod.snd).getD 1)

/-- What an operand stands for: a file, or with a dash what the program reads. -/
def input (operand : Bytes) : Act (Except SystemError Bytes) :=
  if operand == [45] then Act.readAll Machine.input else Act.readPath operand

end Call

/-! ## Options -/

/-- An option can have a value. -/
inductive Demand
  | nothing
  | value
  | maybe
deriving DecidableEq

/-- A long option, with the letter that it stands for. -/
structure Long where
  name : String
  demand : Demand
  letter : Char

/-- The options of a program. -/
structure Spec where
  /-- The letters, each with a colon behind it if it has a value and with two if it can have one. -/
  letters : String
  long : List Long
  /-- Operands end the options. -/
  strict : Bool
  /-- The status of a program that was called wrongly. -/
  misuse : UInt8

namespace Spec

def usual (letters : String) (long : List Long) : Spec := ⟨letters, long, false, 1⟩

def demand? (spec : Spec) (b : UInt8) : Option Demand :=
  match (ascii spec.letters).dropWhile (· != b) with
  | _ :: 58 :: 58 :: _ => if b == 58 then none else some .maybe
  | _ :: 58 :: _ => if b == 58 then none else some .value
  | _ :: _ => if b == 58 then none else some .nothing
  | [] => none

end Spec

/-- An option that was given. -/
structure Given where
  letter : Char
  value : Option Bytes

/-- The arguments of a program, sorted. -/
structure Arguments where
  options : List Given
  operands : List Bytes

namespace Arguments

def has (a : Arguments) (letter : Char) : Bool := a.options.any (·.letter == letter)

def value? (a : Arguments) (letter : Char) : Option Bytes :=
  ((a.options.filter (·.letter == letter)).getLast?).bind Given.value

def values (a : Arguments) (letter : Char) : List Bytes :=
  a.options.filterMap fun o => if o.letter == letter then o.value else none

/-- The last of some letters that was given. -/
def last? (a : Arguments) (letters : List Char) : Option Char :=
  ((a.options.filter fun o => letters.contains o.letter).getLast?).map Given.letter

end Arguments

namespace Call

def charOf (b : UInt8) : Char := Char.ofNat b.toNat

/-- Reads the letters of a word; gives the options and the arguments behind. -/
def readLetters (c : Call) (spec : Spec) : Bytes → List Bytes → Act (List Given × List Bytes)
  | [], rest => return ([], rest)
  | b :: more, rest => do
    match spec.demand? b with
    | none => c.misuse (ascii "invalid option -- '" ++ b :: [39]) spec.misuse
    | some .nothing =>
      let (found, rest) ← readLetters c spec more rest
      return (⟨charOf b, none⟩ :: found, rest)
    | some .maybe => return ([⟨charOf b, if more.isEmpty then none else some more⟩], rest)
    | some .value =>
      match more, rest with
      | [], [] => c.misuse (ascii "option requires an argument -- '" ++ b :: [39]) spec.misuse
      | [], value :: rest => return ([⟨charOf b, some value⟩], rest)
      | value, rest => return ([⟨charOf b, some value⟩], rest)

/-- The long options that a name can mean. -/
def meant (spec : Spec) (name : Bytes) : List Long :=
  match spec.long.filter fun o => ascii o.name == name with
  | [] => spec.long.filter fun o => name.isPrefixOf (ascii o.name)
  | exact => exact

def readLong (c : Call) (spec : Spec) (word : Bytes) (rest : List Bytes) :
    Act (Given × List Bytes) := do
  let name := word.takeWhile (· != 61)
  let attached : Option Bytes := match word.drop name.length with
    | _ :: value => some value
    | [] => none
  let about (o : Long) : Bytes := ascii ("option '--" ++ o.name ++ "'")
  match meant spec name with
  | [] => c.misuse (ascii "unrecognized option '--" ++ word ++ [39]) spec.misuse
  | o :: others =>
    if others.any fun p => p.letter != o.letter then
      let all := (o :: others).flatMap fun p => ascii (" '--" ++ p.name ++ "'")
      c.misuse (ascii "option '--" ++ word ++ ascii "' is ambiguous; possibilities:" ++ all)
        spec.misuse
    else
      match o.demand, attached, rest with
      | .nothing, some _, _ => c.misuse (about o ++ ascii " doesn't allow an argument") spec.misuse
      | .value, none, [] => c.misuse (about o ++ ascii " requires an argument") spec.misuse
      | .value, none, value :: rest => return (⟨o.letter, some value⟩, rest)
      | _, value, rest => return (⟨o.letter, value⟩, rest)

/-- Sorts arguments into options and operands. -/
def readArguments (c : Call) (spec : Spec) : (fuel : Nat) → List Bytes → Act Arguments
  | 0, args => return ⟨[], args⟩
  | fuel + 1, args => do
    match args with
    | [] => return ⟨[], []⟩
    | [45, 45] :: rest => return ⟨[], rest⟩
    | (45 :: 45 :: word) :: rest =>
      let (found, rest) ← readLong c spec word rest
      let after ← readArguments c spec fuel rest
      return ⟨found :: after.options, after.operands⟩
    | (45 :: b :: word) :: rest =>
      let (found, rest) ← readLetters c spec (b :: word) rest
      let after ← readArguments c spec fuel rest
      return ⟨found ++ after.options, after.operands⟩
    | operand :: rest =>
      if spec.strict then return ⟨[], operand :: rest⟩
      else
        let after ← readArguments c spec fuel rest
        return ⟨after.options, operand :: after.operands⟩

/-- The long options that every program has, told by letters that nobody can type. -/
def standard : List Long := [⟨"help", .nothing, '\x01'⟩, ⟨"version", .nothing, '\x02'⟩]

/-- The collection that a program belongs to, and its version. -/
def collection (name : Bytes) : String :=
  if name == ascii "sed" then "GNU sed) 4.9"
  else if [ascii "grep", ascii "egrep", ascii "fgrep"].contains name then "GNU grep) 3.11"
  else if name == ascii "find" || name == ascii "xargs" then "GNU findutils) 4.9.0"
  else if name == ascii "cmp" || name == ascii "diff" then "GNU diffutils) 3.10"
  else "GNU coreutils) 9.4"

/-- The arguments of a call, sorted; a request for help is fulfilled at once. -/
def arguments (c : Call) (spec : Spec) : Act Arguments := do
  let spec := { spec with long := spec.long ++ standard }
  let found ← c.readArguments spec (c.args.length + 1) c.args
  if found.has '\x01' then
    c.say (ascii "Usage: " ++ c.name ++ ascii " [OPTION]...\n")
    Act.exit 0
  else if found.has '\x02' then
    let name := baseName c.name
    c.say (name ++ ascii (" (" ++ collection name ++ "\n"))
    Act.exit 0
  else return found

/-- The operands of a program that needs at least one. -/
def demandOperand (c : Call) (operands : List Bytes) : Act Unit := do
  if operands.isEmpty then c.misuse (ascii "missing operand") 1

/-- The status of a program that did some things, of which some may have failed. -/
def statusOf (results : List Bool) : UInt8 := if results.all id then 0 else 1

end Call

/-! ## Lines -/

/-- The lines of a text, each with its line feed if it has one. -/
def linesOf (mark : UInt8) (text : Bytes) : List Bytes :=
  let (reversed, current) : List Bytes × Bytes :=
    text.foldl (fun (lines, current) b =>
      if b == mark then ((b :: current).reverse :: lines, []) else (lines, b :: current)) ([], [])
  (if current.isEmpty then reversed else current.reverse :: reversed).reverse

/-- The line without the line feed at its end. -/
def withoutMark (mark : UInt8) (line : Bytes) : Bytes :=
  if line.getLast? == some mark then line.dropLast else line

/-- The lines of a text without line feeds. -/
def plainLines (text : Bytes) : List Bytes := (linesOf 10 text).map (withoutMark 10)

def total (numbers : List Nat) : Nat := numbers.foldl (· + ·) 0

end WasmPackager.Tools
