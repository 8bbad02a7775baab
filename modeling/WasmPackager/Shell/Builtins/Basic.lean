/-
# `Shell.Builtins.Basic` — what the shell's own commands have in common

How a command of the shell takes its options, its numbers, and how it writes a
text so that a shell can read it again.
-/
import WasmPackager.Shell.Redirect

namespace WasmPackager.Shell

/-- A command of the shell itself: given its arguments it does something and has a status. -/
abbrev Builtin := Engine → List Bytes → Eval UInt8

namespace Builtins

/-! ## Options -/

/-- A set of option letters, and those of them that are followed by a value. -/
structure Letters where
  plain : String
  valued : String

/-- An option that was found: its letter, and its value if it has one. -/
abbrev Found := UInt8 × Option Bytes

/-- Reads the letters of a word, and the word behind it where a letter needs a value that does
not follow it. -/
def readWord (known : Letters) : Bytes → List Bytes → Eval (List Found × List Bytes)
  | [], rest => return ([], rest)
  | letter :: more, rest => do
    if (ascii known.plain).contains letter then
      let (found, rest) ← readWord known more rest
      return ((letter, none) :: found, rest)
    else if (ascii known.valued).contains letter then
      match more, rest with
      | [], [] => Eval.fail (ascii "No arg for -" ++ [letter] ++ ascii " option")
      | [], value :: rest => return ([(letter, some value)], rest)
      | value, rest => return ([(letter, some value)], rest)
    else Eval.fail (ascii "Illegal option -" ++ [letter])

/-- Reads the options at the beginning of the arguments; gives them and the other arguments. -/
def readOptions (known : Letters) : (fuel : Nat) → List Bytes → Eval (List Found × List Bytes)
  | 0, args => return ([], args)
  | fuel + 1, args => do
    match args with
    | [45, 45] :: rest => return ([], rest)
    | (45 :: b :: word) :: rest =>
      let (found, rest) ← readWord known (b :: word) rest
      let (more, rest) ← readOptions known fuel rest
      return (found ++ more, rest)
    | args => return ([], args)

/-- Reads the options of a command that knows letters without values only. -/
def options (plain : String) (args : List Bytes) : Eval (List UInt8 × List Bytes) := do
  let (found, rest) ← readOptions ⟨plain, ""⟩ (args.length + 1) args
  return (found.map Prod.fst, rest)

/-- The last of the letters that was found. -/
def choice (letters : List UInt8) : Option Char := letters.getLast?.map fun b => Char.ofNat b.toNat

/-! ## Numbers -/

/-- The largest number that a command takes. -/
def numberLimit : Nat := Nat.pow 2 31 - 1

/-- The number an argument denotes, which blanks may surround. -/
def number (text : Bytes) : Eval Nat := do
  let wrong {α : Type} : Eval α := Eval.fail (ascii "Illegal number: " ++ text)
  let digits := Bytes.strip isSpace text
  let digits := match digits with
    | 43 :: rest => rest
    | digits => digits
  match Bytes.toNat? digits with
  | some n => if numberLimit < n then wrong else return n
  | none => wrong

/-! ## Texts for a shell -/

/-- The text in quotes that a shell takes away again. -/
def quoted (text : Bytes) : Bytes :=
  let rec behind : (fuel : Nat) → Bytes → Bytes
    | 0, _ => []
    | fuel + 1, text =>
      let plain := text.takeWhile (· != 39)
      let rest := text.drop plain.length
      let marks := rest.takeWhile (· == 39)
      let first := 39 :: (plain ++ [39])
      if marks.isEmpty then first
      else
        let rest := rest.drop marks.length
        let middle := first ++ 34 :: (marks ++ [34])
        if rest.isEmpty then middle else middle ++ behind fuel rest
  behind (text.length + 1) text

/-- Results that were written, or the complaint that they could not be. -/
def print (bytes : Bytes) : Eval UInt8 := do
  match ← Eval.emit bytes with
  | .ok () => return 0
  | .error cause =>
    let s ← get
    Eval.complain (match s.dialect with
      | .common => s.command.getD [] ++ ascii ": I/O error"
      | .extended => ascii "write error: " ++ cause.message)
    return 1

/-- Results that were written, with a status of their own. -/
def printing (bytes : Bytes) (status : UInt8) : Eval UInt8 :=
  return (← print bytes) ||| status

end Builtins
end WasmPackager.Shell
