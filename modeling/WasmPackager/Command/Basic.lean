/-
# `Command.Basic` — commands and what becomes of them

A command names a program, its arguments and the directory it runs in.  Once
started, a child either exits with a status byte or is killed by a signal; a
runner reports that as an exit code and a verdict.
-/
import WasmPackager.Bytes

namespace WasmPackager

structure Command where
  program : Bytes
  args : List Bytes
  /-- The directory the program runs in; empty for the current one. -/
  workingDir : Bytes
deriving DecidableEq

/-- The command as one line, for messages: the words with a space between them, unquoted. -/
def Command.describe (c : Command) : Bytes := c.program ++ c.args.flatMap (32 :: ·)

inductive Fate
  | exited (status : UInt8)
  | killed (signal : Nat)
deriving DecidableEq

/-- What a runner reports about a command that was started. -/
structure Completion where
  success : Bool
  exitCode : Int
deriving DecidableEq

/-- A child's status byte, or 128 and the number of the signal that killed it, is its exit
code; only an exit with status 0 is a success. -/
def Fate.completion : Fate → Completion
  | exited status => ⟨status == 0, status.toNat⟩
  | killed signal => ⟨false, 128 + signal⟩

end WasmPackager
