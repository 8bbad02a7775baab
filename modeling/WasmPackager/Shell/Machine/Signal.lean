/-
# `Shell.Machine.Signal` — signals by name and number

The names that scripts use for signals, and what a signal does to a process
that has not said what to do about it.
-/
import WasmPackager.Shell.Machine.Basic

namespace WasmPackager.Signal

/-- The name of the pseudo-signal that stands for the end of a shell. -/
def exitName : Bytes := ascii "EXIT"

def table : List (Bytes × Nat) :=
  [("HUP", 1), ("INT", 2), ("QUIT", 3), ("ILL", 4), ("TRAP", 5), ("ABRT", 6), ("BUS", 7),
   ("FPE", 8), ("KILL", 9), ("USR1", 10), ("SEGV", 11), ("USR2", 12), ("PIPE", 13),
   ("ALRM", 14), ("TERM", 15), ("STKFLT", 16), ("CHLD", 17), ("CONT", 18), ("STOP", 19),
   ("TSTP", 20), ("TTIN", 21), ("TTOU", 22), ("URG", 23), ("XCPU", 24), ("XFSZ", 25),
   ("VTALRM", 26), ("PROF", 27), ("WINCH", 28), ("IO", 29), ("PWR", 30), ("SYS", 31),
   ("RTMIN", 34), ("RTMAX", 64)].map fun (name, number) => (ascii name, number)

/-- The names that are understood beside those of the table. -/
def synonyms : List (Bytes × Nat) :=
  [("IOT", 6), ("CLD", 17), ("POLL", 29)].map fun (name, number) => (ascii name, number)

def last : Nat := 64

/-- The signal that nobody can ask to be spared. -/
def kill : Nat := 9

/-- The signal that asks a process to end. -/
def terminate : Nat := 15

/-- The signal for writing where nobody reads. -/
def brokenPipe : Nat := 13

/-- The signal for a recursion that is too deep. -/
def segmentationFault : Nat := 11

def upperCase (s : Bytes) : Bytes := s.map fun b => if 97 ≤ b && b ≤ 122 then b - 32 else b

/-- The number of a signal given by number, or by name with or without `SIG`; 0 is the end of a
shell. -/
def ofText? (text : Bytes) : Option Nat :=
  match Bytes.toNat? text with
  | some number => if number ≤ last then some number else none
  | none =>
    let name := upperCase text
    let name := if (ascii "SIG").isPrefixOf name then name.drop 3 else name
    if name == exitName then some 0 else (table ++ synonyms).lookup name

def name? (number : Nat) : Option Bytes :=
  if number = 0 then some exitName else (table.find? (·.2 == number)).map Prod.fst

/-- What a shell says about a process that a signal ended; some signals are passed over. -/
def reports : List (Nat × String) :=
  [(1, "Hangup"), (3, "Quit"), (4, "Illegal instruction"), (5, "Trace/breakpoint trap"),
   (6, "Aborted"), (7, "Bus error"), (8, "Floating point exception"), (9, "Killed"),
   (10, "User defined signal 1"), (11, "Segmentation fault"), (12, "User defined signal 2"),
   (14, "Alarm clock"), (15, "Terminated"), (16, "Stack fault"), (24, "CPU time limit exceeded"),
   (25, "File size limit exceeded"), (26, "Virtual timer expired"),
   (27, "Profiling timer expired"), (29, "I/O possible"), (30, "Power failure"),
   (31, "Bad system call")]

/-- What a shell says about a process that a signal ended. -/
def report? (number : Nat) : Option Bytes := (reports.lookup number).map ascii

/-- The signals that do nothing to a process that has not asked for them. -/
def harmless : List Nat := [0, 17, 18, 23, 28]

/-- The signals that only halt a process, which here goes on at once. -/
def halting : List Nat := [19, 20, 21, 22]

/-- A signal ends a process that has not said what to do about it. -/
def isFatal (number : Nat) : Bool := !harmless.contains number && !halting.contains number

end WasmPackager.Signal
