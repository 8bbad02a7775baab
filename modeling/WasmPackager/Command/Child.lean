/-
# `Command.Child` — what a parent learns of its child

A child that cannot become the program it was started for says so in a notice
on a pipe, which closes by itself when the program begins, and exits with 127.
The same status can come from a program that began, so it is the notice that
tells the two apart.  Of a program that ended the parent gets a wait status, a
number in which the exit status, the signal and whether memory was dumped are
packed.
-/
import WasmPackager.Command.Basic
import WasmPackager.FileSystem.SystemError

namespace WasmPackager

/-! ## Notices -/

/-- What a child does before the program begins. -/
inductive Stage
  | entering
  | executing
deriving DecidableEq

namespace Stage

/-- The number a notice gives a stage by. -/
def number : Stage → Int32
  | entering => 0
  | executing => 1

def ofNumber (n : Int32) : Stage := if n == 0 then entering else executing

@[simp] theorem ofNumber_number (stage : Stage) : ofNumber stage.number = stage := by
  cases stage <;> rfl

end Stage

/-- How many bytes there are in a number as it is kept in memory. -/
def wordSize : Nat := 4

/-- A natural number as it is kept in memory, in so many bytes, the lowest first. -/
def Bytes.ofWord : (size : Nat) → Nat → Bytes
  | 0, _ => []
  | size + 1, n => UInt8.ofNat (n % 256) :: ofWord size (n / 256)

/-- The natural number that bytes hold, the lowest first. -/
def Bytes.toWord : Bytes → Nat
  | [] => 0
  | b :: s => b.toNat + 256 * toWord s

/-- How many natural numbers there is room for in so many bytes. -/
def Bytes.wordCount : (size : Nat) → Nat
  | 0 => 1
  | size + 1 => 256 * wordCount size

theorem Bytes.length_ofWord (size n : Nat) : (Bytes.ofWord size n).length = size := by
  induction size generalizing n with
  | zero => rfl
  | succ size ih => rw [ofWord, List.length_cons, ih]

theorem Bytes.toWord_ofWord {size n : Nat} (h : n < Bytes.wordCount size) :
    (Bytes.ofWord size n).toWord = n := by
  induction size generalizing n with
  | zero =>
      have : n = 0 := Nat.lt_one_iff.mp h
      rw [this, ofWord, toWord]
  | succ size ih =>
      have high : n / 256 < wordCount size := Nat.div_lt_of_lt_mul h
      have low : (UInt8.ofNat (n % 256)).toNat = n % 256 := by
        rw [UInt8.toNat_ofNat']
        exact Nat.mod_mod_of_dvd n (Nat.dvd_refl 256)
      rw [ofWord, toWord, ih high, low]
      exact Nat.mod_add_div n 256

structure Notice where
  stage : Stage
  reason : ErrorNumber
deriving DecidableEq

namespace Notice

def wordOf (n : Int32) : Bytes := Bytes.ofWord wordSize n.toUInt32.toNat

/-- The number that stands in a part of a notice. -/
def ofWord (s : Bytes) : Int32 := (UInt32.ofNat s.toWord).toInt32

/-- What a child writes: the stage and the reason, side by side. -/
def bytes (notice : Notice) : Bytes := wordOf notice.stage.number ++ wordOf notice.reason

/-- The notice a parent has read; anything but the size of one is none. -/
def ofBytes? (s : Bytes) : Option Notice :=
  if s.length = 2 * wordSize then
    some ⟨Stage.ofNumber (ofWord (s.take wordSize)), ofWord (s.drop wordSize)⟩
  else none

theorem length_wordOf (n : Int32) : (wordOf n).length = wordSize := Bytes.length_ofWord ..

@[simp] theorem ofWord_wordOf (n : Int32) : ofWord (wordOf n) = n := by
  have fits : n.toUInt32.toNat < Bytes.wordCount wordSize := n.toUInt32.toNat_lt
  rw [ofWord, wordOf, Bytes.toWord_ofWord fits, UInt32.ofNat_toNat, Int32.toInt32_toUInt32]

/-- A parent reads the notice its child wrote. -/
@[simp] theorem ofBytes?_bytes (notice : Notice) : ofBytes? notice.bytes = some notice := by
  have front : notice.bytes.take wordSize = wordOf notice.stage.number :=
    List.take_left' (length_wordOf _)
  have back : notice.bytes.drop wordSize = wordOf notice.reason :=
    List.drop_left' (length_wordOf _)
  have size : notice.bytes.length = 2 * wordSize := by
    rw [bytes, List.length_append, length_wordOf, length_wordOf, Nat.two_mul]
  rw [ofBytes?, if_pos size, front, back, ofWord_wordOf, ofWord_wordOf, Stage.ofNumber_number]

@[simp] theorem ofBytes?_nil : ofBytes? [] = none := rfl

end Notice

/-! ## Wait statuses -/

/-- What waiting for a child gives: a status byte above a byte for the signal. -/
structure WaitStatus where
  word : Nat
deriving DecidableEq

namespace WaitStatus

/-- The part of the lower byte that is set if memory was dumped. -/
def dumpBit : Nat := 128

/-- What stands in the place of a signal when a child was stopped and not ended. -/
def stopped : Nat := 127

def ofFate (dumped : Bool) : Fate → WaitStatus
  | .exited status => ⟨256 * status.toNat⟩
  | .killed signal => ⟨signal + if dumped then dumpBit else 0⟩

def signal (w : WaitStatus) : Nat := w.word % dumpBit

def hasExited (w : WaitStatus) : Bool := w.signal == 0

def wasKilled (w : WaitStatus) : Bool := w.signal != 0 && w.signal != stopped

/-- The exit code: the status byte, or 128 and the signal. -/
def exitCode (w : WaitStatus) : Int :=
  if w.hasExited then (w.word / 256 % 256 : Nat)
  else if w.wasKilled then 128 + w.signal
  else w.word

/-- What is reported of a child with this status. -/
def completion (w : WaitStatus) : Completion := ⟨w.hasExited && w.exitCode == 0, w.exitCode⟩

end WaitStatus

/-- Signals have the numbers that there is room for in a wait status. -/
def Fate.Fits : Fate → Prop
  | exited _ => True
  | killed signal => 0 < signal ∧ signal < WaitStatus.stopped

instance : DecidablePred Fate.Fits
  | .exited _ => inferInstanceAs (Decidable True)
  | .killed signal => inferInstanceAs (Decidable (0 < signal ∧ signal < WaitStatus.stopped))

/-- The wait status tells how the child ended, whether or not memory was dumped. -/
theorem WaitStatus.completion_ofFate {fate : Fate} (h : fate.Fits) (dumped : Bool) :
    (ofFate dumped fate).completion = fate.completion := by
  cases fate with
  | exited status =>
      have exited : (ofFate dumped (.exited status)).hasExited = true := by
        simp only [hasExited, signal, ofFate, dumpBit, beq_iff_eq]
        omega
      have code : (ofFate dumped (.exited status)).exitCode = status.toNat := by
        have byte : status.toNat < 256 := status.toNat_lt
        rw [exitCode, if_pos exited]
        simp only [ofFate]
        omega
      have verdict : ((status.toNat : Int) == 0) = (status == 0) := by
        rw [Bool.eq_iff_iff, beq_iff_eq, beq_iff_eq, ← UInt8.toNat_inj]
        exact Int.natCast_eq_zero
      rw [completion, exited, code, Bool.true_and, verdict, Fate.completion]
  | killed number =>
      obtain ⟨positive, small⟩ := h
      have same : (ofFate dumped (.killed number)).signal = number := by
        simp only [stopped] at small
        cases dumped <;> simp only [signal, ofFate, dumpBit, Bool.false_eq_true, if_false, if_true]
          <;> omega
      have exited : (ofFate dumped (.killed number)).hasExited = false := by
        rw [hasExited, same]
        exact beq_false_of_ne (Nat.ne_of_gt positive)
      have killed : (ofFate dumped (.killed number)).wasKilled = true := by
        simp only [wasKilled, same, Bool.and_eq_true, bne_iff_ne]
        exact ⟨Nat.ne_of_gt positive, Nat.ne_of_lt small⟩
      rw [completion, exitCode, exited, killed, same]
      rfl

example : (WaitStatus.ofFate true (.killed 11)).completion = ⟨false, 139⟩ := by decide

end WasmPackager
