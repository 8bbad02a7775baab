/-
# `Report.Logger` — records and who gets to see them

A record is a message with a severity, and is written as one line that begins
with the word for the severity; a message of several lines stays as it is.  A
logger drops notes unless it is verbose, writes everything else, and counts
as a problem every record that is not a note.

A logger keeps the records it wrote rather than their text, so what a quiet
logger left out can be said of records.
-/
import WasmPackager.Bytes

namespace WasmPackager

inductive Severity
  | note
  | warning
  | error
deriving DecidableEq

def Severity.word : Severity → Bytes
  | note => ascii "note"
  | warning => ascii "warning"
  | error => ascii "error"

/-- A message with a severity. -/
structure Record where
  severity : Severity
  message : Bytes
deriving DecidableEq

def Record.line (r : Record) : Bytes := r.severity.word ++ ascii ": " ++ r.message ++ [10]

/-- A logger and what it has done so far. -/
structure Logger where
  verbose : Bool
  /-- The records written, first one first. -/
  written : List Record
  /-- How many records were warnings or errors. -/
  problems : Nat
deriving DecidableEq

namespace Logger

def fresh (verbose : Bool) : Logger := ⟨verbose, [], 0⟩

def report (log : Logger) (r : Record) : Logger :=
  match r.severity with
  | .note => if log.verbose then { log with written := log.written ++ [r] } else log
  | .warning | .error =>
    { log with written := log.written ++ [r], problems := log.problems + 1 }

def note (log : Logger) (message : Bytes) : Logger := log.report ⟨.note, message⟩

def text (log : Logger) : Bytes := log.written.flatMap Record.line

end Logger
end WasmPackager
