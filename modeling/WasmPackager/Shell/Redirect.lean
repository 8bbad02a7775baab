/-
# `Shell.Redirect` — where the streams of a command lead

The words of all redirections are expanded before the first one is made.  What
a stream led to before is kept, so that it can be put back behind the command.
-/
import WasmPackager.Shell.Expansion

namespace WasmPackager.Shell

/-- A redirection whose words were expanded. -/
inductive Redirect
  | file (stream : Nat) (how : Opening) (path : Bytes)
  /-- The stream leads where another one does, or is closed. -/
  | duplicate (stream : Nat) (other : Option Nat)
  | document (stream : Nat) (text : Bytes)

/-- The places streams led to before they were redirected; none if they were closed. -/
abbrev Before := List (Nat × Option Nat)

namespace Eval

/-- The stream whose number is the text of a word, or none if it is a dash. -/
def streamOf (text : Bytes) : Eval (Option Nat) := do
  if text == [45] then return none
  else
    match text with
    | [d] =>
      if Lexer.isDigit d then return some (d.toNat - 48)
      else fail (ascii "Syntax error: Bad fd number")
    | _ => fail (ascii "Syntax error: Bad fd number")

def outputOpening : Eval Opening := do
  return if (← get).has 'C' then .writeFresh else .write

/-- The redirections that a written one stands for. -/
def expandRedirection (engine : Engine) : Redirection → Eval (List Redirect)
  | .input stream path => return [.file stream .read (← textOf engine .atStart path)]
  | .output stream path =>
    return [.file stream (← outputOpening) (← textOf engine .atStart path)]
  | .overwriting stream path => return [.file stream .write (← textOf engine .atStart path)]
  | .appending stream path => return [.file stream .append (← textOf engine .atStart path)]
  | .both stream path => return [.file stream .readWrite (← textOf engine .atStart path)]
  | .duplicate stream other => do
    let text ← textOf engine .atStart other
    let isFile := match text with
      | [d] => !Lexer.isDigit d && d != 45
      | _ => true
    if (← get).dialect == .extended && isFile && stream == 1 then
      return [.file 1 .write text, .duplicate 2 (some 1)]
    else return [.duplicate stream (← streamOf text)]
  | .document stream number => do
    let word := ((← get).documents[number]?).getD []
    return [.document stream (← textOf engine .nowhere word)]
  | .textLine stream word => return [.document stream ((← textOf engine .atStart word) ++ [10])]
  | .everything append path =>
    return [.file 1 (if append then .append else .write) (← textOf engine .atStart path),
      .duplicate 2 (some 1)]

/-- The reason for which a file could not be opened, in the words of a shell. -/
def openingReason (creates : Bool) (cause : SystemError) : Bytes :=
  match cause with
  | .notFound | .notDirectory => ascii (if creates then "Directory nonexistent" else "No such file")
  | cause => cause.message

/-- Makes a redirection; says whether that could be done. -/
def redirect : Redirect → Eval Bool
  | .file stream how path => do
    let s ← get
    match s.machine.openPath path how with
    | .ok (place, machine) =>
      set { s with machine := machine.redirect stream place }
      return true
    | .error cause =>
      complain (ascii (if how.creates then "cannot create " else "cannot open ") ++ path ++
        ascii ": " ++ openingReason how.creates cause)
      return false
  | .duplicate stream none => do
    modify fun s => { s with machine := s.machine.close stream }
    return true
  | .duplicate stream (some other) => do
    let s ← get
    match s.machine.place? other with
    | some place =>
      set { s with machine := s.machine.redirect stream place }
      return true
    | none =>
      complain (Bytes.ofNat other ++ ascii ": " ++ SystemError.badDescriptor.message)
      return false
  | .document stream text => do
    let s ← get
    let (place, machine) := s.machine.document text
    set { s with machine := machine.redirect stream place }
    return true

def Redirect.stream : Redirect → Nat
  | .file stream .. | .duplicate stream _ | .document stream _ => stream

/-- Puts the streams back to where they led. -/
def putBack (before : Before) : Eval Unit :=
  before.forM fun (stream, place?) =>
    modify fun s =>
      { s with machine := match place? with
          | some place => s.machine.redirect stream place
          | none => s.machine.close stream }

/-- Makes redirections one after the other, until one cannot be made; then all are undone.  The
places from before are given with the last one first. -/
def redirectAll (before : Before) : List Redirect → Eval (Option Before)
  | [] => return some before
  | first :: rest => do
    let stream := Redirect.stream first
    let before := (stream, (← get).machine.place? stream) :: before
    if ← redirect first then redirectAll before rest
    else
      putBack before
      return none

/-- The redirections that are written at a command. -/
def expandRedirections (engine : Engine) (redirections : List Redirection) :
    Eval (List Redirect) :=
  return (← redirections.mapM (expandRedirection engine)).flatten

/-- Does something with streams redirected.  If that cannot be done the status is 2. -/
def withRedirections (engine : Engine) (redirections : List Redirection) (body : Eval Unit) :
    Eval Unit := do
  match ← redirectAll [] (← expandRedirections engine redirections) with
  | some before => finally_ body (putBack before)
  | none => setStatus 2

end Eval
end WasmPackager.Shell
