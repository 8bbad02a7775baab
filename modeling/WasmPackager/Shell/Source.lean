/-
# `Shell.Source` — doing what a text says

A text is read line by line, and every line is done before the next one is
read.  Reading a later line therefore knows the names that an earlier one
defined.
-/
import WasmPackager.Shell.Grammar
import WasmPackager.Shell.State

namespace WasmPackager.Shell.Eval

/-- The reader with what the shell knows of names and documents. -/
def informed (r : Reader) (s : State) : Reader :=
  { r with aliases := s.aliases, documents := s.documents }

/-- Complains about a text that is not a script, and gives up. -/
def reject {α : Type} (e : SyntaxError) : Eval α := do
  modify ({ · with line := e.line })
  fail e.message

/-- Does what is left of a text; `ran` tells that something of it was done.  A text without
commands succeeds. -/
def lines (engine : Engine) (tested : Bool) : (fuel : Nat) → (ran : Bool) → Reader → Eval Unit
  | 0, _, _ => return
  | fuel + 1, ran, r => do
    match Grammar.next (informed r (← get)) with
    | .ended => if !ran then setStatus 0
    | .wrong e => reject e
    | .script none r =>
      modify ({ · with documents := r.documents })
      lines engine tested fuel ran r
    | .script (some script) r =>
      modify ({ · with documents := r.documents })
      engine.evaluate script tested
      lines engine tested fuel true r

def text (engine : Engine) (tested : Bool) (bytes : Bytes) : Eval Unit := do
  lines engine tested (bytes.length + 2) false (.ofText (← get).dialect bytes)

end WasmPackager.Shell.Eval
