/-
# `Shell.Builtins.Printing` — commands that write texts

`echo` writes its arguments, `printf` writes them as a format says.
-/
import WasmPackager.Shell.Builtins.Basic
import WasmPackager.Shell.Text.Printf

namespace WasmPackager.Shell.Builtins

/-! ## echo -/

/-- The arguments with a blank between them, up to one that ends everything; whether one did. -/
def echoed (escapes : Bool) : List Bytes → Bytes × Bool
  | [] => ([], false)
  | a :: rest =>
    let (bytes, stopped) := if escapes then Escape.expand false a else (a, false)
    if stopped then (bytes, true)
    else
      match rest with
      | [] => (bytes, false)
      | _ :: _ =>
        let (more, stopped) := echoed escapes rest
        (bytes ++ 32 :: more, stopped)

/-- How `echo` was asked to write. -/
structure EchoStyle where
  lineFeed : Bool
  escapes : Bool

/-- The options in front of what is written, where several are understood. -/
def echoOptions : EchoStyle → List Bytes → EchoStyle × List Bytes
  | style, (45 :: b :: letters) :: rest =>
    if (b :: letters).all (ascii "neE").contains then
      echoOptions ((b :: letters).foldl (fun (style : EchoStyle) (b : UInt8) =>
        if b == 110 then { style with lineFeed := false }
        else { style with escapes := b == 101 }) style) rest
    else (style, (45 :: b :: letters) :: rest)
  | style, args => (style, args)

def echoText (dialect : Dialect) (args : List Bytes) : Bytes :=
  let (style, args) : EchoStyle × List Bytes := match dialect, args with
    | .common, [45, 110] :: rest => (⟨false, true⟩, rest)
    | .common, args => (⟨true, true⟩, args)
    | .extended, args => echoOptions ⟨true, false⟩ args
  let (bytes, stopped) := echoed style.escapes args
  if stopped || !style.lineFeed then bytes else bytes ++ [10]

def echo : Builtin := fun _ args => do print (echoText (← get).dialect args)

/-! ## printf -/

/-- Writes the arguments as a format says. -/
def printf : Builtin := fun _ args => do
  let (_, args) ← options "" args
  match args with
  | [] => Eval.fail (ascii "usage: printf format [arg ...]")
  | format :: args =>
    let (bytes, complaints, ending) := Printf.write .shell format args
    complaints.forM Eval.complain
    let status ← printing bytes (if complaints.isEmpty then 0 else 1)
    match ending with
    | .mistake message => Eval.fail message
    | .done | .stopped => return status

end WasmPackager.Shell.Builtins
