/-
# `Shell.Builtins.Table` — the shell's own commands by name
-/
import WasmPackager.Shell.Builtins.Printing
import WasmPackager.Shell.Builtins.Parameters
import WasmPackager.Shell.Builtins.Location
import WasmPackager.Shell.Builtins.Signals
import WasmPackager.Shell.Builtins.Control
import WasmPackager.Shell.Builtins.Commands

namespace WasmPackager.Shell.Builtins

/-- Gives variables values that are results of expressions; the last result decides. -/
def calculate : Builtin := fun _ args => do
  let last ← args.foldlM (fun _ text => Eval.calculate text) (0 : Int64)
  return if last == 0 then 1 else 0

/-- Makes variables, in a function those of the function. -/
def declare : Builtin := fun engine args => do
  let (found, args) ← readOptions ⟨"aAfFgilnrtuxp", ""⟩ (args.length + 1) args
  let letters := found.map Prod.fst
  let _ ← if (← get).hidden.isEmpty then
      args.forM fun argument => do
        let (name, value) := binding argument
        demandName name
        if let some value := value then Eval.assign name value false
      pure (0 : UInt8)
    else declareLocal engine args
  args.forM fun argument => do
    let name := (binding argument).1
    modify fun s =>
      let v := s.variableOf name
      s.bind name { v with
        exported := v.exported || letters.contains 120
        constant := v.constant || letters.contains 114 }
  return 0

/-- What a command of the given name does. -/
def byName : List (Bytes × Builtin) :=
  [(":", succeed), (".", source), ("source", source), ("[", test "["), ("alias", aliasNames),
   ("bg", resumeJob), ("break", leaveLoops .leave), ("cd", changeDirectory),
   ("chdir", changeDirectory), ("command", command), ("continue", leaveLoops .again),
   ("declare", declare), ("echo", echo), ("eval", eval), ("exec", exec), ("exit", exit),
   ("export", markExported), ("false", failing), ("fg", resumeJob), ("getopts", getopts),
   ("hash", hash), ("jobs", jobs), ("kill", kill), ("let", calculate), ("local", declareLocal),
   ("printf", printf), ("pwd", printDirectory), ("read", read), ("readonly", markConstant),
   ("return", leaveFunction), ("set", configure), ("shift", shift), ("shopt", succeed),
   ("test", test "test"), ("times", times), ("trap", trap), ("true", succeed), ("type", type),
   ("typeset", declare), ("ulimit", ulimit), ("umask", umask), ("unalias", unalias),
   ("unset", unset), ("wait", wait)].map fun (name, b) => (ascii name, b)

def named (name : Bytes) : Builtin := (byName.lookup name).getD succeed

end WasmPackager.Shell.Builtins
