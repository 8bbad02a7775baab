/-
# `Shell.Child` — parts of a script that are done by a process of their own

A shell gives a part of its script to a copy of itself, which knows everything
the shell knows.  What the copy learns is lost when it ends; what it did to the
file system stays.
-/
import WasmPackager.Shell.Source

namespace WasmPackager.Shell

namespace State

/-- How a shell ends that has nothing more to do. -/
def ending (s : State) : Except Stop Unit → Fate
  | .error (.killed signal) => .killed signal
  | .error (.replaced fate) => fate
  | .ok () | .error .exit | .error .mistake | .error (.leave _) | .error (.again _)
  | .error .finish => .exited s.status

/-- Does the jobs that nobody waited for. -/
def abandonJobs (s : State) : Machine :=
  s.jobs.foldl (fun m job =>
    match job.fate with
    | some _ => m
    | none =>
      let (_, after) := job.work
        { m with
          acting.orphaned := true
          acting.deadlines := m.acting.deadlines.filter (·.spreads) }
      { after with acting := m.acting }) s.machine

/-- The state of a shell that begins to do what is to be done at its end. -/
def parting (s : State) : State :=
  { s.setTrap 0 none with loops := 0, calls := 0, command := none }

/-- Lets a shell come to its end: it does what was put off to then.  The status stays, unless
that says otherwise. -/
def conclude (engine : Engine) (s : State) (result : Except Stop Unit) : Fate × Machine :=
  match result, (s.trap? 0).getD [] with
  | .error (.killed signal), _ => (.killed signal, s.abandonJobs)
  | .error (.replaced fate), _ => (fate, s.abandonJobs)
  | result, [] => (s.ending result, s.abandonJobs)
  | _, action =>
    let (result, after) := (Eval.text engine false action).on s.parting
    let after := match result with
      | .error .exit | .error .mistake => after
      | _ => { after with status := s.status }
    (after.ending result, after.abandonJobs)

end State

namespace Eval

/-- Does something in a copy of the shell that was prepared for it; gives how the copy ends. -/
def inChild (engine : Engine) (prepare : State → State) (body : Eval Unit) : Eval Fate := do
  let s ← get
  let (result, after) := body.on (prepare { s.detached with machine := s.machine.fork })
  let (fate, machine) := after.conclude engine result
  set { s.noticed with machine := machine.resume s.machine.acting }
  return fate

/-- The state in which a stream leads to a place in the table of open files. -/
def leading (stream place : Nat) (s : State) : State :=
  { s with machine := s.machine.redirect stream place }

/-- A new pipe: the place to read from and the place to write to. -/
def pipe : Eval (Nat × Nat) := do
  let s ← get
  let (ends, machine) := s.machine.pipe
  set { s with machine }
  return ends

/-- What can be read from a place in the table of open files. -/
def drain (place : Nat) : Eval Bytes := do
  let m := (← get).machine
  match m.opened[place]? with
  | some file => return (m.ahead file).toOption.getD []
  | none => return []

/-- The text without the line feeds at its end. -/
def withoutLineFeeds (s : Bytes) : Bytes := (s.reverse.dropWhile (· == 10)).reverse

/-- The output of a script, as it takes the script's place: without zero bytes, and without the
line feeds at its end. -/
def capture (engine : Engine) (script : Option Script) : Eval Bytes := do
  let (reading, writing) ← pipe
  let fate ← inChild engine (leading Machine.output writing) (match script with
    | some script => engine.evaluate script false
    | none => setStatus 0)
  modify ({ · with substituted := fate.status })
  return withoutLineFeeds ((← drain reading).filter (· != 0))

end Eval
end WasmPackager.Shell
