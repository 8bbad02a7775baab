/-
# `Shell.Jobs` — what runs beside a script

A job in the background is done when somebody waits for it, when time passes,
or when the shell ends.  It sees the files as they are then, but has the
streams, the variables and the working directory of the time when it was
started, and its clock starts at that time.
-/
import WasmPackager.Shell.Child

namespace WasmPackager.Shell

def nowhere : Bytes := ascii "/dev/null"

/-- The machine in which the acting process reads nothing. -/
def deaf (m : Machine) : Machine :=
  match m.openPath nowhere .read with
  | .ok (place, m) => m.redirect Machine.input place
  | .error _ => m.close Machine.input

def atTime (m : Machine) (clock : Nat) : Machine := { m with files := { m.files with clock } }

def Job.isOver (job : Job) : Bool := job.fate.isSome && job.waited

/-- The first place from `place` on that a new job can have, and the jobs without the one that had
it: a place is free if no job has it or the job that has it is over. -/
def freePlace : (fuel place : Nat) → List Job → Nat × List Job
  | 0, place, jobs => (place, jobs)
  | fuel + 1, place, jobs =>
    match jobs.find? (·.place == place) with
    | none => (place, jobs)
    | some job =>
      if job.isOver then (place, jobs.filter (·.place != place))
      else freePlace fuel (place + 1) jobs

namespace Eval

/-- What a job does that has a number, of a shell in a state. -/
def jobWork (engine : Engine) (s : State) (number : Nat) (body : Eval Unit) :
    Machine → Fate × Machine := fun m =>
  let process : Process :=
    { s.machine.acting with
      number
      starter := s.machine.acting.number
      orphaned := m.acting.orphaned
      deadlines := m.acting.deadlines
      ignored := [2, 3] ++ s.machine.acting.ignored }
  let start := deaf (atTime { m with acting := process } s.machine.files.clock)
  let (result, after) := body.on { s.detached with machine := start }
  let (fate, after) := after.conclude engine result
  (fate, atTime (after.resume m.acting) (max m.files.clock after.files.clock))

/-- Makes room for a job, as one that is over may have the place; gives the place. -/
def roomForJob : Eval Nat := do
  let s ← get
  let (place, jobs) := freePlace (s.jobs.length + 1) 1 s.jobs
  set { s with jobs }
  return place

/-- Starts a job; `alone` tells that it is a program and no part of the shell. -/
def startJob (engine : Engine) (alone : Bool) (body : Eval Unit) : Eval Unit := do
  let place ← roomForJob
  let s ← get
  let number := s.machine.lastNumber + 1
  let machine := { s.machine with lastNumber := number, alive := number :: s.machine.alive }
  let work := jobWork engine s number body
  let job : Job := ⟨number, place, alone, s.machine.files.clock, work, none, false, false⟩
  set { s with machine, lastJob := some number, jobs := s.jobs ++ [job] }

def ended (s : State) (number : Nat) (fate : Fate) (machine : Machine) : State :=
  { s with
    machine := { machine with alive := machine.alive.filter (· != number) }
    jobs := s.jobs.map fun job =>
      if job.number == number then { job with fate := some fate, unseen := true } else job }

/-- Lets a job come to its end, with signals that come to it on the way. -/
def finishJob (job : Job) (signals : List Deadline) : Eval Fate := do
  match job.fate with
  | some fate => return fate
  | none =>
    let s ← get
    let spreading := s.machine.acting.deadlines.filter (·.spreads)
    let (fate, machine) := job.work { s.machine with acting.deadlines := signals ++ spreading }
    set (ended s job.number fate { machine with acting := s.machine.acting })
    return fate

def awaitJob (job : Job) : Eval Fate := do
  let fate ← finishJob job []
  modify fun s =>
    { s.noticed with
      jobs := s.noticed.jobs.map fun other =>
        if other.number == job.number then { other with waited := true } else other }
  return fate

def awaitAll : Eval Unit := do (← get).jobs.forM fun job => do let _ ← awaitJob job

/-- Stops a job by a signal: what it has done up to now stays done. -/
def stopJob (job : Job) (signal : Nat) : Eval Unit := do
  let now := (← get).machine.files.clock
  let _ ← finishJob job [⟨now, signal, job.alone⟩]

/-- Lets the jobs do what they can do in a stretch of time, if that brings them to an end. -/
def letPass (duration : Nat) : Eval Unit := do
  (← get).jobs.forM fun job => do
    if job.fate.isNone then
      let s ← get
      let now := s.machine.files.clock
      let (fate, machine) := job.work
        { s.machine with acting.deadlines := s.machine.acting.deadlines.filter (·.spreads) }
      if machine.files.clock ≤ now + duration then
        set (ended s job.number fate (atTime { machine with acting := s.machine.acting } now))

/-- The job of a number that has not been forgotten. -/
def job? (number : Nat) : Eval (Option Job) := do
  return (← get).jobs.find? (·.number == number)

end Eval
end WasmPackager.Shell
