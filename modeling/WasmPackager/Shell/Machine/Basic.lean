/-
# `Shell.Machine.Basic` — processes at work on a file system

What a child of the packager can see and change: the file system, the table of
open files, and what a process has for itself, which is its working directory,
its streams, its environment and the mask of its permissions.

One process acts at a time.  A process that starts another one waits for it
and finds the machine as the other one left it, apart from what it has for
itself.  Processes that run side by side are run one after the other: of a
pipeline the producer first, and a job in the background when somebody waits
for it.
-/
import WasmPackager.Command.Launch

namespace WasmPackager

/-- A file that was opened, with the place where the next byte is read or written.  For a queue
the place is the number of writes that were made. -/
structure OpenFile where
  inode : InodeNumber
  position : Nat
  reads : Bool
  writes : Bool
  /-- Everything is written behind what is there. -/
  appends : Bool
deriving DecidableEq

/-- A signal that comes at some time. -/
structure Deadline where
  time : Nat
  signal : Nat
  /-- It also comes to the processes that the process starts. -/
  spreads : Bool

/-- What a process has for itself. -/
structure Process where
  number : Nat
  /-- The number of the process that started it. -/
  starter : Nat
  cwd : InodeNumber
  /-- The streams, each with its place in the table of open files. -/
  streams : List (Nat × Nat)
  environment : List (Bytes × Bytes)
  /-- The permissions that new files and directories do not get. -/
  umask : Nat
  /-- The signals that do nothing to the process. -/
  ignored : List Nat
  /-- The signals that will come to it. -/
  deadlines : List Deadline
  /-- Nobody waits for the process: it gets no time to sleep. -/
  orphaned : Bool

/-- Everything that processes share, and the one that acts. -/
structure Machine where
  files : FileSystem
  opened : Array OpenFile
  acting : Process
  /-- The number that was given to a process last. -/
  lastNumber : Nat
  /-- The processes that have not ended. -/
  alive : List Nat
  /-- The signals that were sent and not yet taken notice of, with the process they are for. -/
  posted : List (Nat × Nat)

namespace Machine

/-- The host as the acting process sees it. -/
def host (m : Machine) : Host := ⟨m.files, m.acting.cwd⟩

/-- The machine with the host in another state. -/
def withHost (m : Machine) (h : Host) : Machine :=
  { m with files := h.files, acting := { m.acting with cwd := h.cwd } }

/-- The permissions a new inode gets of those that are asked for. -/
def masked (m : Machine) (mode : Nat) : Nat := mode - (mode &&& m.acting.umask)

/-- The value of an environment variable. -/
def environmentValue? (m : Machine) (name : Bytes) : Option Bytes :=
  m.acting.environment.lookup name

def assign (environment : List (Bytes × Bytes)) (name value : Bytes) : List (Bytes × Bytes) :=
  if environment.any (·.1 == name) then
    environment.map fun (n, v) => if n == name then (n, value) else (n, v)
  else environment ++ [(name, value)]

/-- A second has this many units of the clock. -/
def second : Nat := 1000000000

def later (m : Machine) (duration : Nat) : Machine :=
  { m with files := { m.files with clock := m.files.clock + duration } }

/-! ## Starting and ending processes -/

/-- A new process that has what the acting one has, and acts in its place. -/
def fork (m : Machine) : Machine :=
  let number := m.lastNumber + 1
  { m with
    lastNumber := number
    alive := number :: m.alive
    acting :=
      { m.acting with
        number
        starter := m.acting.number
        deadlines := m.acting.deadlines.filter (·.spreads) } }

/-- The acting process has ended and the given one goes on. -/
def resume (m : Machine) (p : Process) : Machine :=
  { m with acting := p, alive := m.alive.filter (· != m.acting.number) }

def post (m : Machine) (target signal : Nat) : Machine :=
  { m with posted := m.posted ++ [(target, signal)] }

/-- The first deadline that stops the acting process. -/
def nextStop (m : Machine) : Option Deadline :=
  (m.acting.deadlines.filter fun d => !m.acting.ignored.contains d.signal).foldl
    (fun first d => match first with
      | some e => if d.time < e.time then some d else some e
      | none => some d) none

/-- The deadlines of the acting process that have come. -/
def due (m : Machine) : List Deadline := m.acting.deadlines.filter (·.time ≤ m.files.clock)

/-- The signals that the acting process has not taken notice of. -/
def pending (m : Machine) : List Nat :=
  (m.posted.filter (·.1 == m.acting.number)).map Prod.snd ++ m.due.map Deadline.signal

/-- The signals for the acting process, and the machine in which it has taken notice of them. -/
def collect (m : Machine) : List Nat × Machine :=
  match m.pending with
  | [] => ([], m)
  | signals =>
    (signals, { m with
      posted := m.posted.filter (·.1 != m.acting.number)
      acting.deadlines := m.acting.deadlines.filter (m.files.clock < ·.time) })

end Machine

/-! ## Acts -/

/-- What a process does, on the machine; it can end at any time. -/
abbrev Act (α : Type) := ExceptT Fate (StateM Machine) α

namespace Act

/-- What an act gives and the machine it leaves. -/
def on {α : Type} (act : Act α) (m : Machine) : Except Fate α × Machine :=
  StateT.run (ExceptT.run act) m

def exit {α : Type} (status : UInt8) : Act α := throw (.exited status)

/-- Something that is read off the machine. -/
def looking {α : Type} (look : Machine → α) : Act α := return look (← get)

/-- A change of the host, which may be refused. -/
def changing (change : Host → Except SystemError Host) : Act (Except SystemError Unit) := do
  let m ← get
  match change m.host with
  | .ok h => set (m.withHost h); return .ok ()
  | .error cause => return .error cause

/-- How a process that does an act ends, when the act gives the status. -/
def fate (act : Act UInt8) (m : Machine) : Fate × Machine :=
  match act.on m with
  | (.ok status, m) => (.exited status, m)
  | (.error fate, m) => (fate, m)

/-- A process of its own does something; the acting one waits for its end. -/
def inChild (child : Machine → Fate × Machine) : Act Fate := do
  let m ← get
  let (fate, after) := child m.fork
  set (after.resume m.acting)
  return fate

end Act

/-- The status a shell shows for the end of a process. -/
def Fate.status : Fate → UInt8
  | .exited status => status
  | .killed signal => UInt8.ofNat (128 + signal)

end WasmPackager
