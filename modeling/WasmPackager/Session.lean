/-
# `Session` — steps that can fail, on a host, under the eyes of a logger

A step of the packager may look at and change the host, hand notes to a
logger, run commands, and fail.  What it did before it failed stays done.
Every command handed to a runner is kept in the session, in order.
-/
import WasmPackager.Command.Launch
import WasmPackager.Report.Logger

namespace WasmPackager

/-- What the steps of a run share. -/
structure Session where
  host : Host
  /-- The logger, if there is one. -/
  log : Option Logger
  /-- The commands handed to the runner so far, first one first. -/
  calls : List Command

/-- A step that gives an `α` or fails. -/
abbrev Step (α : Type) := ExceptT Failure (StateM Session) α

namespace Step

/-- What a step gives and the session it leaves. -/
def on {α : Type} (step : Step α) (session : Session) : Except Failure α × Session :=
  StateT.run (ExceptT.run step) session

/-- Hands a note to the logger. -/
def note (message : Bytes) : Step Unit :=
  modify fun s => { s with log := s.log.map (·.note message) }

/-- Hands notes to the logger if it writes notes at all. -/
def noteAll (messages : List Bytes) : Step Unit := do
  if (← get).log.any (·.verbose) then messages.forM note

/-- A step that only computes. -/
def ofExcept {α : Type} (result : Except Failure α) : Step α := ExceptT.mk (pure result)

/-- A step that looks at the host. -/
def looking {α : Type} (look : Host → Except Failure α) : Step α := do
  ofExcept (look (← get).host)

/-- A step that changes the host. -/
def changing {α : Type} (change : Host → Except Failure α × Host) : Step α := do
  let s ← get
  let (result, host) := change s.host
  set { s with host }
  ofExcept result

/-- Keeps a command that is handed to the runner. -/
def record (c : Command) : Step Unit := modify fun s => { s with calls := s.calls ++ [c] }

/-- Runs a command and fails unless it succeeds. -/
def execute (runner : Runner) (c : Command) : Step Unit := do
  record c
  let completion ← changing (runner c)
  if completion.success then return () else throw (.childFailed c completion.exitCode)

/-! ## What a step gives -/

section

variable {α β : Type}

@[simp] theorem on_pure (a : α) (s : Session) : (pure a : Step α).on s = (.ok a, s) := rfl

@[simp] theorem on_throw (f : Failure) (s : Session) :
    (throw f : Step α).on s = (.error f, s) := rfl

theorem on_bind (step : Step α) (next : α → Step β) (s : Session) :
    (step >>= next).on s =
      match step.on s with
      | (.ok a, s) => (next a).on s
      | (.error f, s) => (.error f, s) := by
  simp only [on, ExceptT.run_bind, StateT.run_bind]
  rcases StateT.run (ExceptT.run step) s with ⟨_ | _, _⟩ <;> rfl

@[simp] theorem on_note (m : Bytes) (s : Session) :
    (note m).on s = (.ok (), { s with log := s.log.map (·.note m) }) := rfl

@[simp] theorem on_ofExcept (r : Except Failure α) (s : Session) : (ofExcept r).on s = (r, s) := rfl

@[simp] theorem on_looking (look : Host → Except Failure α) (s : Session) :
    (looking look).on s = (look s.host, s) := rfl

@[simp] theorem on_changing (change : Host → Except Failure α × Host) (s : Session) :
    (changing change).on s = ((change s.host).1, { s with host := (change s.host).2 }) := rfl

@[simp] theorem on_record (c : Command) (s : Session) :
    (record c).on s = (.ok (), { s with calls := s.calls ++ [c] }) := rfl

theorem on_execute (runner : Runner) (c : Command) (s : Session) :
    (execute runner c).on s =
      match runner c s.host with
      | (.error f, h) => (.error f, { s with host := h, calls := s.calls ++ [c] })
      | (.ok x, h) =>
        (if x.success then .ok () else .error (.childFailed c x.exitCode),
          { s with host := h, calls := s.calls ++ [c] }) := by
  simp only [execute, on_bind, on_record, on_changing]
  rcases runner c s.host with ⟨_ | x, h⟩
  · rfl
  · by_cases hx : x.success <;> simp [hx]

end

end Step
end WasmPackager
