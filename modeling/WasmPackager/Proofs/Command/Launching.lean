/-
# `Proofs.Command.Launching` — not started, failed and done are told apart

Of a child its parent sees two things, what arrives on a pipe and a wait
status.  Three predicates say, without either, what can become of a command
that has a name: its directory cannot be entered (`Barred`), the program cannot
be executed there (`Refused`), or it ran and met its fate (`Ran`).  One of them
holds of every command (`barred_or_refused_or_ran`), and each has its own
result of `spawn`, so a result tells which of them held.

That a child which gave up exits with 127 does no harm: the parent does not
look at the status of a child that left a notice, and one that ran leaves none.
-/
import WasmPackager.Proofs.Pipeline.Steps

namespace WasmPackager

/-! ## Fates and their codes -/

/-- What is reported of a child and how it ended agree: the report is of a success if the code is
zero, the code is zero if the child exited with 0, and it is the status byte, or 128 and the
signal. -/
structure Completion.Tells (x : Completion) (fate : Fate) : Prop where
  success_iff : x.success = true ↔ x.exitCode = 0
  exitCode_eq_zero_iff : x.exitCode = 0 ↔ fate = .exited 0
  of_exited : ∀ status, fate = .exited status → x.exitCode = status.toNat
  of_killed : ∀ signal, fate = .killed signal → x.exitCode = 128 + signal

theorem Fate.completion_exitCode_eq_zero_iff (fate : Fate) :
    fate.completion.exitCode = 0 ↔ fate = .exited 0 := by
  cases fate with
  | exited status =>
      rw [completion, Fate.exited.injEq, Int.natCast_eq_zero, ← UInt8.toNat_inj]
      rfl
  | killed signal =>
      simp only [completion, reduceCtorEq, iff_false]
      omega

theorem Fate.completion_success_iff (fate : Fate) :
    fate.completion.success = true ↔ fate = .exited 0 := by
  cases fate <;> simp [completion]

theorem Fate.completion_tells (fate : Fate) : fate.completion.Tells fate where
  success_iff := by rw [completion_success_iff, completion_exitCode_eq_zero_iff]
  exitCode_eq_zero_iff := completion_exitCode_eq_zero_iff fate
  of_exited := by
    rintro status rfl
    rfl
  of_killed := by
    rintro signal rfl
    rfl

namespace Launch

/-! ## What becomes of a command -/

/-- Programs end in ways that a wait status has room for. -/
def Kernel.Fits (k : Kernel) : Prop :=
  ∀ (h : Host) (program : Bytes) (argv : List Bytes) (ending : Ending),
    k.execute h program argv = .ok ending → ending.fate.Fits

/-- The child is in the directory of the command, which leaves it with the host `inside`. -/
inductive Enters (k : Kernel) (c : Command) (h : Host) : (inside : Host) → Prop
  | here : c.workingDir = [] → Enters k c h h
  | there {inside : Host} : c.workingDir ≠ [] → k.enter h c.workingDir = .ok inside →
      Enters k c h inside

/-- The child cannot enter the directory of the command. -/
def Barred (k : Kernel) (c : Command) (h : Host) (reason : ErrorNumber) : Prop :=
  c.workingDir ≠ [] ∧ k.enter h c.workingDir = .error reason

/-- The child is where it should be, and the program cannot be executed. -/
def Refused (k : Kernel) (c : Command) (h : Host) (reason : ErrorNumber) : Prop :=
  ∃ inside, Enters k c h inside ∧
    k.execute inside c.program (c.program :: c.args) = .error reason

/-- The program ran, and this is how it ended. -/
def Ran (k : Kernel) (c : Command) (h : Host) (fate : Fate) : Prop :=
  ∃ inside ending, Enters k c h inside ∧
    k.execute inside c.program (c.program :: c.args) = .ok ending ∧ ending.fate = fate

variable {k : Kernel} {c : Command} {h : Host}

theorem barred_or_refused_or_ran (k : Kernel) (c : Command) (h : Host) :
    (∃ reason, Barred k c h reason) ∨ (∃ reason, Refused k c h reason) ∨
      ∃ fate, Ran k c h fate := by
  have of_enters : ∀ inside, Enters k c h inside →
      (∃ reason, Refused k c h reason) ∨ ∃ fate, Ran k c h fate := by
    intro inside henters
    cases hexecute : k.execute inside c.program (c.program :: c.args) with
    | error reason => exact .inl ⟨reason, inside, henters, hexecute⟩
    | ok ending => exact .inr ⟨ending.fate, inside, ending, henters, hexecute, rfl⟩
  by_cases hdir : c.workingDir = []
  · exact .inr (of_enters h (.here hdir))
  · cases henter : k.enter h c.workingDir with
    | error reason => exact .inl ⟨reason, hdir, henter⟩
    | ok inside => exact .inr (of_enters inside (.there hdir henter))

/-! ## What the parent makes of it -/

theorem child_of_enters {inside : Host} (henters : Enters k c h inside) :
    child k c h =
      match k.execute inside c.program (c.program :: c.args) with
      | .error reason => gaveUp h .executing reason
      | .ok ending => ⟨[], .ofFate ending.dumped ending.fate, ending.files⟩ := by
  cases henters with
  | here hdir => rw [child, hdir]; rfl
  | there hdir henter =>
      have : c.workingDir.isEmpty = false := List.isEmpty_eq_false_iff.mpr hdir
      rw [child, this, henter]
      rfl

/-- A notice is all the parent looks at. -/
theorem verdict_gaveUp (c : Command) (h : Host) (stage : Stage) (reason : ErrorNumber) :
    verdict c (gaveUp h stage reason) =
      .error (.notStarted c.program
        (match stage with
        | .entering => .workingDirectory c.workingDir reason
        | .executing => .execution reason)) := by
  rw [verdict, gaveUp, Notice.ofBytes?_bytes]
  cases stage <;> rfl

theorem spawn_of_unnamed (k : Kernel) (h : Host) (hname : c.program = []) :
    (spawn k c h).1 = .error (.notStarted c.program .emptyName) := by
  rw [spawn, hname]
  rfl

theorem spawn_of_named (k : Kernel) (h : Host) (hname : c.program ≠ []) :
    (spawn k c h).1 = verdict c (child k c h) := by
  have : c.program.isEmpty = false := List.isEmpty_eq_false_iff.mpr hname
  rw [spawn, this]
  rfl

theorem spawn_of_barred {reason : ErrorNumber} (hname : c.program ≠ [])
    (hbarred : Barred k c h reason) :
    (spawn k c h).1 = .error (.notStarted c.program (.workingDirectory c.workingDir reason)) := by
  have hdir : c.workingDir.isEmpty = false := List.isEmpty_eq_false_iff.mpr hbarred.1
  have left : child k c h = gaveUp h .entering reason := by
    rw [child, hdir, hbarred.2]
    rfl
  rw [spawn_of_named k h hname, left, verdict_gaveUp]

theorem spawn_of_refused {reason : ErrorNumber} (hname : c.program ≠ [])
    (hrefused : Refused k c h reason) :
    (spawn k c h).1 = .error (.notStarted c.program (.execution reason)) := by
  obtain ⟨inside, henters, hexecute⟩ := hrefused
  rw [spawn_of_named k h hname, child_of_enters henters, hexecute, verdict_gaveUp]

theorem spawn_of_ran {fate : Fate} (hk : k.Fits) (hname : c.program ≠ [])
    (hran : Ran k c h fate) : (spawn k c h).1 = .ok fate.completion := by
  obtain ⟨inside, ending, henters, hexecute, rfl⟩ := hran
  have hfits : ending.fate.Fits := hk _ _ _ _ hexecute
  rw [spawn_of_named k h hname, child_of_enters henters, hexecute]
  simp only [verdict, Notice.ofBytes?_nil, WaitStatus.completion_ofFate hfits]

theorem spawn_eq_error_iff (hk : k.Fits) {f : Failure} :
    (spawn k c h).1 = .error f ↔
      (c.program = [] ∧ f = .notStarted c.program .emptyName) ∨
      (c.program ≠ [] ∧ ∃ reason, Barred k c h reason ∧
        f = .notStarted c.program (.workingDirectory c.workingDir reason)) ∨
      (c.program ≠ [] ∧ ∃ reason, Refused k c h reason ∧
        f = .notStarted c.program (.execution reason)) := by
  constructor
  · intro hspawn
    by_cases hname : c.program = []
    · rw [spawn_of_unnamed k h hname] at hspawn
      exact .inl ⟨hname, (Except.error.inj hspawn).symm⟩
    · rcases barred_or_refused_or_ran k c h with ⟨reason, hb⟩ | ⟨reason, hr⟩ | ⟨fate, hran⟩
      · rw [spawn_of_barred hname hb] at hspawn
        exact .inr (.inl ⟨hname, reason, hb, (Except.error.inj hspawn).symm⟩)
      · rw [spawn_of_refused hname hr] at hspawn
        exact .inr (.inr ⟨hname, reason, hr, (Except.error.inj hspawn).symm⟩)
      · rw [spawn_of_ran hk hname hran] at hspawn
        cases hspawn
  · rintro (⟨hname, rfl⟩ | ⟨hname, reason, hb, rfl⟩ | ⟨hname, reason, hr, rfl⟩)
    · exact spawn_of_unnamed k h hname
    · exact spawn_of_barred hname hb
    · exact spawn_of_refused hname hr

theorem spawn_eq_ok_iff (hk : k.Fits) {x : Completion} :
    (spawn k c h).1 = .ok x ↔ c.program ≠ [] ∧ ∃ fate, Ran k c h fate ∧ x = fate.completion := by
  constructor
  · intro hspawn
    have hname : c.program ≠ [] := by
      intro hname
      rw [spawn_of_unnamed k h hname] at hspawn
      cases hspawn
    refine ⟨hname, ?_⟩
    rcases barred_or_refused_or_ran k c h with ⟨reason, hb⟩ | ⟨reason, hr⟩ | ⟨fate, hran⟩
    · rw [spawn_of_barred hname hb] at hspawn
      cases hspawn
    · rw [spawn_of_refused hname hr] at hspawn
      cases hspawn
    · rw [spawn_of_ran hk hname hran] at hspawn
      exact ⟨fate, hran, (Except.ok.inj hspawn).symm⟩
  · rintro ⟨hname, fate, hran, rfl⟩
    exact spawn_of_ran hk hname hran

theorem category_of_spawn (hk : k.Fits) {f : Failure} (hspawn : (spawn k c h).1 = .error f) :
    f.category = .spawn := by
  rcases (spawn_eq_error_iff hk).mp hspawn with ⟨-, rfl⟩ | ⟨-, reason, -, rfl⟩ | ⟨-, reason, -, rfl⟩
  all_goals rfl

end Launch

/-! ## Asking for a success -/

namespace Pipeline

variable {runner : Runner} {c : Command} {h : Host}

theorem launched_eq_ok_iff :
    (launched runner c h).1 = .ok () ↔ ∃ x, (runner c h).1 = .ok x ∧ x.success = true := by
  rw [launched]
  rcases runner c h with ⟨f | x, after⟩
  · simp
  · cases hx : x.success <;> simp [hx]

theorem launched_eq_error_iff {f : Failure} :
    (launched runner c h).1 = .error f ↔
      (runner c h).1 = .error f ∨
      ∃ x, (runner c h).1 = .ok x ∧ x.success = false ∧ .childFailed c x.exitCode = f := by
  rw [launched]
  rcases runner c h with ⟨f' | x, after⟩
  · simp
  · cases hx : x.success <;> simp [hx]

end Pipeline

namespace Launch

/-- A command is not started if it has no name, if its directory cannot be entered, which is what
is said then whatever the program, or if the program cannot be executed.  Of any other it is
reported how it ended, be it with the status of a child that gave up.  Asking for a success gets
one from a program that exited with 0 and from no other; a failure of one that ran carries the
code of its end and names it, and a failure to start is handed on as it is. -/
theorem spawn_tells_apart (k : Kernel) (hk : k.Fits) (c : Command) (s : Session) :
    ((∃ f, (spawn k c s.host).1 = .error f ∧ f.category = .spawn) ↔
      c.program = [] ∨ (∃ reason, Barred k c s.host reason) ∨
        ∃ reason, Refused k c s.host reason) ∧
    (∀ f, (spawn k c s.host).1 = .error f → f.category = .spawn) ∧
    (∀ reason, c.program ≠ [] → Barred k c s.host reason →
      (spawn k c s.host).1 =
        .error (.notStarted c.program (.workingDirectory c.workingDir reason))) ∧
    (∀ x, (spawn k c s.host).1 = .ok x →
      c.program ≠ [] ∧ ∃ fate, Ran k c s.host fate ∧ x.Tells fate) ∧
    (∀ fate, c.program ≠ [] → Ran k c s.host fate →
      ∃ x, (spawn k c s.host).1 = .ok x ∧ x.Tells fate) ∧
    (((Step.execute (spawn k) c).on s).1 = .ok () ↔
      c.program ≠ [] ∧ Ran k c s.host (.exited 0)) ∧
    (∀ f, ((Step.execute (spawn k) c).on s).1 = .error f →
      (f.category = .spawn ∧ (spawn k c s.host).1 = .error f) ∨
      (f.category = .execution ∧ ∃ x, (spawn k c s.host).1 = .ok x ∧ x.exitCode ≠ 0 ∧
        f.exitCode? = some x.exitCode ∧
        f.message = ascii "'" ++ c.describe ++ ascii "' exited with a non-zero exit code: " ++
          Bytes.ofInt x.exitCode)) ∧
    (∀ f, (spawn k c s.host).1 = .error f →
      ((Step.execute (spawn k) c).on s).1 = .error f) := by
  have executed :
      ((Step.execute (spawn k) c).on s).1 = (Pipeline.launched (spawn k) c s.host).1 := by
    rw [Pipeline.on_execute_launched]
  rw [executed]
  refine ⟨⟨?_, ?_⟩, fun f => category_of_spawn hk, fun reason => spawn_of_barred, ?_, ?_, ⟨?_, ?_⟩,
    ?_, fun f hf => Pipeline.launched_eq_error_iff.mpr (.inl hf)⟩
  · rintro ⟨f, hf, -⟩
    rcases (spawn_eq_error_iff hk).mp hf with
      ⟨hname, -⟩ | ⟨-, reason, hb, -⟩ | ⟨-, reason, hr, -⟩
    · exact .inl hname
    · exact .inr (.inl ⟨reason, hb⟩)
    · exact .inr (.inr ⟨reason, hr⟩)
  · intro hwhy
    by_cases hname : c.program = []
    · exact ⟨_, spawn_of_unnamed k s.host hname, rfl⟩
    · rcases hwhy with hunnamed | ⟨reason, hb⟩ | ⟨reason, hr⟩
      · exact absurd hunnamed hname
      · exact ⟨_, spawn_of_barred hname hb, rfl⟩
      · exact ⟨_, spawn_of_refused hname hr, rfl⟩
  · intro x hx
    obtain ⟨hname, fate, hran, rfl⟩ := (spawn_eq_ok_iff hk).mp hx
    exact ⟨hname, fate, hran, fate.completion_tells⟩
  · intro fate hname hran
    exact ⟨_, spawn_of_ran hk hname hran, fate.completion_tells⟩
  · intro hok
    obtain ⟨x, hx, hsuccess⟩ := Pipeline.launched_eq_ok_iff.mp hok
    obtain ⟨hname, fate, hran, rfl⟩ := (spawn_eq_ok_iff hk).mp hx
    have hfate : fate = .exited 0 := fate.completion_success_iff.mp hsuccess
    exact ⟨hname, hfate ▸ hran⟩
  · rintro ⟨hname, hran⟩
    exact Pipeline.launched_eq_ok_iff.mpr ⟨_, spawn_of_ran hk hname hran, rfl⟩
  · intro f hf
    rcases Pipeline.launched_eq_error_iff.mp hf with hspawn | ⟨x, hx, hfailed, rfl⟩
    · exact .inl ⟨category_of_spawn hk hspawn, hspawn⟩
    · obtain ⟨-, fate, -, rfl⟩ := (spawn_eq_ok_iff hk).mp hx
      have hcode : fate.completion.exitCode ≠ 0 := fun h0 =>
        absurd (fate.completion_tells.success_iff.mpr h0) (by simp [hfailed])
      exact .inr ⟨rfl, _, hx, hcode, rfl, rfl⟩

/-- A system in which one directory can be entered, where a program is missing, one is ended by a
signal and leaves a dump, and all others exit with the status of a child that gave up. -/
def sampleKernel : Kernel where
  enter h dir := if dir = ascii "/p" then .ok h else .error SystemError.notFound.number
  execute h program _ :=
    if program = ascii "missing" then .error SystemError.notFound.number
    else if program = ascii "crash" then .ok ⟨.killed 11, true, h.files⟩
    else .ok ⟨.exited gaveUpStatus, false, h.files⟩

theorem sampleKernel_fits : sampleKernel.Fits := by
  intro h program argv ending hexecute
  simp only [sampleKernel] at hexecute
  split at hexecute
  · cases hexecute
  · split at hexecute
    · cases hexecute
      exact ⟨by decide, by decide⟩
    · cases hexecute
      trivial

/-- A program that crashed and one that exits with 127 ran; a missing one in a missing directory
is not started for the directory. -/
theorem spawn_tells_apart_sample :
    let s : Session := ⟨⟨.empty, FileSystem.root⟩, none, []⟩
    let crashing : Command := ⟨ascii "crash", [], ascii "/p"⟩
    let failing : Command := ⟨ascii "tool", [], []⟩
    let lost : Command := ⟨ascii "missing", [], ascii "/q"⟩
    sampleKernel.Fits ∧
      (∃ x, (spawn sampleKernel crashing s.host).1 = .ok x ∧ x.Tells (.killed 11)) ∧
      (∃ x, (spawn sampleKernel failing s.host).1 = .ok x ∧ x.Tells (.exited 127)) ∧
      (spawn sampleKernel lost s.host).1 =
        .error (.notStarted lost.program (.workingDirectory lost.workingDir 2)) := by
  intro s crashing failing lost
  have entered : Enters sampleKernel crashing s.host s.host := .there (by decide) rfl
  have crashed : Ran sampleKernel crashing s.host (.killed 11) :=
    ⟨_, ⟨.killed 11, true, _⟩, entered, rfl, rfl⟩
  have failed : Ran sampleKernel failing s.host (.exited 127) :=
    ⟨_, ⟨.exited 127, false, _⟩, .here rfl, rfl, rfl⟩
  have barred : Barred sampleKernel lost s.host 2 := ⟨by decide, rfl⟩
  obtain ⟨-, -, -, -, ran, -⟩ := spawn_tells_apart sampleKernel sampleKernel_fits crashing s
  obtain ⟨-, -, -, -, ran', -⟩ := spawn_tells_apart sampleKernel sampleKernel_fits failing s
  obtain ⟨-, -, unstarted, -⟩ := spawn_tells_apart sampleKernel sampleKernel_fits lost s
  exact ⟨sampleKernel_fits, ran _ (by decide) crashed, ran' _ (by decide) failed,
    unstarted _ (by decide) barred⟩

end Launch
end WasmPackager
