/-
# `Proofs.Pipeline.Notes` — what a run hands its logger

The pipeline reports progress and gives back what it failed with; it never
reports a failure itself.  `Step.Discreet` says that of a step: whatever else
it does, it hands the logger nothing but notes.  It is kept by sequencing, and
every step of a check and of a build has it (`discreet_run`).

That the logger is only told does not make it harmless yet: what a run gives
must not depend on it either.  That is read off the stages of a build, of
which there is one way through for each host (`run_unwatched`).
-/
import WasmPackager.Proofs.Pipeline.Stages

namespace WasmPackager

namespace Step

variable {α β : Type}

/-- Whatever the step does, it hands the logger nothing but notes. -/
def Discreet (step : Step α) : Prop :=
  ∀ s : Session, ∃ notes, (step.on s).2.log = (s.noted notes).log

theorem Observes.discreet {step : Step α} (h : step.Observes) : step.Discreet := by
  intro s
  obtain ⟨notes, hs⟩ := h s
  exact ⟨notes, by rw [hs]⟩

theorem discreet_pure (a : α) : (pure a : Step α).Discreet := fun s => ⟨[], by simp⟩

theorem discreet_throw (f : Failure) : (throw f : Step α).Discreet := fun s => ⟨[], by simp⟩

theorem discreet_note (m : Bytes) : (note m).Discreet := fun _ => ⟨[m], rfl⟩

theorem discreet_changing (change : Host → Except Failure α × Host) :
    (changing change).Discreet := fun s => ⟨[], by simp⟩

theorem discreet_execute (runner : Runner) (c : Command) : (execute runner c).Discreet := by
  intro s
  exact ⟨[], by simp [Pipeline.on_execute_launched]⟩

theorem discreet_bind {step : Step α} {next : α → Step β} (h : step.Discreet)
    (hnext : ∀ a, (next a).Discreet) : (step >>= next).Discreet := by
  intro s
  obtain ⟨first, hfirst⟩ := h s
  rw [on_bind]
  rcases hon : step.on s with ⟨_ | a, left⟩
  · exact ⟨first, by rw [← hfirst, hon]⟩
  · obtain ⟨second, hsecond⟩ := hnext a left
    refine ⟨first ++ second, ?_⟩
    have hleft : left.log = (s.noted first).log := by rw [← hfirst, hon]
    rw [Session.noted_append]
    simp only [hsecond, Session.noted, hleft]

end Step

namespace Pipeline

open Step

theorem discreet_artifact (found : ArtifactSet) (kind : ArtifactKind) (dir : Bytes) :
    (artifact found kind dir).Discreet := by
  rw [artifact]
  split
  · exact discreet_pure _
  · exact discreet_throw _

theorem discreet_adapt (text file : Bytes) : (adapt text file).Discreet :=
  fun s => ⟨Loader.expectations, by rw [on_adapt]⟩

theorem discreet_package (c : Config) : (package c).Discreet := by
  refine discreet_bind (Artifact.observes_scan c.buildDir .standard).discreet fun found => ?_
  refine discreet_bind (discreet_artifact found .binaryModule c.buildDir) fun binaryPath => ?_
  refine discreet_bind (discreet_artifact found .loaderScript c.buildDir) fun scriptPath => ?_
  refine discreet_bind (discreet_note _) fun _ => ?_
  refine discreet_bind (observes_looking _).discreet fun binary => ?_
  refine discreet_bind (discreet_note _) fun _ => ?_
  refine discreet_bind (observes_looking _).discreet fun text => ?_
  refine discreet_bind (discreet_adapt text scriptPath) fun script => ?_
  exact discreet_bind (discreet_note _) fun _ => discreet_changing _

theorem discreet_runNoted (runner : Runner) (command : Command) (finished : Bytes) :
    (runNoted runner command finished).Discreet := by
  refine discreet_bind (discreet_note _) fun _ => ?_
  exact discreet_bind (discreet_execute runner command) fun _ => discreet_note _

theorem discreet_run (runner : Runner) (c : Config) (mode : Mode) :
    (run runner c mode).Discreet := by
  cases mode with
  | check => exact discreet_bind (discreet_note _) fun _ => discreet_runNoted runner _ _
  | build =>
      refine discreet_bind ?_ fun _ => discreet_pure ()
      refine discreet_bind (discreet_note _) fun _ => ?_
      exact discreet_bind (discreet_runNoted runner _ _) fun _ => discreet_package c

def command (c : Config) : Mode → Command
  | .check => c.checkCommand
  | .build => c.buildCommand

theorem calls_run (runner : Runner) (c : Config) (mode : Mode) (s : Session) :
    ((run runner c mode).on s).2.calls = s.calls ++ [command c mode] := by
  cases mode with
  | check => exact (on_check runner c s).2.2
  | build =>
      rw [on_run_build]
      exact (build_ends runner c s).2

/-- What a run gives, and what it leaves of the host, do not depend on who watches or on what was
run before. -/
theorem run_unwatched (runner : Runner) (c : Config) (mode : Mode) {s s' : Session}
    (h : s.host = s'.host) :
    ((run runner c mode).on s).1 = ((run runner c mode).on s').1 ∧
      ((run runner c mode).on s).2.host = ((run runner c mode).on s').2.host := by
  cases mode with
  | check =>
      obtain ⟨hresult, hhost, -⟩ := on_check runner c s
      obtain ⟨hresult', hhost', -⟩ := on_check runner c s'
      simp only [run, hresult, hhost, hresult', hhost', h, and_self]
  | build =>
      obtain ⟨⟨stage, hends⟩, -⟩ := build_ends runner c s
      obtain ⟨⟨stage', hends'⟩, -⟩ := build_ends runner c s'
      rw [h] at hends
      obtain ⟨-, hresult, hhost⟩ := hends'.unique hends
      rw [on_run_build, on_run_build, hresult, hhost]
      exact ⟨rfl, rfl⟩

end Pipeline
end WasmPackager
