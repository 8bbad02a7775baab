/-
# `Proofs.Pipeline.Verbosity` — who watches a run does not matter to it

A logger can be verbose or quiet, and there may be none.  `Session.watched f`
is the session in which whoever watches was replaced by means of `f`, and a
step is `Unswayed` by the replacement if it can be made before the step as
well as after it, with the same result and the same session to show for it.
This is asked of replacements that carry a note handed to the old logger over
to the new one (`CarriesNotes`), and it is kept by sequencing, so every step of
the pipeline has it because its parts have it (`unswayed_run`).

Two replacements matter: a quiet logger in the place of a verbose one, which
has written everything but the notes (`Logger.quieted`), and nobody.  A step
that is unswayed by both is `Impartial`.

It is not enough that a step hands its logger nothing but notes
(`Step.Discreet`): it could still look at the logger and do something else.
-/
import WasmPackager.Proofs.Pipeline.Steps

namespace WasmPackager

namespace Logger

/-- What a quiet logger is where this one is: it has counted the same problems and written the
same records but for the notes. -/
def quieted (log : Logger) : Logger :=
  ⟨false, log.written.filter (·.severity != .note), log.problems⟩

theorem quieted_note (log : Logger) (message : Bytes) :
    (log.note message).quieted = log.quieted.note message := by
  have quiet : log.quieted.verbose = false := rfl
  rw [note_of_quiet quiet]
  cases h : log.verbose <;> simp [note, report, h, quieted]

end Logger

namespace Session

/-- The session with whoever watches replaced. -/
def watched (f : Option Logger → Option Logger) (s : Session) : Session := { s with log := f s.log }

def quieted (s : Session) : Session := { s with log := s.log.map Logger.quieted }

def unwatched (s : Session) : Session := { s with log := none }

end Session

/-- Notes handed to the logger before it is replaced are as good as notes handed to the one in
its place. -/
def CarriesNotes (f : Option Logger → Option Logger) : Prop :=
  ∀ log message, f (log.map (·.note message)) = (f log).map (·.note message)

theorem carriesNotes_quieted : CarriesNotes (Option.map Logger.quieted) := by
  intro log message
  cases log with
  | none => rfl
  | some log => exact congrArg some (log.quieted_note message)

theorem carriesNotes_none : CarriesNotes fun _ => none := fun _ _ => rfl

theorem Session.watched_noted {f : Option Logger → Option Logger} (hf : CarriesNotes f)
    (s : Session) (notes : List Bytes) : (s.noted notes).watched f = (s.watched f).noted notes := by
  induction notes generalizing s with
  | nil => simp
  | cons m notes ih =>
      have first : (s.noted [m]).watched f = (s.watched f).noted [m] :=
        congrArg (Session.mk s.host · s.calls) (hf s.log m)
      rw [← List.singleton_append, Session.noted_append, ih, first, ← Session.noted_append]

namespace Step

section

variable {α β : Type} {f : Option Logger → Option Logger}

/-- The step does the same whether whoever watches is replaced before it or after it. -/
def Unswayed (f : Option Logger → Option Logger) (step : Step α) : Prop :=
  ∀ s : Session, step.on (s.watched f) = ((step.on s).1, (step.on s).2.watched f)

/-- A quiet logger in the place of a verbose one changes nothing about a step but that its notes
are not written, and no logger at all changes nothing but that nothing is written. -/
structure Impartial (step : Step α) : Prop where
  quieted : ∀ s : Session, step.on s.quieted = ((step.on s).1, (step.on s).2.quieted)
  unwatched : ∀ s : Session, step.on s.unwatched = ((step.on s).1, (step.on s).2.unwatched)

theorem impartial_of_unswayed {step : Step α} (h : ∀ {f}, CarriesNotes f → step.Unswayed f) :
    step.Impartial :=
  ⟨h carriesNotes_quieted, h carriesNotes_none⟩

/-! ## Parts -/

theorem unswayed_pure (a : α) : (pure a : Step α).Unswayed f := fun _ => rfl

theorem unswayed_throw (failure : Failure) : (throw failure : Step α).Unswayed f := fun _ => rfl

theorem unswayed_ofExcept (r : Except Failure α) : (ofExcept r).Unswayed f := fun _ => rfl

theorem unswayed_looking (look : Host → Except Failure α) : (looking look).Unswayed f :=
  fun _ => rfl

theorem unswayed_changing (change : Host → Except Failure α × Host) :
    (changing change).Unswayed f := fun _ => rfl

theorem unswayed_execute (runner : Runner) (c : Command) : (execute runner c).Unswayed f := by
  intro s
  rw [Pipeline.on_execute_launched, Pipeline.on_execute_launched]
  rfl

/-- A step that leaves notes only is as good as the notes it leaves. -/
theorem unswayed_of_noted {step : Step α} (hf : CarriesNotes f) {r : Except Failure α}
    {notes : List Bytes} (h : ∀ s, step.on s = (r, s.noted notes)) : step.Unswayed f := by
  intro s
  rw [h, h, Session.watched_noted hf]

theorem unswayed_note (hf : CarriesNotes f) (m : Bytes) : (note m).Unswayed f :=
  unswayed_of_noted hf (on_note_noted m)

theorem unswayed_forM_note (hf : CarriesNotes f) {γ : Type} (items : List γ) (message : γ → Bytes) :
    (items.forM fun x => note (message x)).Unswayed f :=
  unswayed_of_noted hf (on_forM_note items message)

theorem unswayed_bind {step : Step α} {next : α → Step β} (h : step.Unswayed f)
    (hnext : ∀ a, (next a).Unswayed f) : (step >>= next).Unswayed f := by
  intro s
  rw [on_bind, on_bind, h]
  rcases step.on s with ⟨_ | a, left⟩
  · rfl
  · exact hnext a left

theorem unswayed_onHost {choose : Host → Step α} (h : ∀ host, (choose host).Unswayed f) :
    (get >>= fun s : Session => choose s.host : Step α).Unswayed f :=
  fun s => h s.host s

end

end Step

open Step

variable {f : Option Logger → Option Logger}

theorem Artifact.unswayed_scan (hf : CarriesNotes f) (dir : Bytes) (extensions : ExtensionMap) :
    (scan dir extensions).Unswayed f := by
  rw [scan_eq]
  refine unswayed_onHost fun host => ?_
  rw [scanOn]
  split
  · exact unswayed_ofExcept _
  · refine unswayed_bind (unswayed_looking _) fun files => ?_
    exact unswayed_bind (unswayed_forM_note hf _ _) fun _ => unswayed_ofExcept _

namespace Pipeline

/-- Adapting asks the logger whether it is verbose, but only to spare itself notes that would not
be written. -/
theorem unswayed_adapt (hf : CarriesNotes f) (text file : Bytes) : (adapt text file).Unswayed f :=
  unswayed_of_noted hf (on_adapt text file)

theorem unswayed_artifact (found : ArtifactSet) (kind : ArtifactKind) (dir : Bytes) :
    (artifact found kind dir).Unswayed f := by
  rw [artifact]
  split
  · exact unswayed_pure _
  · exact unswayed_throw _

theorem unswayed_package (hf : CarriesNotes f) (c : Config) : (package c).Unswayed f := by
  refine unswayed_bind (Artifact.unswayed_scan hf c.buildDir .standard) fun found => ?_
  refine unswayed_bind (unswayed_artifact found .binaryModule c.buildDir) fun binaryPath => ?_
  refine unswayed_bind (unswayed_artifact found .loaderScript c.buildDir) fun scriptPath => ?_
  refine unswayed_bind (unswayed_note hf _) fun _ => ?_
  refine unswayed_bind (unswayed_looking _) fun binary => ?_
  refine unswayed_bind (unswayed_note hf _) fun _ => ?_
  refine unswayed_bind (unswayed_looking _) fun text => ?_
  refine unswayed_bind (unswayed_adapt hf text scriptPath) fun script => ?_
  exact unswayed_bind (unswayed_note hf _) fun _ => unswayed_changing _

theorem unswayed_runNoted (hf : CarriesNotes f) (runner : Runner) (command : Command)
    (finished : Bytes) : (runNoted runner command finished).Unswayed f := by
  refine unswayed_bind (unswayed_note hf _) fun _ => ?_
  exact unswayed_bind (unswayed_execute runner command) fun _ => unswayed_note hf _

theorem unswayed_check (hf : CarriesNotes f) (runner : Runner) (c : Config) :
    (check runner c).Unswayed f :=
  unswayed_bind (unswayed_note hf _) fun _ => unswayed_runNoted hf runner _ _

theorem unswayed_build (hf : CarriesNotes f) (runner : Runner) (c : Config) :
    (build runner c).Unswayed f := by
  refine unswayed_bind (unswayed_note hf _) fun _ => ?_
  exact unswayed_bind (unswayed_runNoted hf runner _ _) fun _ => unswayed_package hf c

theorem unswayed_run (hf : CarriesNotes f) (runner : Runner) (c : Config) (mode : Mode) :
    (run runner c mode).Unswayed f := by
  cases mode with
  | check => exact unswayed_check hf runner c
  | build => exact unswayed_bind (unswayed_build hf runner c) fun _ => unswayed_pure ()

end Pipeline
end WasmPackager
