/-
# `Proofs.Session` — steps that only observe

Most steps of the packager look at the host, hand notes to the logger and give
a verdict.  `Step.Observes` says that of a step: whoever watches, it gives the
verdict it gives with nobody watching, and leaves the session as it was but
for some notes.  The property is kept by sequencing (`observes_bind`), so it
holds of a long chain of steps because it holds of each, and with it go the
two things that matter of a run that stops half-way: the host is untouched and
no command was run.
-/
import WasmPackager.Session

namespace WasmPackager

/-! ## Notes -/

namespace Logger

theorem note_of_quiet {log : Logger} (h : log.verbose = false) (m : Bytes) : log.note m = log := by
  simp [note, report, h]

theorem foldl_note_of_quiet {log : Logger} (h : log.verbose = false) (notes : List Bytes) :
    notes.foldl Logger.note log = log := by
  induction notes with
  | nil => rfl
  | cons m notes ih => rw [List.foldl_cons, note_of_quiet h, ih]

end Logger

namespace Session

/-- The session after some notes were handed to its logger, if it has one. -/
def noted (s : Session) (notes : List Bytes) : Session :=
  { s with log := s.log.map fun log => notes.foldl Logger.note log }

@[simp] theorem noted_host (s : Session) (notes : List Bytes) : (s.noted notes).host = s.host := rfl

@[simp] theorem noted_calls (s : Session) (notes : List Bytes) :
    (s.noted notes).calls = s.calls := rfl

@[simp] theorem noted_nil (s : Session) : s.noted [] = s := by
  simp [noted]

theorem noted_append (s : Session) (first second : List Bytes) :
    s.noted (first ++ second) = (s.noted first).noted second := by
  simp [noted, Function.comp_def]

@[simp] theorem noted_unwatched (h : Host) (calls : List Command) (notes : List Bytes) :
    (Session.mk h none calls).noted notes = ⟨h, none, calls⟩ := rfl

end Session

namespace Step

section

variable {α β : Type}

/-- What a step gives on a host with nobody watching. -/
def verdict (step : Step α) (h : Host) : Except Failure α := (step.on ⟨h, none, []⟩).1

/-- A step that gives its verdict and does nothing but hand notes to the logger. -/
def Observes (step : Step α) : Prop :=
  ∀ s : Session, ∃ notes, step.on s = (step.verdict s.host, s.noted notes)

/-! ## What observes -/

/-- A step observes if it gives what can be said from the host, and leaves notes only. -/
theorem observes_of_on {step : Step α} {f : Host → Except Failure α}
    (h : ∀ s : Session, ∃ notes, step.on s = (f s.host, s.noted notes)) : step.Observes := by
  intro s
  obtain ⟨notes, hs⟩ := h s
  obtain ⟨_, hv⟩ := h ⟨s.host, none, []⟩
  exact ⟨notes, by rw [hs, verdict, hv]⟩

theorem observes_ofExcept (r : Except Failure α) : (ofExcept r).Observes :=
  fun s => ⟨[], by simp [verdict]⟩

theorem observes_looking (look : Host → Except Failure α) : (looking look).Observes :=
  fun s => ⟨[], by simp [verdict]⟩

theorem on_note_noted (m : Bytes) (s : Session) : (note m).on s = (.ok (), s.noted [m]) := rfl

/-- In a sequence the second step is taken with the notes of the first one behind it. -/
theorem on_bind_of_observes {step : Step α} (h : step.Observes) (next : α → Step β) (s : Session) :
    ∃ notes, (step >>= next).on s =
      match step.verdict s.host with
      | .ok a => (next a).on (s.noted notes)
      | .error f => (.error f, s.noted notes) := by
  obtain ⟨notes, hs⟩ := h s
  refine ⟨notes, ?_⟩
  rw [on_bind, hs]
  cases step.verdict s.host <;> rfl

theorem verdict_bind {step : Step α} (h : step.Observes) (next : α → Step β) (host : Host) :
    (step >>= next).verdict host = (step.verdict host).bind fun a => (next a).verdict host := by
  obtain ⟨notes, hon⟩ := on_bind_of_observes h next ⟨host, none, []⟩
  rw [verdict, hon]
  simp only [Session.noted_unwatched]
  cases step.verdict host <;> rfl

theorem observes_bind {step : Step α} {next : α → Step β} (h : step.Observes)
    (hnext : ∀ a, (next a).Observes) : (step >>= next).Observes := by
  intro s
  obtain ⟨first, hon⟩ := on_bind_of_observes h next s
  rw [hon, verdict_bind h]
  cases step.verdict s.host with
  | error f => exact ⟨first, rfl⟩
  | ok a =>
      obtain ⟨second, hsecond⟩ := hnext a (s.noted first)
      exact ⟨first ++ second, by rw [Session.noted_append]; exact hsecond⟩

theorem observes_onHost {choose : Host → Step α} (h : ∀ host, (choose host).Observes) :
    (get >>= fun s : Session => choose s.host : Step α).Observes := by
  refine observes_of_on (f := fun host => (choose host).verdict host) fun s => ?_
  exact h s.host s

theorem on_forM_note {γ : Type} (items : List γ) (message : γ → Bytes) (s : Session) :
    (items.forM fun x => note (message x)).on s = (.ok (), s.noted (items.map message)) := by
  induction items generalizing s with
  | nil => simp [List.forM]
  | cons x items ih =>
      have split : ((x :: items).forM fun x => note (message x)) =
          note (message x) >>= fun _ => items.forM fun x => note (message x) := rfl
      rw [split, on_bind, on_note_noted]
      simp only
      rw [ih, ← Session.noted_append, List.singleton_append, List.map_cons]

theorem observes_forM_note {γ : Type} (items : List γ) (message : γ → Bytes) :
    (items.forM fun x => note (message x)).Observes :=
  observes_of_on (f := fun _ => .ok ()) fun s => ⟨items.map message, on_forM_note items message s⟩

/-- Notes for a verbose logger only are notes like others: a quiet one drops them anyhow. -/
theorem on_noteAll (messages : List Bytes) (s : Session) :
    (noteAll messages).on s = (.ok (), s.noted messages) := by
  have unfolded : (noteAll messages).on s =
      (if s.log.any (·.verbose) then messages.forM note else pure () : Step Unit).on s := rfl
  rw [unfolded]
  split
  · simpa using on_forM_note messages id s
  · next quiet =>
      have same : s.noted messages = s := by
        obtain ⟨host, log, calls⟩ := s
        cases log with
        | none => rfl
        | some log =>
            have hlog : log.verbose = false := by simpa using quiet
            simp [Session.noted, Logger.foldl_note_of_quiet hlog]
      rw [same, on_pure]

/-! ## Verdicts -/

@[simp] theorem verdict_ofExcept (r : Except Failure α) (h : Host) :
    (ofExcept r).verdict h = r := rfl

@[simp] theorem verdict_looking (look : Host → Except Failure α) (h : Host) :
    (looking look).verdict h = look h := rfl

@[simp] theorem verdict_forM_note {γ : Type} (items : List γ) (message : γ → Bytes) (h : Host) :
    (items.forM fun x => note (message x)).verdict h = .ok () := by
  rw [verdict, on_forM_note]

end

end Step
end WasmPackager
