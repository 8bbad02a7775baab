/-
# `Proofs.Pipeline.Steps` — what each step of a build does

One lemma or two for each step a build is made of: whether it only observes,
and what it gives.  A scan gives a path for every kind of file it was asked
for, or fails (`lookup_of_scan`), so the look-ups behind it cannot; a command
is handed to the runner once and what the runner leaves of the host is what
there is afterwards (`on_runNoted`).
-/
import WasmPackager.Pipeline
import WasmPackager.Proofs.FileSystem.Lookup
import WasmPackager.Proofs.Session

namespace WasmPackager

namespace Artifact

variable {dir : Bytes} {extensions : ExtensionMap}

theorem lookup_of_select {files : List Candidate} {kinds : List ArtifactKind} {found : ArtifactSet}
    (h : select dir files kinds = .ok found) {kind : ArtifactKind} (hk : kind ∈ kinds) :
    ∃ path, found.lookup kind = some path := by
  induction kinds generalizing found with
  | nil => exact absurd hk List.not_mem_nil
  | cons first rest ih =>
      rw [select] at h
      split at h
      · cases h
      · next file _ =>
          cases hrest : select dir files rest with
          | error f => simp [hrest, bind, Except.bind] at h
          | ok others =>
              obtain rfl : (first, file.path) :: others = found := by
                simpa [hrest, bind, Except.bind, pure, Except.pure] using h
              rw [List.lookup_cons]
              by_cases heq : kind = first
              · exact ⟨file.path, by simp [heq]⟩
              · have hmem := (List.mem_cons.mp hk).resolve_left heq
                obtain ⟨path, hpath⟩ := ih hrest hmem
                exact ⟨path, by rw [beq_false_of_ne heq]; exact hpath⟩
      · cases h

theorem classify_of_opens {h : Host} {d : InodeNumber} (hopen : h.openDirectory dir = .ok d) :
    classify h dir extensions = .ok (candidates dir extensions
      (((h.files.entries d).filter (isRegular h dir)).map Prod.fst)) := by
  rw [classify, hopen]
  simp only [Host.entriesOf_of_opens hopen]

/-- The choice a scan makes on a host. -/
def scanOn (dir : Bytes) (extensions : ExtensionMap) (h : Host) : Step ArtifactSet :=
  if !h.isDirectory dir then Step.ofExcept (select dir [] extensions.required)
  else do
    let files ← Step.looking (classify · dir extensions)
    (files.filter (·.kind == .ignored)).forM fun file => Step.note (ascii "ignoring " ++ file.path)
    Step.ofExcept (select dir files extensions.required)

theorem scan_eq (dir : Bytes) (extensions : ExtensionMap) :
    scan dir extensions = get >>= fun s : Session => scanOn dir extensions s.host := rfl

theorem observes_scan (dir : Bytes) (extensions : ExtensionMap) :
    (scan dir extensions).Observes := by
  rw [scan_eq]
  refine Step.observes_onHost fun host => ?_
  rw [scanOn]
  split
  · exact Step.observes_ofExcept _
  · refine Step.observes_bind (Step.observes_looking _) fun files => ?_
    exact Step.observes_bind (Step.observes_forM_note _ _) fun _ => Step.observes_ofExcept _

/-- A scan selects among the files of a directory; a path that leads to none has no files. -/
theorem verdict_scan (h : Host) :
    (scan dir extensions).verdict h =
      if h.isDirectory dir then (classify h dir extensions).bind (select dir · extensions.required)
      else select dir [] extensions.required := by
  have chosen : (scan dir extensions).verdict h = (scanOn dir extensions h).verdict h := rfl
  rw [chosen, scanOn]
  cases h.isDirectory dir with
  | false => rfl
  | true =>
      simp only [Bool.not_true, Bool.false_eq_true, if_false, if_true]
      rw [Step.verdict_bind (Step.observes_looking _), Step.verdict_looking]
      cases classify h dir extensions with
      | error f => rfl
      | ok files =>
          simp only [Except.bind]
          rw [Step.verdict_bind (Step.observes_forM_note _ _), Step.verdict_forM_note]
          rfl

theorem lookup_of_scan {h : Host} {found : ArtifactSet}
    (hscan : (scan dir extensions).verdict h = .ok found) {kind : ArtifactKind}
    (hk : kind ∈ extensions.required) : ∃ path, found.lookup kind = some path := by
  rw [verdict_scan] at hscan
  split at hscan
  · cases hc : classify h dir extensions with
    | error f => simp [hc, Except.bind] at hscan
    | ok files =>
        simp only [hc, Except.bind] at hscan
        exact lookup_of_select hscan hk
  · exact lookup_of_select hscan hk

end Artifact

namespace Pipeline

theorem required_standard :
    ExtensionMap.standard.required = [.binaryModule, .loaderScript] := by decide

/-- Looking up what was found is no step at all. -/
theorem artifact_of_lookup {found : ArtifactSet} {kind : ArtifactKind} {path : Bytes}
    (h : found.lookup kind = some path) (dir : Bytes) : artifact found kind dir = pure path := by
  rw [artifact, h]

theorem on_adapt (text file : Bytes) (s : Session) :
    (adapt text file).on s = (Loader.adapt text file, s.noted Loader.expectations) := by
  rw [adapt, Step.on_bind, Step.on_noteAll]
  rfl

/-- What handing a command to a runner comes to: nothing but a failure if the runner refuses or
the command does not succeed, and in any case the host the runner leaves. -/
def launched (runner : Runner) (command : Command) (h : Host) : Except Failure Unit × Host :=
  match runner command h with
  | (.error f, after) => (.error f, after)
  | (.ok x, after) =>
    (if x.success then .ok () else .error (.childFailed command x.exitCode), after)

theorem launched_host (runner : Runner) (command : Command) (h : Host) :
    (launched runner command h).2 = (runner command h).2 := by
  rw [launched]
  rcases runner command h with ⟨_ | _, _⟩ <;> rfl

theorem on_execute_launched (runner : Runner) (command : Command) (s : Session) :
    (Step.execute runner command).on s =
      ((launched runner command s.host).1,
        { s with host := (launched runner command s.host).2, calls := s.calls ++ [command] }) := by
  rw [Step.on_execute, launched]
  rcases runner command s.host with ⟨_ | _, _⟩ <;> rfl

theorem on_runNoted (runner : Runner) (command : Command) (finished : Bytes) (s : Session) :
    ∃ notes, (runNoted runner command finished).on s =
      ((launched runner command s.host).1,
        Session.noted ⟨(launched runner command s.host).2, s.log, s.calls ++ [command]⟩ notes) := by
  rw [runNoted, Step.on_bind, Step.on_note_noted]
  simp only
  rw [Step.on_bind, on_execute_launched]
  simp only [Session.noted_host, Session.noted_calls]
  cases (launched runner command s.host).1 with
  | error f => exact ⟨[ascii "running '" ++ command.describe ++ ascii "'"], rfl⟩
  | ok _ =>
      refine ⟨[ascii "running '" ++ command.describe ++ ascii "'"] ++
        [ascii "finished '" ++ finished ++ ascii "'"], ?_⟩
      rw [Session.noted_append]
      rfl

end Pipeline

end WasmPackager
