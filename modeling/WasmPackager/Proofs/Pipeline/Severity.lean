/-
# `Proofs.Pipeline.Severity` — what the packager fails with is an error

A quiet logger drops notes, so what a run fails with is sure to be written only
if it is graver than that.  Every step of the packager fails with an error.
The one exception is a runner, which speaks for itself when it would not start
a command: it owes an error too, but could hand over less.  So a run fails with
an error unless its runner handed over something else (`severity_of_run`), and
the runner that starts programs never does (`Launch.severity_of_spawn`).
-/
import WasmPackager.Proofs.Command.Launching
import WasmPackager.Proofs.Pipeline.Notes
import WasmPackager.Proofs.Project.Resolution

namespace WasmPackager

/-- Only what a runner says in its own words can be less than an error. -/
theorem Failure.severity_of_category {f : Failure} (h : f.category ≠ .spawn) :
    f.severity = .error := by
  cases f with
  | refused => exact absurd rfl h
  | _ => rfl

variable {f : Failure}

theorem Launch.severity_of_spawn {k : Kernel} {c : Command} {h : Host}
    (hspawn : (spawn k c h).1 = .error f) : f.severity = .error := by
  rw [spawn] at hspawn
  split at hspawn
  · cases hspawn
    rfl
  · simp only [verdict] at hspawn
    split at hspawn <;> cases hspawn <;> rfl

theorem Project.severity_of_resolve {h : Host} {root : Bytes} (hf : resolve h root = .error f) :
    f.severity = .error :=
  Failure.severity_of_category (by rw [category_of_resolve hf]; decide)

namespace Artifact

theorem severity_of_select {dir : Bytes} {files : List Candidate} {kinds : List ArtifactKind}
    (hf : select dir files kinds = .error f) : f.severity = .error := by
  induction kinds with
  | nil => cases hf
  | cons kind rest ih =>
      rw [select] at hf
      split at hf
      · cases hf
        rfl
      · cases hrest : select dir files rest with
        | error g =>
            obtain rfl : g = f := by simpa [hrest, bind, Except.bind] using hf
            exact ih hrest
        | ok found => simp [hrest, bind, Except.bind, pure, Except.pure] at hf
      · cases hf
        rfl

theorem severity_of_classify {h : Host} {dir : Bytes} {extensions : ExtensionMap}
    (hf : classify h dir extensions = .error f) : f.severity = .error := by
  rw [classify] at hf
  split at hf
  · cases hf
    rfl
  · split at hf <;> cases hf
    rfl

theorem severity_of_scan {h : Host} {dir : Bytes} {extensions : ExtensionMap}
    (hf : (scan dir extensions).verdict h = .error f) : f.severity = .error := by
  rw [verdict_scan] at hf
  split at hf
  · cases hc : classify h dir extensions with
    | error g =>
        obtain rfl : g = f := by simpa [hc, Except.bind] using hf
        exact severity_of_classify hc
    | ok files => exact severity_of_select (by simpa [hc, Except.bind] using hf)
  · exact severity_of_select hf

end Artifact

theorem Loader.severity_of_adapt {text file : Bytes} (hf : adapt text file = .error f) :
    f.severity = .error := by
  cases hshape : shapeOf opening closing text file with
  | error g =>
      obtain rfl : g = f := by simpa [adapt, hshape, bind, Except.bind] using hf
      rw [shapeOf] at hshape
      split at hshape
      · cases hshape
        rfl
      · split at hshape <;> cases hshape
        rfl
  | ok shape =>
      cases hpayload : payload text shape file with
      | error g =>
          obtain rfl : g = f := by simpa [adapt, hshape, hpayload, bind, Except.bind] using hf
          simp only [payload] at hpayload
          split at hpayload
          · cases hpayload
            rfl
          split at hpayload
          · cases hpayload
            rfl
          split at hpayload <;> cases hpayload
          rfl
      | ok core => simp [adapt, hshape, hpayload, bind, Except.bind, pure, Except.pure] at hf

namespace Outputs

theorem severity_of_stage {h h' : Host} {path bytes : Bytes}
    (hf : stage h path bytes = (.error f, h')) : f.severity = .error := by
  rw [stage] at hf
  split at hf <;> cases hf
  rfl

theorem severity_of_stageBoth {outputs : Outputs} {h h' : Host} {binary script : Bytes}
    (hf : stageBoth outputs h binary script = (.error f, h')) : f.severity = .error := by
  rw [stageBoth] at hf
  split at hf <;> exact severity_of_stage hf

theorem severity_of_publish {dir binary script : Bytes} {h : Host}
    (hf : (publish dir binary script h).1 = .error f) : f.severity = .error := by
  rw [publish] at hf
  split at hf
  · cases hf
    rfl
  simp only at hf
  split at hf
  · next hstage =>
      cases hf
      exact severity_of_stageBoth hstage
  split at hf
  · cases hf
    rfl
  split at hf <;> cases hf
  rfl

end Outputs

namespace Pipeline

theorem severity_of_load {h : Host} {path : Bytes} (hf : load h path = .error f) :
    f.severity = .error := by
  rw [load] at hf
  split at hf
  · cases hf
    rfl
  · cases hf
    rfl
  split at hf
  · cases hf
    rfl
  split at hf <;> cases hf
  rfl

variable {runner : Runner} {c : Config}

theorem PackageEnds.severity {h after : Host} {stage : Stage}
    (hends : PackageEnds c h stage (.error f) after) : f.severity = .error := by
  cases hends with
  | scan hscan => exact Artifact.severity_of_scan hscan
  | loadBinary _ hload => exact severity_of_load hload
  | loadScript _ _ hload => exact severity_of_load hload
  | adapt _ _ _ hadapt => exact Loader.severity_of_adapt hadapt
  | publish _ _ _ _ hpublish => exact Outputs.severity_of_publish (congrArg Prod.fst hpublish)

theorem severity_of_launched {command : Command} {h : Host}
    (hf : (launched runner command h).1 = .error f) :
    f.severity = .error ∨ (runner command h).1 = .error f := by
  rw [launched] at hf
  split at hf
  · next hran =>
      cases hf
      exact .inr (congrArg Prod.fst hran)
  · simp only at hf
    split at hf <;> cases hf
    exact .inl rfl

/-- What a run fails with is an error, unless its runner handed over something else. -/
theorem severity_of_run {mode : Mode} {s : Session} (hf : ((run runner c mode).on s).1 = .error f) :
    f.severity = .error ∨ (runner (command c mode) s.host).1 = .error f := by
  cases mode with
  | check =>
      obtain ⟨hresult, -⟩ := on_check runner c s
      exact severity_of_launched (hresult.symm.trans hf)
  | build =>
      rw [on_run_build] at hf
      obtain ⟨⟨stage, hends⟩, -⟩ := build_ends runner c s
      cases hbuilt : ((build runner c).on s).1 with
      | ok outputs =>
          rw [hbuilt] at hf
          cases hf
      | error g =>
          rw [hbuilt] at hf hends
          obtain rfl : g = f := Except.error.inj hf
          cases hends with
          | launch hlaunch => exact severity_of_launched (congrArg Prod.fst hlaunch)
          | package _ hends => exact .inl hends.severity

end Pipeline
end WasmPackager
