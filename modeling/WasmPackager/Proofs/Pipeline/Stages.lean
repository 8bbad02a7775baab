/-
# `Proofs.Pipeline.Stages` — a build fails closed

A build is six steps: a command is run, its output is scanned, the module and
the loader are loaded, the loader is adapted, both are published.
`PackageEnds` and `BuildEnds` say, without any session, at which of them a
host makes a build end, with what and in what state: each rule asks that the
steps before its own succeeded.  There is one way to end, and the steps as
they run end that way (`package_ends`, `build_ends`), whatever the runner does
to the host and whatever it returns.  A build that ends before it publishes
has a failure to show for it and has left the host alone (`BuildEnds.closed`).
-/
import WasmPackager.Proofs.Pipeline.Steps

namespace WasmPackager

namespace Pipeline

/-- The steps of a build, in the order in which they are taken. -/
inductive Stage
  | launch
  | scan
  | loadBinary
  | loadScript
  | adapt
  | publish
deriving DecidableEq

/-- A scan of what the toolchain left finds the module and the loader at these paths. -/
def Finds (c : Config) (h : Host) (binaryPath scriptPath : Bytes) : Prop :=
  ∃ found, (Artifact.scan c.buildDir .standard).verdict h = .ok found ∧
    found.lookup .binaryModule = some binaryPath ∧ found.lookup .loaderScript = some scriptPath

/-- Packaging on a host ends at a stage, with a result and in a state of the host.  Whatever ends
it before it publishes leaves the host as it is. -/
inductive PackageEnds (c : Config) (h : Host) : Stage → Except Failure Outputs → Host → Prop
  | scan {f : Failure} : (Artifact.scan c.buildDir .standard).verdict h = .error f →
      PackageEnds c h .scan (.error f) h
  | loadBinary {binaryPath scriptPath : Bytes} {f : Failure} :
      Finds c h binaryPath scriptPath → load h binaryPath = .error f →
      PackageEnds c h .loadBinary (.error f) h
  | loadScript {binaryPath scriptPath binary : Bytes} {f : Failure} :
      Finds c h binaryPath scriptPath → load h binaryPath = .ok binary →
      load h scriptPath = .error f →
      PackageEnds c h .loadScript (.error f) h
  | adapt {binaryPath scriptPath binary text : Bytes} {f : Failure} :
      Finds c h binaryPath scriptPath → load h binaryPath = .ok binary →
      load h scriptPath = .ok text → Loader.adapt text scriptPath = .error f →
      PackageEnds c h .adapt (.error f) h
  | publish {binaryPath scriptPath binary text script : Bytes} {r : Except Failure Outputs}
      {after : Host} :
      Finds c h binaryPath scriptPath → load h binaryPath = .ok binary →
      load h scriptPath = .ok text → Loader.adapt text scriptPath = .ok script →
      Outputs.publish c.outputDir binary script h = (r, after) →
      PackageEnds c h .publish r after

/-- A build ends where its command does, or, if that succeeds, where packaging what it left
ends. -/
inductive BuildEnds (runner : Runner) (c : Config) (h : Host) :
    Stage → Except Failure Outputs → Host → Prop
  | launch {f : Failure} {after : Host} : launched runner c.buildCommand h = (.error f, after) →
      BuildEnds runner c h .launch (.error f) after
  | package {stage : Stage} {r : Except Failure Outputs} {left after : Host} :
      launched runner c.buildCommand h = (.ok (), left) → PackageEnds c left stage r after →
      BuildEnds runner c h stage r after

/-! ## There is one way to end -/

section

variable {runner : Runner} {c : Config} {h after after' : Host} {stage stage' : Stage}
  {r r' : Except Failure Outputs}

theorem Finds.unique {binaryPath scriptPath binaryPath' scriptPath' : Bytes}
    (hfirst : Finds c h binaryPath scriptPath) (hsecond : Finds c h binaryPath' scriptPath') :
    binaryPath' = binaryPath ∧ scriptPath' = scriptPath := by
  obtain ⟨found, hscan, hbinary, hscript⟩ := hfirst
  obtain ⟨found', hscan', hbinary', hscript'⟩ := hsecond
  obtain rfl : found = found' := Except.ok.inj (hscan.symm.trans hscan')
  exact ⟨Option.some.inj (hbinary'.symm.trans hbinary),
    Option.some.inj (hscript'.symm.trans hscript)⟩

theorem Finds.not_failed {binaryPath scriptPath : Bytes} (hfinds : Finds c h binaryPath scriptPath)
    {f : Failure} : (Artifact.scan c.buildDir .standard).verdict h ≠ .error f := by
  obtain ⟨found, hscan, _⟩ := hfinds
  rw [hscan]
  nofun

/-- A scan that succeeds finds both files: no look-up behind it fails. -/
theorem finds_of_scan {found : ArtifactSet}
    (hscan : (Artifact.scan c.buildDir .standard).verdict h = .ok found) :
    ∃ binaryPath scriptPath, found.lookup .binaryModule = some binaryPath ∧
      found.lookup .loaderScript = some scriptPath ∧ Finds c h binaryPath scriptPath := by
  have asked : ∀ kind ∈ [ArtifactKind.binaryModule, .loaderScript],
      ∃ path, found.lookup kind = some path := by
    rw [← required_standard]
    exact fun _ => Artifact.lookup_of_scan hscan
  obtain ⟨binaryPath, hbinary⟩ := asked _ (.head _)
  obtain ⟨scriptPath, hscript⟩ := asked _ (.tail _ (.head _))
  exact ⟨binaryPath, scriptPath, hbinary, hscript, ⟨found, hscan, hbinary, hscript⟩⟩

/-- The result of each step decides whether the one after it is reached. -/
theorem PackageEnds.unique (hfirst : PackageEnds c h stage r after)
    (hsecond : PackageEnds c h stage' r' after') : stage' = stage ∧ r' = r ∧ after' = after := by
  cases hfirst with
  | scan hscan =>
      cases hsecond with
      | scan hscan' =>
          obtain rfl := Except.error.inj (hscan.symm.trans hscan')
          exact ⟨rfl, rfl, rfl⟩
      | loadBinary hfinds | loadScript hfinds | adapt hfinds | publish hfinds =>
          exact absurd hscan hfinds.not_failed
  | loadBinary hfinds | loadScript hfinds | adapt hfinds | publish hfinds =>
      cases hsecond with
      | scan hscan => exact absurd hscan hfinds.not_failed
      | loadBinary hfinds' | loadScript hfinds' | adapt hfinds' | publish hfinds' =>
          -- both go on from the same two paths
          obtain ⟨rfl, rfl⟩ := hfinds.unique hfinds'
          simp_all

theorem BuildEnds.unique (hfirst : BuildEnds runner c h stage r after)
    (hsecond : BuildEnds runner c h stage' r' after') :
    stage' = stage ∧ r' = r ∧ after' = after := by
  cases hfirst with
  | launch hlaunch =>
      cases hsecond with
      | launch hlaunch' =>
          cases hlaunch.symm.trans hlaunch'
          exact ⟨rfl, rfl, rfl⟩
      | package hlaunch' => cases hlaunch.symm.trans hlaunch'
  | package hlaunch hends =>
      cases hsecond with
      | launch hlaunch' => cases hlaunch.symm.trans hlaunch'
      | package hlaunch' hends' =>
          cases hlaunch.symm.trans hlaunch'
          exact hends.unique hends'

/-! ## What ends before publishing -/

theorem PackageEnds.closed (hends : PackageEnds c h stage r after) (hstage : stage ≠ .publish) :
    (∃ f, r = .error f) ∧ after = h := by
  cases hends with
  | scan | loadBinary | loadScript | adapt => exact ⟨⟨_, rfl⟩, rfl⟩
  | publish => exact absurd rfl hstage

theorem BuildEnds.closed (hends : BuildEnds runner c h stage r after) (hstage : stage ≠ .publish) :
    (∃ f, r = .error f) ∧ after = (runner c.buildCommand h).2 := by
  rw [← launched_host]
  cases hends with
  | launch hlaunch => exact ⟨⟨_, rfl⟩, by rw [hlaunch]⟩
  | package hlaunch hends =>
      rw [hlaunch]
      exact hends.closed hstage

end

/-! ## The steps as they run -/

theorem package_ends (c : Config) (s : Session) :
    (∃ stage, PackageEnds c s.host stage ((package c).on s).1 ((package c).on s).2.host) ∧
      ((package c).on s).2.calls = s.calls := by
  obtain ⟨notes, hon⟩ := Artifact.observes_scan c.buildDir .standard s
  rw [package, Step.on_bind, hon]
  cases hscan : (Artifact.scan c.buildDir .standard).verdict s.host with
  | error f => exact ⟨⟨.scan, .scan hscan⟩, rfl⟩
  | ok found =>
      obtain ⟨binaryPath, scriptPath, hbinary, hscript, hfinds⟩ := finds_of_scan hscan
      simp only [artifact_of_lookup hbinary, artifact_of_lookup hscript, pure_bind, Step.on_bind,
        Step.on_note_noted, Step.on_looking, Step.on_changing, on_adapt, Session.noted_host]
      cases hloaded : load s.host binaryPath with
      | error f => exact ⟨⟨.loadBinary, .loadBinary hfinds hloaded⟩, rfl⟩
      | ok binary =>
          simp only [Session.noted_host]
          cases hread : load s.host scriptPath with
          | error f => exact ⟨⟨.loadScript, .loadScript hfinds hloaded hread⟩, rfl⟩
          | ok text =>
              simp only
              cases hadapt : Loader.adapt text scriptPath with
              | error f => exact ⟨⟨.adapt, .adapt hfinds hloaded hread hadapt⟩, rfl⟩
              | ok script => exact ⟨⟨.publish, .publish hfinds hloaded hread hadapt rfl⟩, rfl⟩

theorem build_ends (runner : Runner) (c : Config) (s : Session) :
    (∃ stage, BuildEnds runner c s.host stage ((build runner c).on s).1
      ((build runner c).on s).2.host) ∧
      ((build runner c).on s).2.calls = s.calls ++ [c.buildCommand] := by
  rw [build, Step.on_bind, Step.on_note_noted]
  simp only
  obtain ⟨notes, hon⟩ :=
    on_runNoted runner c.buildCommand (ascii "cargo web") (s.noted [ascii "building"])
  rw [Step.on_bind, hon]
  simp only [Session.noted_host, Session.noted_calls]
  cases hlaunch : launched runner c.buildCommand s.host with
  | mk verdict left =>
      cases verdict with
      | error f => exact ⟨⟨.launch, .launch hlaunch⟩, rfl⟩
      | ok _ =>
          obtain ⟨⟨stage, hends⟩, hcalls⟩ := package_ends c (Session.noted
            ⟨left, (s.noted [ascii "building"]).log, s.calls ++ [c.buildCommand]⟩ notes)
          exact ⟨⟨stage, .package hlaunch hends⟩, hcalls⟩

theorem on_check (runner : Runner) (c : Config) (s : Session) :
    ((check runner c).on s).1 = (launched runner c.checkCommand s.host).1 ∧
      ((check runner c).on s).2.host = (runner c.checkCommand s.host).2 ∧
      ((check runner c).on s).2.calls = s.calls ++ [c.checkCommand] := by
  obtain ⟨notes, hon⟩ :=
    on_runNoted runner c.checkCommand (ascii "cargo check") (s.noted [ascii "running check"])
  rw [check, Step.on_bind, Step.on_note_noted]
  simp only
  rw [hon, ← launched_host]
  exact ⟨rfl, rfl, rfl⟩

/-- A run is a check, or a build whose outputs are not given back. -/
theorem on_run_build (runner : Runner) (c : Config) (s : Session) :
    (run runner c .build).on s =
      (((build runner c).on s).1.map fun _ => (), ((build runner c).on s).2) := by
  rw [run, Step.on_bind]
  rcases (build runner c).on s with ⟨_ | _, _⟩ <;> rfl

/-! ## A build fails closed -/

/-- Checks and builds hand the runner one command each, packaging none.  A check is as good as its
command.  A build, and packaging alone, end at one stage, the first one that fails if any does,
with what that stage gives; before the last stage that is a failure, and the host is the one the
runner left, or the one packaging began with.  What a scan finds can be looked up. -/
theorem fails_closed (runner : Runner) (c : Config) (s : Session) :
    (((check runner c).on s).2.calls = s.calls ++ [c.checkCommand] ∧
      ((build runner c).on s).2.calls = s.calls ++ [c.buildCommand] ∧
      ((package c).on s).2.calls = s.calls) ∧
    (run runner c .check = check runner c ∧
      (run runner c .build).on s =
        (((build runner c).on s).1.map fun _ => (), ((build runner c).on s).2)) ∧
    (((check runner c).on s).1 = (launched runner c.checkCommand s.host).1 ∧
      ((check runner c).on s).2.host = (runner c.checkCommand s.host).2) ∧
    (∃ stage,
      BuildEnds runner c s.host stage ((build runner c).on s).1 ((build runner c).on s).2.host ∧
      (∀ stage' r after, BuildEnds runner c s.host stage' r after →
        stage' = stage ∧ r = ((build runner c).on s).1 ∧
          after = ((build runner c).on s).2.host) ∧
      (stage ≠ .publish → (∃ f, ((build runner c).on s).1 = .error f) ∧
        ((build runner c).on s).2.host = (runner c.buildCommand s.host).2)) ∧
    (∃ stage,
      PackageEnds c s.host stage ((package c).on s).1 ((package c).on s).2.host ∧
      (∀ stage' r after, PackageEnds c s.host stage' r after →
        stage' = stage ∧ r = ((package c).on s).1 ∧ after = ((package c).on s).2.host) ∧
      (stage ≠ .publish → (∃ f, ((package c).on s).1 = .error f) ∧
        ((package c).on s).2.host = s.host)) ∧
    ∀ (s' : Session) (found : ArtifactSet),
      ((Artifact.scan c.buildDir .standard).on s').1 = .ok found →
        ∃ binaryPath scriptPath, found.lookup .binaryModule = some binaryPath ∧
          found.lookup .loaderScript = some scriptPath := by
  obtain ⟨hcheck, hcheckHost, hcheckCalls⟩ := on_check runner c s
  obtain ⟨⟨stage, hends⟩, hcalls⟩ := package_ends c s
  obtain ⟨⟨built, hbuilt⟩, hbuiltCalls⟩ := build_ends runner c s
  refine ⟨⟨hcheckCalls, hbuiltCalls, hcalls⟩, ⟨rfl, on_run_build runner c s⟩,
    ⟨hcheck, hcheckHost⟩, ⟨built, hbuilt, ?_, hbuilt.closed⟩, ⟨stage, hends, ?_, hends.closed⟩, ?_⟩
  · exact fun _ _ _ => hbuilt.unique
  · exact fun _ _ _ => hends.unique
  · intro s' found hfound
    obtain ⟨notes, hon⟩ := Artifact.observes_scan c.buildDir .standard s'
    rw [hon] at hfound
    obtain ⟨binaryPath, scriptPath, hbinary, hscript, _⟩ := finds_of_scan hfound
    exact ⟨binaryPath, scriptPath, hbinary, hscript⟩

end Pipeline

end WasmPackager
