/-
# `Proofs.Pipeline.Delivery` — what a build delivers, and when

A build goes through a command, a scan, two loads, an adaption and the
publishing of two files, over whatever file system the command leaves.  If that
is orderly, the build succeeds exactly if the command did, the toolchain's
directory holds one module and one loader that can be read and adapted
(`Deliverable`), and the output directory can be written (`Publishable`).  It
then delivers the module and the adapted loader and touches nothing else
(`Delivered`).

`Ready` collects what packaging needs, in terms of directories and files and no
longer of paths: packaging succeeds from there (`package_of_ready`) and from
nowhere else (`ready_of_package`).
-/
import Mathlib.Algebra.Order.Group.Nat
import Mathlib.Tactic.GCongr
import Mathlib.Tactic.GRewrite
import WasmPackager.Proofs.Loader.Acceptance
import WasmPackager.Proofs.Project.Layout

namespace WasmPackager

namespace Pipeline

open FileSystem WasmPackager.Path

/-- The toolchain's directory holds one module and one loader, both can be read and are not too
large, and the loader can be adapted. -/
structure Deliverable (c : Config) (h : Host) (b : InodeNumber) (m l : Name)
    (module loader : Contents) (script : Bytes) : Prop where
  listed : h.openDirectory c.buildDir = .ok b
  moduleSole : h.files.Sole b Loader.binaryExtension m module
  loaderSole : h.files.Sole b Loader.scriptExtension l loader
  moduleRead : h.read (join c.buildDir m) = .ok module
  loaderRead : h.read (join c.buildDir l) = .ok loader
  moduleSize : module.size ≤ loadLimit
  loaderSize : loader.size ≤ loadLimit
  adapted : Loader.adapt loader.bytes (join c.buildDir l) = .ok script

/-- The output directory can be written: entries can be made in it, no directory has the name of
anything that is written, and what is staged already can be overwritten. -/
structure Publishable (c : Config) (h : Host) : Prop where
  directory : ∀ t, h.Reaches c.outputDir t → h.mayAdd t = .ok ()
  plain : ∀ name, Outputs.IsOutput name ∨ Outputs.IsStaging name →
    h.isDirectory (join c.outputDir name) = false
  staging : ∀ name n i, Outputs.IsStaging name → h.locate (join c.outputDir name) true = .ok n →
    h.files.inode? n = some i → i.allows .write = true

/-- The outputs hold what they should, nothing is staged any more, and everything else is to be
seen as before. -/
structure Delivered (c : Config) (left after : Host) (module script : Bytes) : Prop where
  binary : after.contentsAt (Outputs.within c.outputDir).binary = some module
  script : after.contentsAt (Outputs.within c.outputDir).script = some script
  unstaged : ∀ name, Outputs.IsStaging name →
    after.stat (join c.outputDir name) = .error .notFound
  elsewhere : ∀ loc, ¬ Outputs.Touched left c.outputDir loc →
    after.files.seen loc = left.files.seen loc
  cwd : after.cwd = left.cwd

structure Ready (c : Config) (h : Host) (t b : InodeNumber) (m l : Name)
    (module loader : Contents) (script : Bytes) : Prop where
  fit : Outputs.Fit h c.outputDir t
  granted : Outputs.Granted h t
  enters : h.Enters c.buildDir b
  plain : h.files.Plain b
  apart : t ≠ b
  moduleShort : (join c.buildDir m).length < pathLimit
  loaderShort : (join c.buildDir l).length < pathLimit
  deliverable : Deliverable c h b m l module loader script

variable {c : Config} {h : Host} {t b : InodeNumber} {m l name : Name}
  {module loader contents : Contents} {script : Bytes}

/-! ## Packaging what is ready -/

theorem enters_of_locate (hzero : 0 ∉ c.buildDir) (hreaches : h.Reaches c.buildDir b)
    (hplain : h.files.Plain b) (hname : IsName name) {n : InodeNumber}
    (hn : h.locate (join c.buildDir name) true = .ok n) :
    h.Enters c.buildDir b ∧ (join c.buildDir name).length < pathLimit := by
  have unlinked : ∀ {d n}, h.Reaches c.buildDir d → h.files.child? d name = some n →
      ¬ h.files.IsLink n := by
    intro d n hd hchild
    obtain rfl : d = b := hreaches.unique hd
    exact hplain.unlinked hchild
  obtain ⟨hshort, d, hd, -⟩ := Host.of_locate_join hzero hname unlinked hn
  obtain rfl : d = b := hreaches.unique hd.reaches
  exact ⟨hd, hshort⟩

theorem stat_of_hasFile (henters : h.Enters c.buildDir b) (hplain : h.files.Plain b)
    (hshort : (join c.buildDir name).length < pathLimit) (hfile : h.files.HasFile b name contents) :
    ∃ i, h.stat (join c.buildDir name) = .ok i ∧ i.node = .file contents := by
  obtain ⟨n, hchild, hnode⟩ := hfile
  obtain ⟨i, hi, hdir⟩ := Option.map_eq_some_iff.mp hnode
  exact ⟨i, Host.stat_join henters (hplain.named hchild) hshort hchild hi
    (hplain.unlinked hchild), hdir⟩

theorem load_iff_of_hasFile (henters : h.Enters c.buildDir b) (hplain : h.files.Plain b)
    (hshort : (join c.buildDir name).length < pathLimit) (hfile : h.files.HasFile b name contents)
    {bytes : Bytes} :
    load h (join c.buildDir name) = .ok bytes ↔
      h.read (join c.buildDir name) = .ok contents ∧ contents.size ≤ loadLimit ∧
        bytes = contents.bytes := by
  obtain ⟨i, hstat, hnode⟩ := stat_of_hasFile henters hplain hshort hfile
  exact load_iff hstat hnode

/-- What can be delivered comes to be published, whatever that gives. -/
theorem ends_of_deliverable (henters : h.Enters c.buildDir b) (hplain : h.files.Plain b)
    (hmoduleShort : (join c.buildDir m).length < pathLimit)
    (hloaderShort : (join c.buildDir l).length < pathLimit)
    (hd : Deliverable c h b m l module loader script) {r : Except Failure Outputs} {after : Host}
    (hpublish : Outputs.publish c.outputDir module.bytes script h = (r, after)) :
    PackageEnds c h .publish r after := by
  have hfinds : Finds c h (join c.buildDir m) (join c.buildDir l) :=
    (finds_iff hd.listed hplain).mpr
      ⟨m, l, module, loader, hd.moduleSole, hd.loaderSole, rfl, rfl⟩
  have hmodule : load h (join c.buildDir m) = .ok module.bytes :=
    (load_iff_of_hasFile henters hplain hmoduleShort hd.moduleSole.found).mpr
      ⟨hd.moduleRead, hd.moduleSize, rfl⟩
  have hloader : load h (join c.buildDir l) = .ok loader.bytes :=
    (load_iff_of_hasFile henters hplain hloaderShort hd.loaderSole.found).mpr
      ⟨hd.loaderRead, hd.loaderSize, rfl⟩
  exact .publish hfinds hmodule hloader hd.adapted hpublish

theorem sized_of_deliverable (hd : Deliverable c h b m l module loader script) :
    Outputs.Sized module.bytes script := by
  have hmodule := hd.moduleSize
  have hloader := hd.loaderSize
  have hscript := Loader.length_le_of_adapt hd.adapted
  rw [← Contents.length_bytes] at hmodule hloader
  have hcall : loadLimit + Loader.initializeCall.length ≤ Contents.limit := by decide
  exact ⟨by omega, by omega⟩

theorem package_of_ready (hr : Ready c h t b m l module loader script) :
    ∃ x y fs', PackageEnds c h .publish (.ok (Outputs.within c.outputDir)) (h.withFiles fs') ∧
      Outputs.Published t x y module.bytes script h.files fs' := by
  obtain ⟨x, y, fs', hpublish, hpublished⟩ :=
    Outputs.publish_of_granted hr.fit hr.granted (sized_of_deliverable hr.deliverable)
  exact ⟨x, y, fs', ends_of_deliverable hr.enters hr.plain hr.moduleShort hr.loaderShort
    hr.deliverable hpublish, hpublished⟩

/-! ## Nothing else is packaged -/

theorem read_of_stat {path : Bytes} {i : Inode} (hstat : h.stat path = .ok i)
    (hread : i.allows .read = true) (hnode : i.node = .file contents) :
    h.read path = .ok contents := by
  rw [Host.read, hstat]
  simp only [bind, Except.bind, Host.demand, if_pos hread, hnode]

theorem locate_of_read {path : Bytes} (hread : h.read path = .ok contents) :
    ∃ n, h.locate path true = .ok n := by
  rw [Host.read] at hread
  cases hstat : h.stat path with
  | error cause => simp [hstat, bind, Except.bind] at hread
  | ok i =>
      obtain ⟨n, hn, -⟩ := Host.of_stat hstat
      exact ⟨n, hn⟩

theorem read_of_load {path bytes : Bytes} (hload : load h path = .ok bytes) :
    ∃ contents, h.read path = .ok contents := by
  cases hread : h.read path with
  | error cause =>
      rw [load, hread] at hload
      cases cause <;> cases hload
  | ok contents => exact ⟨contents, rfl⟩

theorem enters_of_read (hfit : Outputs.Fit h c.outputDir t) (hreaches : h.Reaches c.buildDir b)
    (hplain : h.files.Plain b) (hfile : h.files.HasFile b name contents) {contents' : Contents}
    (hread : h.read (join c.buildDir name) = .ok contents') :
    h.Enters c.buildDir b ∧ (join c.buildDir name).length < pathLimit := by
  obtain ⟨n, hchild, -⟩ := hfile
  obtain ⟨n', hn'⟩ := locate_of_read hread
  have hzero : 0 ∉ c.buildDir := by
    rw [Config.buildDir_eq, Host.zeroFree_join c.isName_profile,
      Host.zeroFree_join Config.isName_targetTriple]
    exact hfit.enters.zeroFree
  exact enters_of_locate hzero hreaches hplain (hplain.named hchild) hn'

theorem of_load (hfit : Outputs.Fit h c.outputDir t) (hreaches : h.Reaches c.buildDir b)
    (hplain : h.files.Plain b) (hfile : h.files.HasFile b name contents) {bytes : Bytes}
    (hload : load h (join c.buildDir name) = .ok bytes) :
    h.read (join c.buildDir name) = .ok contents ∧ contents.size ≤ loadLimit ∧
      bytes = contents.bytes := by
  obtain ⟨contents', hread⟩ := read_of_load hload
  obtain ⟨henters, hshort⟩ := enters_of_read hfit hreaches hplain hfile hread
  exact (load_iff_of_hasFile henters hplain hshort hfile).mp hload

theorem ready_of_deliverable (ho : c.Orderly h) (hzero : 0 ∉ c.root)
    (hd : Deliverable c h b m l module loader script)
    (hgranted : ∀ {t}, Outputs.Fit h c.outputDir t → Outputs.Granted h t) :
    ∃ t, Ready c h t b m l module loader script := by
  obtain ⟨-, t, hfit, hreaches, hplain, hapart⟩ := Config.layout_of_opens ho hzero hd.listed
  obtain ⟨henters, hmodule⟩ :=
    enters_of_read hfit hreaches hplain hd.moduleSole.found hd.moduleRead
  obtain ⟨-, hloader⟩ := enters_of_read hfit hreaches hplain hd.loaderSole.found hd.loaderRead
  exact ⟨t, hfit, hgranted hfit, henters, hplain, hapart, hmodule, hloader, hd⟩

theorem granted_of_publish (hfit : Outputs.Fit h c.outputDir t) {binary : Bytes}
    {outputs : Outputs} {after : Host}
    (hpublish : Outputs.publish c.outputDir binary script h = (.ok outputs, after)) :
    Outputs.Granted h t := by
  refine Classical.byContradiction fun hdenied => ?_
  obtain ⟨f, after', herror⟩ := Outputs.publish_of_not_granted hfit hdenied binary script
  cases hpublish.symm.trans herror

theorem ready_of_package (ho : c.Orderly h) {stage : Stage} {outputs : Outputs} {after : Host}
    (hends : PackageEnds c h stage (.ok outputs) after) :
    ∃ t b m l module loader script, Ready c h t b m l module loader script := by
  cases hends with
  | @publish binaryPath scriptPath binary text script _ _ hfinds hmodule hloader hadapt hpublish =>
      obtain ⟨b, hopen⟩ : ∃ b, h.openDirectory c.buildDir = .ok b := by
        obtain ⟨found, hscan, -, -⟩ := hfinds
        exact Artifact.opens_of_scan hscan
      have hzero : 0 ∉ c.root := by
        intro hzero
        obtain ⟨hstands, hstaged⟩ := Config.isDirectory_of_zero hzero hopen
        obtain ⟨f, after', herror⟩ := Outputs.publish_of_isDirectory hstands
          (by rw [Outputs.within, Outputs.staging_join]; exact hstaged _) binary script
        cases hpublish.symm.trans herror
      obtain ⟨-, t, hfit, hreaches, hplain, -⟩ := Config.layout_of_opens ho hzero hopen
      obtain ⟨m, l, module, loader, hmoduleSole, hloaderSole, rfl, rfl⟩ :=
        (finds_iff hopen hplain).mp hfinds
      obtain ⟨hmoduleRead, hmoduleSize, rfl⟩ :=
        of_load hfit hreaches hplain hmoduleSole.found hmodule
      obtain ⟨hloaderRead, hloaderSize, rfl⟩ :=
        of_load hfit hreaches hplain hloaderSole.found hloader
      have hd : Deliverable c h b m l module loader script := ⟨hopen, hmoduleSole, hloaderSole,
        hmoduleRead, hloaderRead, hmoduleSize, hloaderSize, hadapt⟩
      obtain ⟨t, hr⟩ := ready_of_deliverable ho hzero hd fun hfit =>
        granted_of_publish hfit hpublish
      exact ⟨t, b, m, l, module, loader, script, hr⟩

/-! ## Granted, in terms of paths -/

theorem isDirectory_join_iff (hfit : Outputs.Fit h c.outputDir t)
    (hname : Outputs.IsOutput name ∨ Outputs.IsStaging name) :
    h.isDirectory (join c.outputDir name) = true ↔
      ∃ n, h.files.child? t name = some n ∧ h.files.IsDirectory n := by
  have hisName : IsName name := hname.elim (·.isName) (·.isName)
  have hshort := hfit.short hname
  cases hchild : h.files.child? t name with
  | none =>
      rw [Host.isDirectory, Host.stat_join_vacant hfit.enters hisName hshort hchild]
      simp
  | some n =>
      obtain ⟨i, hi⟩ := hfit.leads hchild
      rw [Host.isDirectory_of_stat (Host.stat_join hfit.enters hisName hshort hchild hi
        (hfit.noLink hname hchild))]
      simp [isDirectory_iff, node?_of_inode? hi]

theorem publishable_iff (hfit : Outputs.Fit h c.outputDir t) :
    Publishable c h ↔ Outputs.Granted h t := by
  have unlinked : ∀ {d name n}, Outputs.IsStaging name → h.Reaches c.outputDir d →
      h.files.child? d name = some n → ¬ h.files.IsLink n := by
    intro d name n hname hd hchild
    obtain rfl := hfit.enters.reaches.unique hd
    exact hfit.noLink (.inr hname) hchild
  constructor
  · intro hp
    have plain : ∀ {name n}, Outputs.IsOutput name ∨ Outputs.IsStaging name →
        h.files.child? t name = some n → ¬ h.files.IsDirectory n := by
      intro name n hname hchild hdir
      have := (isDirectory_join_iff hfit hname).mpr ⟨n, hchild, hdir⟩
      rw [hp.plain name hname] at this
      cases this
    have hadd := hp.directory t hfit.enters.reaches
    refine ⟨hadd,
      fun {name} hname => ⟨fun _ => hadd, plain (.inr hname), fun {n i} hchild hi => ?_⟩,
      fun hname => plain (.inl hname)⟩
    exact hp.staging name n i hname (Host.locate_join hfit.enters hname.isName
      (hfit.short (.inr hname)) hchild hi (hfit.noLink (.inr hname) hchild)) hi
  · intro hg
    refine ⟨fun t' ht' => ?_, fun name hname => ?_, fun name n i hname hn hi => ?_⟩
    · obtain rfl : t' = t := hfit.enters.reaches.unique ht'
      exact hg.directory
    · refine Bool.eq_false_iff.mpr fun hdir => ?_
      obtain ⟨n, hchild, hn⟩ := (isDirectory_join_iff hfit hname).mp hdir
      exact (Outputs.plain_of_published hfit hg hname hchild).1 hn
    · obtain ⟨-, d, hd, hchild⟩ := Host.of_locate_join hfit.enters.zeroFree hname.isName
        (unlinked hname) hn
      obtain rfl := hfit.enters.reaches.unique hd.reaches
      exact (hg.staging hname).old hchild hi

theorem delivered_of_published (ho : c.Orderly h) (hfit : Outputs.Fit h c.outputDir t)
    (hgranted : Outputs.Granted h t) {x y : InodeNumber} {binary script : Bytes}
    {fs' : FileSystem} (hp : Outputs.Published t x y binary script h.files fs') :
    Delivered c h (h.withFiles fs') binary script where
  binary := (Outputs.contentsAt_of_published hfit hgranted hp).1
  script := (Outputs.contentsAt_of_published hfit hgranted hp).2
  unstaged _ hname := Outputs.stat_staging_of_published hfit hgranted hp hname
  elsewhere _ hloc := Outputs.seen_of_published hfit hgranted hp ho.tree.rooted hloc
  cwd := rfl

/-- Packaging on an orderly file system succeeds exactly if there is something to deliver that can
be published, and then delivers it. -/
theorem package_delivers (ho : c.Orderly h) {stage : Stage} {r : Except Failure Outputs}
    {after : Host} (hends : PackageEnds c h stage r after) :
    (∀ outputs, r = .ok outputs → outputs = Outputs.within c.outputDir ∧
      ∃ b m l module loader script, Deliverable c h b m l module loader script ∧
        Publishable c h ∧ Delivered c h after module.bytes script) ∧
    ∀ b m l module loader script, Deliverable c h b m l module loader script →
      Publishable c h → r = .ok (Outputs.within c.outputDir) := by
  constructor
  · rintro outputs rfl
    obtain ⟨t, b, m, l, module, loader, script, hr⟩ := ready_of_package ho hends
    obtain ⟨x, y, fs', hpublish, hpublished⟩ := package_of_ready hr
    obtain ⟨-, houtputs, rfl⟩ := hpublish.unique hends
    exact ⟨Except.ok.inj houtputs, b, m, l, module, loader, script, hr.deliverable,
      (publishable_iff hr.fit).mpr hr.granted,
      delivered_of_published ho hr.fit hr.granted hpublished⟩
  · intro b m l module loader script hd hp
    have hzero : 0 ∉ c.root := by
      intro hzero
      have hstaged := (Config.isDirectory_of_zero hzero hd.listed).2
        (Outputs.stagingName Loader.binaryName)
      rw [hp.plain _ (.inr Outputs.staging_binary)] at hstaged
      cases hstaged
    obtain ⟨t, hr⟩ := ready_of_deliverable ho hzero hd fun hfit => (publishable_iff hfit).mp hp
    obtain ⟨x, y, fs', hpublish, -⟩ := package_of_ready hr
    exact (hpublish.unique hends).2.1

/-! ## Builds -/

theorem releaseFlag_iff (c : Config) :
    Config.releaseFlag ∈ c.buildCommand.args ↔
      c.buildDir = join (join c.outputDir Loader.targetTriple) (ascii "release") := by
  rw [Config.buildDir_eq, Config.profile, Config.buildCommand]
  cases c.release with
  | true => exact ⟨fun _ => rfl, fun _ => by simp⟩
  | false =>
      constructor
      · intro hflag
        have absent : Config.releaseFlag ∉
            [ascii "web", ascii "build", Config.targetFlag] ++ ([] : List Bytes) := by decide
        exact absurd hflag absent
      · intro heq
        have differ : ascii "debug" ≠ ascii "release" := by decide
        exact absurd (join_injective _ heq) differ

theorem on_build_of_packaged {runner : Runner} {s : Session} {left after : Host} {stage : Stage}
    {r : Except Failure Outputs} (hlaunch : launched runner c.buildCommand s.host = (.ok (), left))
    (hends : PackageEnds c left stage r after) :
    ((build runner c).on s).1 = r ∧ ((build runner c).on s).2.host = after := by
  obtain ⟨⟨stage', hends'⟩, -⟩ := build_ends runner c s
  obtain ⟨-, hr, hafter⟩ := (BuildEnds.package hlaunch hends).unique hends'
  exact ⟨hr, hafter⟩

/-- A build hands its command to the runner, once; a release is built exactly if the release
directory is scanned.  If the runner leaves an orderly file system, the build succeeds exactly if
the command did and left something to deliver that can be published, and then delivers it. -/
theorem build_delivers (runner : Runner) (c : Config) (s : Session)
    (ho : c.Orderly (runner c.buildCommand s.host).2) :
    ((build runner c).on s).2.calls = s.calls ++ [c.buildCommand] ∧
    (Config.releaseFlag ∈ c.buildCommand.args ↔
      c.buildDir = join (join c.outputDir Loader.targetTriple) (ascii "release")) ∧
    (∀ outputs, ((build runner c).on s).1 = .ok outputs →
      (launched runner c.buildCommand s.host).1 = .ok () ∧
      outputs = Outputs.within c.outputDir ∧
      ∃ b m l module loader script,
        Deliverable c (runner c.buildCommand s.host).2 b m l module loader script ∧
        Publishable c (runner c.buildCommand s.host).2 ∧
        Delivered c (runner c.buildCommand s.host).2 ((build runner c).on s).2.host module.bytes
          script) ∧
    ∀ b m l module loader script, (launched runner c.buildCommand s.host).1 = .ok () →
      Deliverable c (runner c.buildCommand s.host).2 b m l module loader script →
      Publishable c (runner c.buildCommand s.host).2 →
      ((build runner c).on s).1 = .ok (Outputs.within c.outputDir) := by
  obtain ⟨⟨stage, hends⟩, hcalls⟩ := build_ends runner c s
  refine ⟨hcalls, releaseFlag_iff c, ?_⟩
  generalize ((build runner c).on s).1 = r at hends ⊢
  generalize ((build runner c).on s).2.host = after at hends ⊢
  rw [← launched_host] at ho ⊢
  cases hends with
  | launch hlaunch =>
      rw [hlaunch]
      exact ⟨nofun, nofun⟩
  | package hlaunch hends =>
      rw [hlaunch] at ho ⊢
      obtain ⟨hdelivers, hsucceeds⟩ := package_delivers ho hends
      refine ⟨fun outputs hok => ?_, fun b m l module loader script _ hd hp => ?_⟩
      · obtain ⟨houtputs, hdelivered⟩ := hdelivers outputs hok
        exact ⟨rfl, houtputs, hdelivered⟩
      · exact hsucceeds b m l module loader script hd hp

/-! ## A project -/

/-- What the toolchain leaves as the loader of the project below. -/
def sampleLoader : Bytes :=
  Loader.openingTemplate ++ Loader.entryPoint ++ Loader.closingTemplate

/-- A project in `/p` that was built, with a file `/p/keep` beside it and more entries in its
output directory, perhaps of the last inode, which nobody else may read. -/
def sample (more : List (Name × InodeNumber)) : Host where
  files := {
    inodes := #[
      ⟨.dir 0 [(ascii "p", 1)] false, Inode.directoryMode, 0⟩,
      ⟨.dir 0 [(Loader.targetDir, 2), (ascii "keep", 7)] false, Inode.directoryMode, 0⟩,
      ⟨.dir 1 ((Loader.targetTriple, 3) :: more) false, Inode.directoryMode, 0⟩,
      ⟨.dir 2 [(ascii "release", 4)] false, Inode.directoryMode, 0⟩,
      ⟨.dir 3 [(ascii "app.wasm", 5), (ascii "app.js", 6)] false, Inode.directoryMode, 0⟩,
      ⟨.file (.ofBytes (ascii "module")), Inode.fileMode, 0⟩,
      ⟨.file (.ofBytes sampleLoader), Inode.fileMode, 0⟩,
      ⟨.file (.ofBytes (ascii "kept")), Inode.fileMode, 0⟩,
      ⟨.file (.ofBytes (ascii "stale")), 0o600, 0⟩]
    clock := 1 }
  cwd := 0

def sampleConfig : Config := .standard (ascii "/p")

/-- A runner whose commands succeed and change nothing. -/
def idle : Runner := fun _ h => (.ok ⟨true, 0⟩, h)

def publishSample (h : Host) : Except Failure Outputs × Host :=
  Outputs.publish sampleConfig.outputDir (ascii "module")
    (Loader.entryPoint ++ Loader.initializeCall) h

theorem size_ofBytes (bytes : Bytes) : (Contents.ofBytes bytes).size = bytes.length :=
  Nat.add_zero _

/-- Counted in the bytes the loader is written in, since to take characters apart takes long. -/
theorem size_sampleLoader : (Contents.ofBytes sampleLoader).size ≤ loadLimit := by
  rw [size_ofBytes]
  simp only [sampleLoader, Loader.openingTemplate, Loader.closingTemplate, Loader.entryPoint,
    Bytes.unlines, List.flatMap_cons, List.flatMap_nil, List.length_append]
  repeat grw [Bytes.length_ascii_le]
  decide

theorem adapt_sample (file : Bytes) :
    Loader.adapt sampleLoader file = .ok (Loader.entryPoint ++ Loader.initializeCall) := by
  have stripped : Bytes.strip isSpace Loader.entryPoint = Loader.entryPoint := by decide
  rw [sampleLoader, Loader.adapt_of_templates (List.infix_refl _), stripped, Loader.assemble]

section Sample

variable {more : List (Name × InodeNumber)}

theorem mayPass_sample {d parent : InodeNumber} {entries : List (Name × InodeNumber)}
    (hi : (sample more).files.inode? d = some ⟨.dir parent entries false, Inode.directoryMode, 0⟩) :
    (sample more).files.mayPass d = .ok () := by
  have hgranted : Inode.directoryMode.testBit Access.execute.bit = true := by decide
  rw [mayPass, hi]
  exact if_pos hgranted

theorem enters_sample_join {dir : Bytes} {name : Name} {d n parent : InodeNumber}
    {entries : List (Name × InodeNumber)} (henters : (sample more).Enters dir d)
    (hname : IsName name) (hchild : (sample more).files.child? d name = some n)
    (hi : (sample more).files.inode? n = some ⟨.dir parent entries false, Inode.directoryMode, 0⟩) :
    (sample more).Enters (join dir name) n :=
  Host.enters_join henters hname hchild ⟨_, _, _, node?_of_inode? hi⟩ (mayPass_sample hi)

theorem enters_sample (more : List (Name × InodeNumber)) :
    (sample more).openDirectory sampleConfig.buildDir = .ok 4 ∧
      (sample more).Enters sampleConfig.buildDir 4 := by
  have htop : (sample more).Enters (ascii "/") 0 := ⟨by decide, rfl, mayPass_sample rfl⟩
  have hroot : (sample more).Enters sampleConfig.root 1 := by
    have heq : sampleConfig.root = join (ascii "/") (ascii "p") := by decide
    rw [heq]
    exact enters_sample_join htop (by decide) List.lookup_cons_self rfl
  have houtput : (sample more).Enters sampleConfig.outputDir 2 :=
    enters_sample_join hroot Config.isName_targetDir List.lookup_cons_self rfl
  have htriple : (sample more).Enters (join sampleConfig.outputDir Loader.targetTriple) 3 :=
    enters_sample_join houtput Config.isName_targetTriple List.lookup_cons_self rfl
  have hchild : (sample more).files.child? 3 sampleConfig.profile = some 4 :=
    List.lookup_cons_self
  have hread : Inode.directoryMode.testBit Access.read.bit = true := by decide
  refine ⟨Host.openDirectory_iff.mpr ⟨?_, _, rfl, rfl, hread⟩, ?_⟩
  · refine Host.locate_join htriple sampleConfig.isName_profile (by decide) hchild rfl ?_
    rintro ⟨target, hlink⟩
    cases hlink
  · exact enters_sample_join htriple sampleConfig.isName_profile hchild rfl

theorem child?_sample {name : Name} {n : InodeNumber}
    (hchild : (sample more).files.child? 4 name = some n) :
    name = ascii "app.wasm" ∧ n = 5 ∨ name = ascii "app.js" ∧ n = 6 := by
  have hmem : (name, n) ∈ [(ascii "app.wasm", 5), (ascii "app.js", 6)] :=
    mem_entries_of_child? hchild
  simpa using hmem

theorem plain_sample : (sample more).files.Plain 4 where
  distinct := by
    have heq : ((sample more).files.entries 4).map Prod.fst = [ascii "app.wasm", ascii "app.js"] :=
      rfl
    rw [heq]
    decide
  named := by
    intro name n hchild
    rcases child?_sample hchild with ⟨rfl, -⟩ | ⟨rfl, -⟩ <;> decide
  unlinked := by
    rintro name n hchild ⟨target, hnode⟩
    rcases child?_sample hchild with ⟨-, rfl⟩ | ⟨-, rfl⟩ <;> cases hnode

theorem hasFile_sample {name : Name} {n : InodeNumber} {contents : Contents}
    (hmem : (name, n) ∈ [(ascii "app.wasm", 5), (ascii "app.js", 6)])
    (hfile : (sample more).files.IsFile n contents) :
    (sample more).files.HasFile 4 name contents :=
  ⟨n, lookup_of_mem plain_sample.distinct hmem, hfile⟩

theorem sole_sample {name : Name} {n : InodeNumber} {contents : Contents} {extension : Bytes}
    (hmem : (name, n) ∈ [(ascii "app.wasm", 5), (ascii "app.js", 6)])
    (hfile : (sample more).files.IsFile n contents) (hextended : Path.extension name = extension)
    (honly : ∀ other, other = ascii "app.wasm" ∨ other = ascii "app.js" →
      Path.extension other = extension → other = name) :
    (sample more).files.Sole 4 extension name contents := by
  refine ⟨hasFile_sample hmem hfile, hextended, fun {other _} hother hext => ?_⟩
  obtain ⟨m, hchild, -⟩ := hother
  exact honly other ((child?_sample hchild).imp And.left And.left) hext

theorem deliverable_sample (more : List (Name × InodeNumber)) :
    Deliverable sampleConfig (sample more) 4 (ascii "app.wasm") (ascii "app.js")
      (.ofBytes (ascii "module")) (.ofBytes sampleLoader)
      (Loader.entryPoint ++ Loader.initializeCall) := by
  have readable : ∀ {name n} {contents : Contents},
      (name, n) ∈ [(ascii "app.wasm", 5), (ascii "app.js", 6)] →
        (sample more).files.inode? n = some ⟨.file contents, Inode.fileMode, 0⟩ →
          (join sampleConfig.buildDir name).length < pathLimit →
            (sample more).read (join sampleConfig.buildDir name) = .ok contents := by
    intro name n contents hmem hi hshort
    have hchild : (sample more).files.child? 4 name = some n :=
      lookup_of_mem plain_sample.distinct hmem
    have hgranted : Inode.fileMode.testBit Access.read.bit = true := by decide
    exact read_of_stat (Host.stat_join (enters_sample more).2 (plain_sample.named hchild) hshort
      hchild hi (plain_sample.unlinked hchild)) hgranted rfl
  have first : (ascii "app.wasm", 5) ∈ [(ascii "app.wasm", 5), (ascii "app.js", 6)] := .head _
  have second : (ascii "app.js", 6) ∈ [(ascii "app.wasm", 5), (ascii "app.js", 6)] :=
    .tail _ (.head _)
  exact {
    listed := (enters_sample more).1
    moduleSole := sole_sample first rfl (by decide) (by
      rintro other (rfl | rfl) hext
      · rfl
      · exact absurd hext (by decide))
    loaderSole := sole_sample second rfl (by decide) (by
      rintro other (rfl | rfl) hext
      · exact absurd hext (by decide)
      · rfl)
    moduleRead := readable first rfl (by decide)
    loaderRead := readable second rfl (by decide)
    moduleSize := by decide
    loaderSize := size_sampleLoader
    adapted := adapt_sample _ }

theorem sample_ends (more : List (Name × InodeNumber)) :
    PackageEnds sampleConfig (sample more) .publish (publishSample (sample more)).1
      (publishSample (sample more)).2 :=
  ends_of_deliverable (enters_sample more).2 plain_sample (by decide) (by decide)
    (deliverable_sample more) rfl

theorem launched_idle (h : Host) :
    launched idle sampleConfig.buildCommand h = (.ok (), h) := rfl

theorem build_sample (more : List (Name × InodeNumber)) :
    ((build idle sampleConfig).on ⟨sample more, none, []⟩).1 = (publishSample (sample more)).1 ∧
      ((build idle sampleConfig).on ⟨sample more, none, []⟩).2.host =
        (publishSample (sample more)).2 :=
  on_build_of_packaged (s := ⟨sample more, none, []⟩) (launched_idle (sample more))
    (sample_ends more)

end Sample

/-- Something staged earlier is no obstacle. -/
theorem orderly_sample : sampleConfig.Orderly (sample [(Outputs.stagingName Loader.scriptName, 8)])
    where
  tree := isTree_of_forall (by decide) (by decide)
  linkFree := linkFree_of_forall (by decide) _
  spareBinary := by decide
  spareScript := by decide

theorem publish_sample :
    (publishSample (sample [(Outputs.stagingName Loader.scriptName, 8)])).1 =
      .ok (Outputs.within sampleConfig.outputDir) := by decide

/-- A build of the project succeeds, also when an earlier one left a script staged. -/
theorem build_delivers_sample :
    let left := sample [(Outputs.stagingName Loader.scriptName, 8)]
    let built := (build idle sampleConfig).on ⟨left, none, []⟩
    sampleConfig.Orderly left ∧ built.1 = .ok (Outputs.within sampleConfig.outputDir) ∧
      ∃ b m l module loader script, Deliverable sampleConfig left b m l module loader script ∧
        Publishable sampleConfig left ∧
        Delivered sampleConfig left built.2.host module.bytes script := by
  -- over any file system, so that what `idle` leaves is never evaluated
  have delivers : ∀ h : Host, sampleConfig.Orderly h → ∀ outputs,
      ((build idle sampleConfig).on ⟨h, none, []⟩).1 = .ok outputs →
        ∃ b m l module loader script, Deliverable sampleConfig h b m l module loader script ∧
          Publishable sampleConfig h ∧
          Delivered sampleConfig h ((build idle sampleConfig).on ⟨h, none, []⟩).2.host module.bytes
            script :=
    fun h ho outputs hok =>
      ((build_delivers idle sampleConfig ⟨h, none, []⟩ ho).2.2.1 outputs hok).2.2
  obtain ⟨hresult, -⟩ := build_sample [(Outputs.stagingName Loader.scriptName, 8)]
  have hok := hresult.trans publish_sample
  exact ⟨orderly_sample, hok, delivers _ orderly_sample _ hok⟩

/-- What is staged is written to the file that stands at the staging name, whatever other names
that has: a build that succeeds can change a file that is none of its outputs. -/
theorem build_overwrites_second_name :
    let left := sample [(Outputs.stagingName Loader.binaryName, 7)]
    let built := (build idle sampleConfig).on ⟨left, none, []⟩
    left.files.IsTree ∧ left.LinkFree sampleConfig.root ∧
      built.1 = .ok (Outputs.within sampleConfig.outputDir) ∧
      left.contentsAt (ascii "/p/keep") = some (ascii "kept") ∧
      built.2.host.contentsAt (ascii "/p/keep") = some (ascii "module") := by
  obtain ⟨hresult, hhost⟩ := build_sample [(Outputs.stagingName Loader.binaryName, 7)]
  refine ⟨isTree_of_forall (by decide) (by decide),
    linkFree_of_forall (by decide) _, hresult.trans ?_, by decide, ?_⟩
  · decide
  · rw [hhost]
    decide

end Pipeline

end WasmPackager
