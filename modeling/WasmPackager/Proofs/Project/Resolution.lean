/-
# `Proofs.Project.Resolution` — the directory decides, not how it is spelled

A root can be relative or absolute, hold dots, slashes to spare and links, or
be empty and mean the working directory.  `Leads h root n` says which directory
it leads to.  All that resolution goes on with is the path without links, which
is that of the directory (`resolve_of_leads`): what two roots that lead to one
directory come to is therefore the same, down to what is said of a line of the
manifest.  Nothing is assumed of the path without links but that there is one.

That path is a root like another, and leads to the directory as well, so a
configuration is found again from its own root.
-/
import WasmPackager.Project.Resolve
import WasmPackager.Proofs.FileSystem.Retracing
import WasmPackager.Proofs.Project.Manifest
import WasmPackager.Session

namespace WasmPackager.Project

open FileSystem WasmPackager.Path

inductive Leads (h : Host) : (root : Bytes) → InodeNumber → Prop
  | here : h.files.IsDirectory h.cwd → Leads h [] h.cwd
  | along {root : Bytes} {n : InodeNumber} : root ≠ [] → h.locate root true = .ok n →
      h.files.IsDirectory n → Leads h root n

/-- A root stands for a path that has one without links. -/
def HasCanonical (h : Host) (root : Bytes) : Prop :=
  ∃ dir path, rootPath h root = .ok dir ∧ h.canonical dir = .ok path

/-- What the manifest in a directory makes of the configuration that holds without one.  If nothing
is where the manifest would be, that stays; a manifest has to be readable and to describe what it
is to become. -/
def Configures (h : Host) (path : Bytes) (config : Config) : Prop :=
  let standard : Config := ⟨path, ascii "cargo", true⟩
  if h.pathExists (join path manifestName) then
    ∃ contents, h.read (join path manifestName) = .ok contents ∧
      Manifest.Describes (Manifest.lines contents.bytes) standard config
  else config = standard

section

variable {h : Host} {path : Bytes} {config : Config}

/-! ## The configuration of a directory -/

theorem readManifest_eq_ok_iff {base : Config} :
    readManifest h path base = .ok config ↔ ∃ contents, h.read path = .ok contents ∧
      Manifest.Describes (Manifest.lines contents.bytes) base config := by
  rw [readManifest]
  cases h.read path with
  | error cause => simp
  | ok contents => simp [Manifest.parse_eq_ok_iff]

theorem configure_of_exists (hexists : h.pathExists (join path manifestName) = true) :
    configure h path = readManifest h (join path manifestName) (.standard path) :=
  if_pos hexists

theorem configure_of_not_exists (hexists : ¬ h.pathExists (join path manifestName) = true) :
    configure h path = .ok (.standard path) :=
  if_neg hexists

theorem configure_eq_ok_iff : configure h path = .ok config ↔ Configures h path config := by
  by_cases hexists : h.pathExists (join path manifestName) = true
  · rw [configure_of_exists hexists, readManifest_eq_ok_iff, Configures]
    exact (iff_of_eq (if_pos hexists)).symm
  · rw [configure_of_not_exists hexists, Except.ok.injEq, eq_comm, Configures]
    exact (iff_of_eq (if_neg hexists)).symm

/-- A manifest has no say in where the project lies. -/
theorem Configures.root_eq (hconfig : Configures h path config) : config.root = path := by
  by_cases hexists : h.pathExists (join path manifestName) = true
  · obtain ⟨contents, -, entries, -, -, hsettles⟩ := (if_pos hexists).mp hconfig
    exact hsettles.root
  · rw [(if_neg hexists).mp hconfig]

theorem category_of_configure {f : Failure} (hf : configure h path = .error f) :
    f.category = .config := by
  by_cases hexists : h.pathExists (join path manifestName) = true
  · rw [configure_of_exists hexists, readManifest] at hf
    split at hf
    · cases hf
      rfl
    · rw [Manifest.parse] at hf
      split at hf
      · cases hf
      · cases hf
        rfl
  · rw [configure_of_not_exists hexists] at hf
    cases hf

/-! ## The root -/

variable {root dir : Bytes} {n : InodeNumber} {loc : Location}

theorem rootPath_of_ne_nil (hroot : root ≠ []) : rootPath h root = .ok root := by
  rw [rootPath, if_neg (by simpa using hroot)]

theorem resolve_of_directory (hdir : rootPath h root = .ok dir)
    (hdirectory : h.isDirectory dir = true) (hpath : h.canonical dir = .ok path) :
    resolve h root = configure h path := by
  rw [resolve, hdir]
  simp only [hdirectory, hpath, Bool.not_true, Bool.false_eq_true, if_false]

theorem category_of_resolve {f : Failure} (hf : resolve h root = .error f) :
    f.category = .config := by
  rw [resolve] at hf
  split at hf
  · cases hf
    rfl
  · split at hf
    · cases hf
      rfl
    · split at hf
      · cases hf
        rfl
      · exact category_of_configure hf

theorem Leads.isDirectory (hleads : Leads h root n) : h.files.IsDirectory n := by
  cases hleads with
  | here hcwd => exact hcwd
  | along _ _ hn => exact hn

theorem Leads.locate (hleads : Leads h root n) (hroot : root ≠ []) :
    h.locate root true = .ok n := by
  cases hleads with
  | here _ => exact absurd rfl hroot
  | along _ hn _ => exact hn

section IsTree

variable (htree : h.files.IsTree)

include htree

theorem resolve_of_leads (hleads : Leads h root n) (hcanonical : HasCanonical h root) :
    ∃ loc, h.files.namesOf n = some loc ∧ h.locate (ofLocation loc) true = .ok n ∧
      resolve h root = configure h (ofLocation loc) := by
  obtain ⟨dir, path, hdir, hpath⟩ := hcanonical
  have hlocate : h.locate dir true = .ok n := by
    cases hleads with
    | here _ =>
        obtain ⟨loc, hloc, rfl⟩ := Host.currentPath_eq_ok_iff.mp hdir
        exact Host.locate_of_canonical_ofLocation htree hloc hpath
    | along hroot hn _ =>
        rw [rootPath_of_ne_nil hroot, Except.ok.injEq] at hdir
        exact hdir ▸ hn
  obtain ⟨loc, hloc, rfl, hn⟩ := Host.of_canonical htree hpath hlocate
  have hdirectory := Host.isDirectory_eq_true_iff.mpr ⟨n, hlocate, hleads.isDirectory⟩
  exact ⟨loc, hloc, hn, resolve_of_directory hdir hdirectory hpath⟩

theorem resolve_ofLocation (hloc : h.files.namesOf n = some loc)
    (hn : h.locate (ofLocation loc) true = .ok n) :
    resolve h (ofLocation loc) = configure h (ofLocation loc) := by
  have hdirectory : h.files.IsDirectory n := (namesOf_eq_some_iff.mp hloc).1.isDirectory htree
  exact resolve_of_directory (rootPath_of_ne_nil (List.cons_ne_nil _ _))
    (Host.isDirectory_eq_true_iff.mpr ⟨n, hn, hdirectory⟩) (Host.canonical_ofLocation htree hloc hn)

theorem resolve_of_not_leads (hleads : ∀ n, ¬ Leads h root n) :
    resolve h root = .error (.rootNotDirectory root) := by
  rw [resolve]
  cases hdir : rootPath h root with
  | error cause => rfl
  | ok dir =>
      have hdirectory : ¬ h.isDirectory dir = true := by
        intro hdirectory
        obtain ⟨n, hn, hnode⟩ := Host.isDirectory_eq_true_iff.mp hdirectory
        by_cases hroot : root = []
        · subst hroot
          obtain ⟨loc, hloc, -⟩ := Host.currentPath_eq_ok_iff.mp hdir
          exact hleads _ (.here ((namesOf_eq_some_iff.mp hloc).1.isDirectory htree))
        · rw [rootPath_of_ne_nil hroot, Except.ok.injEq] at hdir
          exact hleads n (.along hroot (hdir ▸ hn) hnode)
      simp only [Bool.not_eq_true] at hdirectory
      simp [hdirectory]

end IsTree

end

/-- Roots that lead to one directory come to one result: a configuration, or a failure with its
message.  The configuration is what the manifest in that directory makes of the standard one for
the path of the directory, which goes from the root of the file system down through entries only;
and it is found again from its own root.  A root that leads to no directory is refused, and
whatever is refused is a matter of configuration.  The session is only looked at. -/
theorem resolve_by_directory (h : Host) (htree : h.files.IsTree) (root : Bytes) :
    (∀ n, Leads h root n → HasCanonical h root →
      (∀ root', Leads h root' n → HasCanonical h root' → resolve h root' = resolve h root) ∧
      ∃ loc : Location, (∀ name ∈ loc, IsName name) ∧ h.files.at? loc = some n ∧
        h.locate (ofLocation loc) true = .ok n ∧
        (∀ config, resolve h root = .ok config ↔ Configures h (ofLocation loc) config) ∧
        ∀ config, resolve h root = .ok config →
          config.root = ofLocation loc ∧ resolve h config.root = .ok config) ∧
    ((∀ n, ¬ Leads h root n) → resolve h root = .error (.rootNotDirectory root)) ∧
    (∀ f, resolve h root = .error f → f.category = .config) ∧
    ∀ s : Session, s.host = h → (Step.looking (resolve · root)).on s = (resolve h root, s) := by
  refine ⟨fun n hleads hcanonical => ?_, resolve_of_not_leads htree, fun f => category_of_resolve,
    fun s hs => by rw [Step.on_looking, hs]⟩
  obtain ⟨loc, hloc, hn, hresolve⟩ := resolve_of_leads htree hleads hcanonical
  have hlies : h.files.Lies n loc := (namesOf_eq_some_iff.mp hloc).1
  have configured : ∀ config, resolve h root = .ok config ↔ Configures h (ofLocation loc) config :=
    fun config => by rw [hresolve, configure_eq_ok_iff]
  refine ⟨fun root' hleads' hcanonical' => ?_,
    loc, hlies.named htree, hlies.at? htree, hn, configured, fun config hconfig => ?_⟩
  · obtain ⟨loc', hloc', -, hresolve'⟩ := resolve_of_leads htree hleads' hcanonical'
    obtain rfl : loc' = loc := Option.some.inj (hloc'.symm.trans hloc)
    rw [hresolve', hresolve]
  · have hroot : config.root = ofLocation loc := ((configured config).mp hconfig).root_eq
    refine ⟨hroot, ?_⟩
    rw [hroot, resolve_ofLocation htree hloc hn, ← hresolve]
    exact hconfig

/-- A host in the directory `/p`, with a manifest in it and a link to it in the root directory. -/
def sampleHost : Host where
  files := {
    inodes := #[
      ⟨.dir 0 [(ascii "p", 1), (ascii "l", 3)] false, Inode.directoryMode, 0⟩,
      ⟨.dir 0 [(manifestName, 2)] false, Inode.directoryMode, 0⟩,
      ⟨.file (.ofBytes (ascii "# debug\nrelease\toff\n")), Inode.fileMode, 0⟩,
      ⟨.link (ascii "p/."), Inode.linkMode, 0⟩]
    clock := 1 }
  cwd := 1

/-- Left empty, and through the link, the root leads to the directory, whose manifest is read; the
manifest is no directory. -/
theorem resolve_by_directory_sample :
    let around := ascii "..//l/"
    let wrong := ascii "screeps.project"
    sampleHost.files.IsTree ∧ Leads sampleHost [] 1 ∧ Leads sampleHost around 1 ∧
      HasCanonical sampleHost [] ∧ HasCanonical sampleHost around ∧
      resolve sampleHost around = resolve sampleHost [] ∧
      resolve sampleHost around = .ok ⟨ascii "/p", ascii "cargo", false⟩ ∧
      (∀ n, ¬ Leads sampleHost wrong n) ∧
      resolve sampleHost wrong = .error (.rootNotDirectory wrong) := by
  intro around wrong
  have htree : sampleHost.files.IsTree := isTree_of_forall (by decide) (by decide)
  have hdirectory : sampleHost.files.IsDirectory 1 := ⟨_, _, _, rfl⟩
  have hempty : Leads sampleHost [] 1 := .here hdirectory
  have haround : Leads sampleHost around 1 := .along (by decide) (by decide) hdirectory
  have hcanonical : HasCanonical sampleHost [] := ⟨ascii "/p", ascii "/p", by decide, by decide⟩
  have hcanonical' : HasCanonical sampleHost around := ⟨around, ascii "/p", by decide, by decide⟩
  have hwrong : ∀ n, ¬ Leads sampleHost wrong n := by
    intro n hleads
    have hplace : sampleHost.locate wrong true = .ok 2 := by decide
    have hn : n = 2 := Except.ok.inj ((hleads.locate (by decide)).symm.trans hplace)
    obtain ⟨parent, entries, removed, hnode⟩ := hn ▸ hleads.isDirectory
    cases hnode
  obtain ⟨same, -⟩ := (resolve_by_directory sampleHost htree []).1 1 hempty hcanonical
  exact ⟨htree, hempty, haround, hcanonical, hcanonical', same around haround hcanonical',
    by decide, hwrong, (resolve_by_directory sampleHost htree wrong).2.1 hwrong⟩

end WasmPackager.Project
