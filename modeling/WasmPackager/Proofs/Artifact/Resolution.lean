/-
# `Proofs.Artifact.Resolution` — what a scan of a directory comes to

`Artifact.filesOf` is what a directory has of one kind: its entries that are
files, or links that lead to files, with an extension that stands for the kind.
What a scan gives is a statement about these (`scan_resolves`): it finds one
file for each kind that is asked for, if there is one, and otherwise the first
kind of which there are none or several decides.  Nothing else in the directory
matters to it, and what is ignored is noted.

Names are sorted before anything is done with them.  Sorted lists with the same
members are the same (`Bytes.eq_sort_iff`), so the order in which the system
lists a directory cannot show, neither in what a scan gives nor in what it says.
-/
import Mathlib.Data.List.Find
import WasmPackager.Proofs.FileSystem.Relisting
import WasmPackager.Proofs.Pipeline.Steps

namespace WasmPackager

namespace Artifact

open Bytes

/-! ## Files by kind -/

/-- An entry of the directory with the path `dir` is a file, or a link that leads to one. -/
def LeadsToFile (h : Host) (dir : Bytes) (name : Name) (n : InodeNumber) : Prop :=
  (∃ contents, h.files.node? n = some (.file contents)) ∨
    (∃ target, h.files.node? n = some (.link target)) ∧
      ∃ i contents, h.stat (Path.join dir name) = .ok i ∧ i.node = .file contents

/-- The names of the files of a directory whose extensions stand for a kind, in the order in which
the directory lists them. -/
def filesOf (h : Host) (dir : Bytes) (d : InodeNumber) (extensions : ExtensionMap)
    (kind : ArtifactKind) : List Name :=
  (((h.files.entries d).filter (isRegular h dir)).map Prod.fst).filter fun name =>
    extensions.kindOf (Path.extension name) == kind

section Files

variable {h h' : Host} {dir : Bytes} {d : InodeNumber} {extensions : ExtensionMap}
  {kind : ArtifactKind} {name : Name}

theorem isRegularFile_iff {path : Bytes} :
    h.isRegularFile path = true ↔ ∃ i contents, h.stat path = .ok i ∧ i.node = .file contents := by
  rw [Host.isRegularFile]
  cases h.stat path with
  | error cause => simp
  | ok i =>
      cases hnode : i.node <;> simp [hnode, Node.isRegular]

theorem isRegular_iff {n : InodeNumber} :
    isRegular h dir (name, n) = true ↔ LeadsToFile h dir name n := by
  rw [LeadsToFile, isRegular, ← isRegularFile_iff]
  cases hnode : h.files.node? n with
  | none => simp
  | some node => cases node <;> simp [Node.isRegular]

theorem mem_filesOf_iff : name ∈ filesOf h dir d extensions kind ↔
    ∃ n, (name, n) ∈ h.files.entries d ∧ LeadsToFile h dir name n ∧
      extensions.kindOf (Path.extension name) = kind := by
  rw [filesOf, List.mem_filter, List.mem_map, beq_iff_eq]
  constructor
  · rintro ⟨⟨⟨other, n⟩, hmem, rfl⟩, hkind⟩
    obtain ⟨hentry, hregular⟩ := List.mem_filter.mp hmem
    exact ⟨n, hentry, isRegular_iff.mp hregular, hkind⟩
  · rintro ⟨n, hentry, hregular, hkind⟩
    exact ⟨⟨(name, n), List.mem_filter.mpr ⟨hentry, isRegular_iff.mpr hregular⟩, rfl⟩, hkind⟩

theorem filesOf_relisted (hr : h.Relisted h') :
    (filesOf h dir d extensions kind).Perm (filesOf h' dir d extensions kind) := by
  have hregular : isRegular h dir = isRegular h' dir := by
    funext ⟨name, n⟩
    rw [isRegular, isRegular, hr.isRegularFile_eq]
    rcases hr.files.node_cases n with ⟨hn, hn'⟩ | ⟨node, node', hn, hn', hnode⟩
    · rw [hn, hn']
    · simp only [hn, hn']
      cases hnode with
      | same => rfl
      | dir _ _ => rfl
  rw [filesOf, filesOf, hregular]
  exact (((hr.files.entries_perm d).filter _).map _).filter _

theorem candidates_of_kind (names : List Name) :
    (candidates dir extensions names).filter (·.kind == kind) =
      (sort (names.filter fun name => extensions.kindOf (Path.extension name) == kind)).map
        fun name => ⟨name, Path.join dir name, kind⟩ := by
  rw [candidates, List.filter_map, ← sort_filter]
  refine List.map_congr_left fun name hname => ?_
  have hkind := (List.mem_filter.mp hname).2
  simp only [Function.comp_apply, beq_iff_eq] at hkind
  rw [hkind]

theorem nodup_filesOf (hdistinct : ((h.files.entries d).map Prod.fst).Nodup) :
    (filesOf h dir d extensions kind).Nodup :=
  ((List.filter_sublist.map Prod.fst).nodup hdistinct).filter _

end Files

/-! ## One file of each kind -/

/-- A scan is asked for a kind if some extension stands for it, unless it is that of ignored
files. -/
def Asked (extensions : ExtensionMap) (kind : ArtifactKind) : Prop :=
  kind ≠ .ignored ∧ ∃ extension, (extension, kind) ∈ extensions

/-- Why there is not one file of a kind, if these are there. -/
def shortfall (dir : Bytes) (kind : ArtifactKind) : List Name → Failure
  | [] => .artifactMissing kind dir
  | names => .artifactAmbiguous kind dir names

/-- What is found if there are these files of each kind. -/
def resolution (dir : Bytes) (files : ArtifactKind → List Name) (kinds : List ArtifactKind) :
    Except Failure ArtifactSet :=
  match kinds.find? fun kind => (files kind).length != 1 with
  | none => .ok (kinds.map fun kind => (kind, Path.join dir ((files kind).headD [])))
  | some kind => .error (shortfall dir kind (sort (files kind)))

/-- The kind that decides that a scan fails: there is not one file of it, and it is the first such
kind, modules before scripts. -/
structure Decides (extensions : ExtensionMap) (files : ArtifactKind → List Name)
    (kind : ArtifactKind) : Prop where
  asked : Asked extensions kind
  notOne : (files kind).length ≠ 1
  first : kind = .loaderScript → Asked extensions .binaryModule → (files .binaryModule).length = 1

/-- What a scan has to give where there are these files of each kind. -/
structure Resolves (dir : Bytes) (extensions : ExtensionMap) (files : ArtifactKind → List Name)
    (result : Except Failure ArtifactSet) : Prop where
  ok_iff : (∃ found, result = .ok found) ↔ ∀ kind, Asked extensions kind → (files kind).length = 1
  keys : ∀ found, result = .ok found → (found.map Prod.fst).Nodup
  found : ∀ found, result = .ok found → ∀ kind path,
    (kind, path) ∈ found ↔
      Asked extensions kind ∧ ∃ name, files kind = [name] ∧ path = Path.join dir name
  failed : ∀ f, result = .error f → ∃ kind, Decides extensions files kind ∧
    (files kind = [] ∧ f = .artifactMissing kind dir ∨
      files kind ≠ [] ∧ ∃ names, names.Perm (files kind) ∧ names.Pairwise (· ≤ ·) ∧
        f = .artifactAmbiguous kind dir names)

section Selecting

variable {dir : Bytes} {extensions : ExtensionMap} {files files' : ArtifactKind → List Name}
  {kind : ArtifactKind} {kinds : List ArtifactKind}

theorem mem_required_iff : kind ∈ extensions.required ↔ Asked extensions kind := by
  have hscannable : kind ∈ ArtifactKind.scannable ↔ kind ≠ .ignored := by
    cases kind <;> decide
  have hsome : (extensions.any fun entry => entry.2 == kind) = true ↔
      ∃ extension, (extension, kind) ∈ extensions := by
    simp [List.any_eq_true]
  rw [ExtensionMap.required, List.mem_filter, hscannable, hsome, Asked]

theorem nodup_required : extensions.required.Nodup :=
  List.filter_sublist.nodup (by decide : ArtifactKind.scannable.Nodup)

/-- Modules are asked for before scripts. -/
theorem binary_of_find {p : ArtifactKind → Bool}
    (hfind : extensions.required.find? p = some .loaderScript)
    (hasked : Asked extensions .binaryModule) : p .binaryModule = false := by
  have hany := (List.mem_filter.mp (mem_required_iff.mpr hasked)).2
  rw [ExtensionMap.required, List.find?_filter, ArtifactKind.scannable, List.find?_cons,
    hany] at hfind
  cases hp : p .binaryModule with
  | false => rfl
  | true => simp [hp] at hfind

/-- What is selected of some candidates depends on the names there are of each kind. -/
theorem select_eq_resolution {candidates : List Candidate}
    (h : ∀ kind, candidates.filter (·.kind == kind) =
      (sort (files kind)).map fun name => ⟨name, Path.join dir name, kind⟩) :
    select dir candidates kinds = resolution dir files kinds := by
  induction kinds with
  | nil => rfl
  | cons kind rest ih =>
      have hlength : (sort (files kind)).length = (files kind).length :=
        (sort_perm (files kind)).length_eq
      rw [select, h kind, resolution, List.find?_cons]
      rcases hnames : sort (files kind) with _ | ⟨name, _ | ⟨other, more⟩⟩
      · simp [← hlength, hnames, shortfall]
      · have hone : files kind = [name] := by
          rw [← List.perm_singleton, ← hnames]
          exact (sort_perm (files kind)).symm
        simp only [List.map_cons, List.map_nil, ih, resolution, hone]
        cases rest.find? fun kind => (files kind).length != 1 with
        | none => simp [bind, Except.bind, pure, Except.pure]
        | some odd => simp [bind, Except.bind]
      · simp [← hlength, hnames, shortfall, Function.comp_def]

theorem resolution_congr (h : ∀ kind ∈ kinds, (files kind).Perm (files' kind)) :
    resolution dir files kinds = resolution dir files' kinds := by
  have hfind : (kinds.find? fun kind => (files kind).length != 1) =
      kinds.find? fun kind => (files' kind).length != 1 :=
    List.find?_congr fun kind hkind => by rw [(h kind hkind).length_eq]
  rw [resolution, resolution, hfind]
  cases hodd : kinds.find? fun kind => (files' kind).length != 1 with
  | none =>
      refine congrArg Except.ok (List.map_congr_left fun kind hkind => ?_)
      have hone : (files' kind).length = 1 := by simpa using List.find?_eq_none.mp hodd kind hkind
      obtain ⟨name, hname⟩ := List.length_eq_one_iff.mp hone
      have hperm := h kind hkind
      rw [hname, List.perm_singleton] at hperm
      rw [hname, hperm]
  | some kind =>
      have hperm := h kind (List.mem_of_find?_eq_some hodd)
      simp only [sort_congr hperm]

theorem resolution_ok_iff {found : ArtifactSet} :
    resolution dir files kinds = .ok found ↔ (∀ kind ∈ kinds, (files kind).length = 1) ∧
      found = kinds.map fun kind => (kind, Path.join dir ((files kind).headD [])) := by
  have hall : (kinds.find? fun kind => (files kind).length != 1) = none ↔
      ∀ kind ∈ kinds, (files kind).length = 1 := by
    simp [List.find?_eq_none]
  rw [resolution, ← hall]
  cases kinds.find? fun kind => (files kind).length != 1 with
  | none => simp [eq_comm]
  | some odd => simp

theorem resolution_error_iff {f : Failure} :
    resolution dir files kinds = .error f ↔
      ∃ kind, (kinds.find? fun kind => (files kind).length != 1) = some kind ∧
        f = shortfall dir kind (sort (files kind)) := by
  rw [resolution]
  cases kinds.find? fun kind => (files kind).length != 1 with
  | none => simp
  | some odd => simp [eq_comm]

theorem shortfall_cases (dir : Bytes) (kind : ArtifactKind) (names : List Name) :
    names = [] ∧ shortfall dir kind (sort names) = .artifactMissing kind dir ∨
      names ≠ [] ∧ shortfall dir kind (sort names) = .artifactAmbiguous kind dir (sort names) := by
  cases names with
  | nil => exact .inl ⟨rfl, rfl⟩
  | cons name rest =>
      refine .inr ⟨List.cons_ne_nil _ _, ?_⟩
      cases hsorted : sort (name :: rest) with
      | nil => exact absurd (hsorted ▸ sort_perm (name :: rest)).symm.eq_nil (List.cons_ne_nil _ _)
      | cons first others => rfl

theorem resolves_resolution (dir : Bytes) (extensions : ExtensionMap)
    (files : ArtifactKind → List Name) :
    Resolves dir extensions files (resolution dir files extensions.required) where
  ok_iff := by
    simp only [resolution_ok_iff, mem_required_iff, exists_and_left, exists_eq, and_true]
  keys found hok := by
    obtain ⟨-, rfl⟩ := resolution_ok_iff.mp hok
    simpa [Function.comp_def] using nodup_required
  found found hok kind path := by
    obtain ⟨hone, rfl⟩ := resolution_ok_iff.mp hok
    simp only [mem_required_iff] at hone
    rw [List.mem_map]
    constructor
    · rintro ⟨kind, hmem, heq⟩
      obtain ⟨rfl, rfl⟩ := Prod.mk.inj heq
      have hasked := mem_required_iff.mp hmem
      obtain ⟨name, hname⟩ := List.length_eq_one_iff.mp (hone kind hasked)
      exact ⟨hasked, name, hname, by rw [hname, List.headD_cons]⟩
    · rintro ⟨hasked, name, hname, rfl⟩
      exact ⟨kind, mem_required_iff.mpr hasked, by rw [hname, List.headD_cons]⟩
  failed f herror := by
    obtain ⟨kind, hfind, rfl⟩ := resolution_error_iff.mp herror
    refine ⟨kind, ⟨?_, ?_, ?_⟩, ?_⟩
    · exact mem_required_iff.mp (List.mem_of_find?_eq_some hfind)
    · simpa using List.find?_some hfind
    · rintro rfl hasked
      simpa using binary_of_find hfind hasked
    · rcases shortfall_cases dir kind (files kind) with ⟨hnone, hf⟩ | ⟨hsome, hf⟩
      · exact .inl ⟨hnone, hf⟩
      · exact .inr ⟨hsome, _, sort_perm _, pairwise_sort _, hf⟩

end Selecting

/-! ## Scanning -/

section Scanning

variable {h : Host} {s : Session} {dir : Bytes} {d : InodeNumber} {extensions : ExtensionMap}

/-- What a scan says of the files it ignores. -/
def ignoring (dir : Bytes) (names : List Name) : List Bytes :=
  names.map fun name => ascii "ignoring " ++ Path.join dir name

/-- Where a directory is listed, a scan finds what its files come to, and says which of them it
ignores. -/
theorem on_scan (hopen : s.host.openDirectory dir = .ok d) :
    (scan dir extensions).on s =
      (resolution dir (filesOf s.host dir d extensions) extensions.required,
        s.noted (ignoring dir (sort (filesOf s.host dir d extensions .ignored)))) := by
  have chosen : (scan dir extensions).on s = (scanOn dir extensions s.host).on s := rfl
  have hselect : ∀ kinds, select dir (candidates dir extensions
      (((s.host.files.entries d).filter (isRegular s.host dir)).map Prod.fst)) kinds =
        resolution dir (filesOf s.host dir d extensions) kinds := fun _ =>
    select_eq_resolution fun _ => candidates_of_kind _
  rw [chosen, scanOn, Host.isDirectory_of_opens hopen, Bool.not_true,
    if_neg Bool.false_ne_true, Step.on_bind, Step.on_looking, classify_of_opens hopen]
  simp only
  rw [Step.on_bind, Step.on_forM_note, candidates_of_kind, List.map_map]
  simp only [Step.on_ofExcept, hselect]
  rfl

/-- A scan of a directory finds one file for each kind it is asked for, or fails over the first
kind of which there are none or several, and it says once what it ignores.  No other entries matter,
and neither does the order in which entries are listed. -/
theorem scan_resolves (hopen : s.host.openDirectory dir = .ok d) (extensions : ExtensionMap) :
    let ran := (scan dir extensions).on s
    let files := filesOf s.host dir d extensions
    (∀ kind name, name ∈ files kind ↔
      ∃ n, (name, n) ∈ s.host.files.entries d ∧ LeadsToFile s.host dir name n ∧
        extensions.kindOf (Path.extension name) = kind) ∧
    (((s.host.files.entries d).map Prod.fst).Nodup → ∀ kind, (files kind).Nodup) ∧
    Resolves dir extensions files ran.1 ∧
    (∃ names, names.Perm (files .ignored) ∧ names.Pairwise (· ≤ ·) ∧
      ran.2 = s.noted (ignoring dir names)) ∧
    (∀ h' d', h'.openDirectory dir = .ok d' →
      (∀ kind, Asked extensions kind → (filesOf h' dir d' extensions kind).Perm (files kind)) →
      ((scan dir extensions).on { s with host := h' }).1 = ran.1) ∧
    ∀ h', s.host.Relisted h' →
      (scan dir extensions).on { s with host := h' } = (ran.1, { ran.2 with host := h' }) := by
  intro ran files
  have hran : ran = _ := on_scan hopen
  refine ⟨fun kind name => mem_filesOf_iff, fun hdistinct kind => nodup_filesOf hdistinct, ?_, ?_,
    fun h' d' hopen' hfiles => ?_, fun h' hr => ?_⟩
  · rw [hran]
    exact resolves_resolution dir extensions files
  · exact ⟨_, sort_perm _, pairwise_sort _, by rw [hran]⟩
  · rw [hran, on_scan (s := { s with host := h' }) hopen']
    exact resolution_congr fun kind hkind => hfiles kind (mem_required_iff.mp hkind)
  · have hfiles : ∀ kind, (filesOf s.host dir d extensions kind).Perm
        (filesOf h' dir d extensions kind) := fun kind => filesOf_relisted hr
    rw [hran, on_scan (s := { s with host := h' }) (hr.openDirectory_ok hopen),
      ← sort_congr (hfiles .ignored), ← resolution_congr fun kind _ => hfiles kind]
    rfl

end Scanning

/-- Extensions of which two stand for scripts. -/
def sampleExtensions : ExtensionMap :=
  [(ascii ".js", .loaderScript), (ascii ".map", .ignored), (ascii ".mjs", .loaderScript),
    (ascii ".wasm", .binaryModule)]

/-- What there is in a root directory: two scripts, a module, two files that are ignored, a
directory and a link that leads nowhere. -/
def sampleEntries : List (Name × InodeNumber) :=
  [(ascii "z.js", 1), (ascii ".js", 1), (ascii "m.wasm", 1), (ascii "old.wasm", 3),
    (ascii "sub.js", 2), (ascii "a.min.mjs", 1), (ascii "a.js.map", 1)]

def sampleHost (entries : List (Name × InodeNumber)) : Host :=
  ⟨⟨#[⟨.dir FileSystem.root entries false, Inode.directoryMode, 0⟩,
      ⟨.file .empty, Inode.fileMode, 0⟩,
      ⟨.dir FileSystem.root [] false, Inode.directoryMode, 0⟩,
      ⟨.link (ascii "gone.wasm"), Inode.linkMode, 0⟩], 0⟩, FileSystem.root⟩

theorem relisted_sample {entries entries' : List (Name × InodeNumber)}
    (hperm : entries.Perm entries') (hdistinct : (entries.map Prod.fst).Nodup) :
    (sampleHost entries).Relisted (sampleHost entries') := by
  have hroot : (sampleHost entries).files.inode? FileSystem.root =
      some ⟨.dir FileSystem.root entries false, Inode.directoryMode, 0⟩ := rfl
  exact Host.relisted_of_perm hroot hperm hdistinct

/-- Listed in either order, the directory has two scripts, and the files without a kind are
noted. -/
theorem scan_resolves_sample :
    let scanned (h : Host) := (scan (ascii "/") sampleExtensions).on ⟨h, some (.fresh true), []⟩
    let listed := sampleHost sampleEntries
    let reversed := sampleHost sampleEntries.reverse
    listed.openDirectory (ascii "/") = .ok FileSystem.root ∧ listed.Relisted reversed ∧
      (scanned reversed).1 = (scanned listed).1 ∧
      (scanned listed).1 = .error (.artifactAmbiguous .loaderScript (ascii "/")
        [ascii "a.min.mjs", ascii "z.js"]) ∧
      (scanned reversed).2.log.map Logger.text =
        some (ascii "note: ignoring /.js\nnote: ignoring /a.js.map\n") := by
  intro scanned listed reversed
  have hopen : listed.openDirectory (ascii "/") = .ok FileSystem.root := by decide
  have hrelisted : listed.Relisted reversed :=
    relisted_sample (List.reverse_perm sampleEntries).symm (by decide)
  obtain ⟨-, -, -, -, -, hsame⟩ :=
    scan_resolves (s := ⟨listed, some (.fresh true), []⟩) hopen sampleExtensions
  have hreversed : scanned reversed =
      ((scanned listed).1, { (scanned listed).2 with host := reversed }) :=
    hsame reversed hrelisted
  refine ⟨hopen, hrelisted, by rw [hreversed], by decide +kernel, ?_⟩
  rw [hreversed]
  decide +kernel

end Artifact
end WasmPackager
