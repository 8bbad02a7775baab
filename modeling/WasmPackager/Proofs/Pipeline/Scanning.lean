/-
# `Proofs.Pipeline.Scanning` — what a scan finds, and what is loaded of it

A scan sorts the names of a directory's regular files, gives each a kind and
asks for one of each kind.  None of this shows in what it finds: on a directory
without links a scan finds two paths exactly if there is one file with each of
the two extensions (`FileSystem.Sole`), and the paths are those of these files
(`finds_iff`).

A file is loaded exactly if the system lets it be read and it is not too large
(`load_iff`).
-/
import WasmPackager.Proofs.Pipeline.Stages
import WasmPackager.Proofs.FileSystem.Lookup

namespace WasmPackager

theorem filter_eq_singleton_iff {α : Type} {xs : List α} {p : α → Bool} {x : α} (h : xs.Nodup) :
    xs.filter p = [x] ↔ x ∈ xs ∧ p x = true ∧ ∀ y ∈ xs, p y = true → y = x := by
  constructor
  · intro heq
    have hmem : ∀ y, y ∈ xs.filter p ↔ y = x := fun y => by rw [heq, List.mem_singleton]
    obtain ⟨hx, hp⟩ := List.mem_filter.mp ((hmem x).mpr rfl)
    exact ⟨hx, hp, fun y hy hpy => (hmem y).mp (List.mem_filter.mpr ⟨hy, hpy⟩)⟩
  · rintro ⟨hx, hp, honly⟩
    have hmem : x ∈ xs.filter p := List.mem_filter.mpr ⟨hx, hp⟩
    have hsame : ∀ y ∈ xs.filter p, y = x := fun y hy =>
      honly y (List.mem_filter.mp hy).1 (List.mem_filter.mp hy).2
    have hnodup := h.filter p
    rcases hfilter : xs.filter p with _ | ⟨y, _ | ⟨z, rest⟩⟩
    · simp [hfilter] at hmem
    · rw [hsame y (by simp [hfilter])]
    · rw [hfilter] at hnodup
      have hyz : y = z := (hsame y (by simp [hfilter])).trans (hsame z (by simp [hfilter])).symm
      simp [hyz] at hnodup

/-! ## Files of a directory -/

namespace FileSystem

variable {fs : FileSystem} {d : InodeNumber} {name : Name} {extension : Bytes} {contents : Contents}

/-- A directory has a regular file of the name, with the contents. -/
def HasFile (fs : FileSystem) (d : InodeNumber) (name : Name) (contents : Contents) : Prop :=
  ∃ n, fs.child? d name = some n ∧ fs.IsFile n contents

/-- A directory has exactly one regular file with the extension: this one. -/
structure Sole (fs : FileSystem) (d : InodeNumber) (extension : Bytes) (name : Name)
    (contents : Contents) : Prop where
  found : fs.HasFile d name contents
  extended : Path.extension name = extension
  only : ∀ {other contents'}, fs.HasFile d other contents' → Path.extension other = extension →
    other = name

theorem HasFile.unique {contents' : Contents} (h : fs.HasFile d name contents)
    (h' : fs.HasFile d name contents') : contents' = contents := by
  obtain ⟨n, hchild, hfile⟩ := h
  obtain ⟨n', hchild', hfile'⟩ := h'
  obtain rfl := Option.some.inj (hchild.symm.trans hchild')
  rw [IsFile] at hfile hfile'
  rw [hfile] at hfile'
  simpa using hfile'.symm

/-- A directory whose entries have proper and distinct names and are no links. -/
structure Plain (fs : FileSystem) (d : InodeNumber) : Prop where
  distinct : ((fs.entries d).map Prod.fst).Nodup
  named : ∀ {name n}, fs.child? d name = some n → Path.IsName name
  unlinked : ∀ {name n}, fs.child? d name = some n → ¬ fs.IsLink n

end FileSystem

namespace Artifact

open FileSystem

variable {h : Host} {dir : Bytes} {d : InodeNumber} {name : Name}

theorem mem_regular_iff (hplain : h.files.Plain d) :
    name ∈ ((h.files.entries d).filter (isRegular h dir)).map Prod.fst ↔
      ∃ contents, h.files.HasFile d name contents := by
  rw [List.mem_map]
  constructor
  · rintro ⟨⟨other, n⟩, hmem, rfl⟩
    obtain ⟨hentry, hregular⟩ := List.mem_filter.mp hmem
    have hchild : h.files.child? d other = some n := lookup_of_mem hplain.distinct hentry
    have hlink := hplain.unlinked hchild
    simp only [isRegular] at hregular
    cases hnode : h.files.node? n with
    | none => simp [hnode] at hregular
    | some node =>
        cases node with
        | file contents => exact ⟨contents, n, hchild, hnode⟩
        | link target => exact absurd ⟨target, hnode⟩ hlink
        | dir _ _ _ | device _ | fifo _ => simp [hnode, Node.isRegular] at hregular
  · rintro ⟨contents, n, hchild, hfile⟩
    refine ⟨(name, n), List.mem_filter.mpr ⟨mem_entries_of_child? hchild, ?_⟩, rfl⟩
    simp only [isRegular, show h.files.node? n = _ from hfile, Node.isRegular]

/-- The one candidate of a kind is the one file whose extension stands for it. -/
theorem candidates_filter_iff (hplain : h.files.Plain d) {extensions : ExtensionMap}
    {kind : ArtifactKind} {extension : Bytes}
    (hkind : ∀ other, extensions.kindOf other = kind ↔ other = extension) {file : Candidate} :
    (candidates dir extensions
        (((h.files.entries d).filter (isRegular h dir)).map Prod.fst)).filter (·.kind == kind) =
        [file] ↔
      ∃ name contents, h.files.Sole d extension name contents ∧
        file = ⟨name, Path.join dir name, kind⟩ := by
  have hregular : ∀ name, name ∈ ((h.files.entries d).filter (isRegular h dir)).map Prod.fst ↔
      ∃ contents, h.files.HasFile d name contents := fun _ => mem_regular_iff hplain
  have hnodup : (((h.files.entries d).filter (isRegular h dir)).map Prod.fst).Nodup :=
    (List.filter_sublist.map Prod.fst).nodup hplain.distinct
  generalize ((h.files.entries d).filter (isRegular h dir)).map Prod.fst = names at *
  have hsorted : ∀ (p : Name → Bool) (name : Name),
      (Bytes.sort names).filter p = [name] ↔ names.filter p = [name] := by
    intro p name
    rw [← List.perm_singleton, ← List.perm_singleton]
    exact ((Bytes.sort_perm names).filter p).congr_left [name]
  have hextension : ∀ other, (extensions.kindOf (Path.extension other) == kind) = true ↔
      Path.extension other = extension := fun other => by
    rw [beq_iff_eq, hkind]
  rw [candidates, List.filter_map, List.map_eq_singleton_iff]
  constructor
  · rintro ⟨name, hfilter, rfl⟩
    obtain ⟨hmem, hext, honly⟩ := (filter_eq_singleton_iff hnodup).mp ((hsorted _ name).mp hfilter)
    obtain ⟨contents, hfound⟩ := (hregular name).mp hmem
    refine ⟨name, contents, ⟨hfound, (hextension name).mp hext, ?_⟩, ?_⟩
    · intro other contents' hother hotherExt
      exact honly other ((hregular other).mpr ⟨contents', hother⟩)
        ((hextension other).mpr hotherExt)
    · rw [(hkind _).mpr ((hextension name).mp hext)]
  · rintro ⟨name, contents, hsole, rfl⟩
    refine ⟨name, (hsorted _ name).mpr ((filter_eq_singleton_iff hnodup).mpr ⟨?_, ?_, ?_⟩), ?_⟩
    · exact (hregular name).mpr ⟨contents, hsole.found⟩
    · exact (hextension name).mpr hsole.extended
    · intro other hmem hext
      obtain ⟨contents', hother⟩ := (hregular other).mp hmem
      exact hsole.only hother ((hextension other).mp hext)
    · rw [(hkind _).mpr hsole.extended]

theorem select_cons_iff {files : List Candidate} {kind : ArtifactKind} {rest : List ArtifactKind}
    {found : ArtifactSet} :
    select dir files (kind :: rest) = .ok found ↔
      ∃ file others, files.filter (·.kind == kind) = [file] ∧
        select dir files rest = .ok others ∧ found = (kind, file.path) :: others := by
  rw [select]
  split
  · next hnone => simp [hnone]
  · next file hone =>
      cases hrest : select dir files rest with
      | error f => simp [bind, Except.bind]
      | ok others =>
          constructor
          · intro heq
            exact ⟨file, others, hone, rfl, (Except.ok.inj heq).symm⟩
          · rintro ⟨file', others', hfile', hothers', rfl⟩
            cases hone.symm.trans hfile'
            cases hothers'
            rfl
  · next hnone hone =>
      constructor
      · intro herror
        cases herror
      · rintro ⟨file, -, hfile, -⟩
        exact absurd hfile (hone file)

theorem select_pair_iff {files : List Candidate} {kind kind' : ArtifactKind} {found : ArtifactSet} :
    select dir files [kind, kind'] = .ok found ↔
      ∃ file file', files.filter (·.kind == kind) = [file] ∧
        files.filter (·.kind == kind') = [file'] ∧
        found = [(kind, file.path), (kind', file'.path)] := by
  have nothing : ∀ others, select dir files [] = .ok others ↔ others = [] := by
    intro others
    rw [select]
    exact ⟨fun heq => (Except.ok.inj heq).symm, fun heq => heq ▸ rfl⟩
  simp only [select_cons_iff, nothing]
  constructor
  · rintro ⟨file, -, hfile, ⟨file', -, hfile', rfl, rfl⟩, rfl⟩
    exact ⟨file, file', hfile, hfile', rfl⟩
  · rintro ⟨file, file', hfile, hfile', rfl⟩
    exact ⟨file, _, hfile, ⟨file', [], hfile', rfl, rfl⟩, rfl⟩

theorem opens_of_scan {found : ArtifactSet}
    (hscan : (scan dir .standard).verdict h = .ok found) : ∃ d, h.openDirectory dir = .ok d := by
  rw [verdict_scan, Pipeline.required_standard] at hscan
  split at hscan
  · rw [classify] at hscan
    cases hopen : h.openDirectory dir with
    | error cause => simp [hopen, Except.bind] at hscan
    | ok d => exact ⟨d, rfl⟩
  · obtain ⟨file, -, hfile, -⟩ := select_pair_iff.mp hscan
    cases hfile

theorem verdict_scan_of_opens (hopen : h.openDirectory dir = .ok d) :
    (scan dir .standard).verdict h =
      select dir (candidates dir .standard
        (((h.files.entries d).filter (isRegular h dir)).map Prod.fst))
        [.binaryModule, .loaderScript] := by
  rw [verdict_scan, Pipeline.required_standard, if_pos (Host.isDirectory_of_opens hopen),
    classify_of_opens hopen]
  rfl

end Artifact

namespace Pipeline

open FileSystem

variable {c : Config} {h : Host} {b : InodeNumber}

theorem kindOf_binary (extension : Bytes) :
    ExtensionMap.standard.kindOf extension = .binaryModule ↔
      extension = Loader.binaryExtension := by
  rw [ExtensionMap.kindOf, ExtensionMap.standard, List.lookup_cons, List.lookup_cons]
  by_cases hscript : extension = Loader.scriptExtension
  · subst hscript
    decide
  · by_cases hbinary : extension = Loader.binaryExtension
    · subst hbinary
      decide
    · simp [hbinary, beq_false_of_ne hscript, beq_false_of_ne hbinary]

theorem kindOf_script (extension : Bytes) :
    ExtensionMap.standard.kindOf extension = .loaderScript ↔
      extension = Loader.scriptExtension := by
  rw [ExtensionMap.kindOf, ExtensionMap.standard, List.lookup_cons, List.lookup_cons]
  by_cases hscript : extension = Loader.scriptExtension
  · simp [hscript]
  · by_cases hbinary : extension = Loader.binaryExtension
    · subst hbinary
      decide
    · simp [hscript, beq_false_of_ne hscript, beq_false_of_ne hbinary]

theorem finds_iff (hopen : h.openDirectory c.buildDir = .ok b) (hplain : h.files.Plain b)
    {binaryPath scriptPath : Bytes} :
    Finds c h binaryPath scriptPath ↔
      ∃ m l module loader, h.files.Sole b Loader.binaryExtension m module ∧
        h.files.Sole b Loader.scriptExtension l loader ∧
        binaryPath = Path.join c.buildDir m ∧ scriptPath = Path.join c.buildDir l := by
  rw [Finds, Artifact.verdict_scan_of_opens hopen]
  simp only [Artifact.select_pair_iff, Artifact.candidates_filter_iff hplain kindOf_binary,
    Artifact.candidates_filter_iff hplain kindOf_script]
  constructor
  · rintro ⟨found, ⟨-, -, ⟨m, module, hmodule, rfl⟩, ⟨l, loader, hloader, rfl⟩, rfl⟩, hbinary,
      hscript⟩
    exact ⟨m, l, module, loader, hmodule, hloader, (Option.some.inj hbinary).symm,
      (Option.some.inj hscript).symm⟩
  · rintro ⟨m, l, module, loader, hmodule, hloader, rfl, rfl⟩
    exact ⟨_, ⟨_, _, ⟨m, module, hmodule, rfl⟩, ⟨l, loader, hloader, rfl⟩, rfl⟩, rfl, rfl⟩

theorem load_iff {path : Bytes} {i : Inode} {contents : Contents} {bytes : Bytes}
    (hstat : h.stat path = .ok i) (hnode : i.node = .file contents) :
    load h path = .ok bytes ↔
      h.read path = .ok contents ∧ contents.size ≤ loadLimit ∧ bytes = contents.bytes := by
  have hdir : h.isDirectory path = false := by
    rw [Host.isDirectory_of_stat hstat, hnode]
    rfl
  have hfinite : h.isEndless path = false := by
    obtain ⟨node, mode, modified⟩ := i
    obtain rfl : node = .file contents := hnode
    rw [Host.isEndless, hstat]
  have hread : h.read path = .ok contents ∨ ∃ cause, h.read path = .error cause := by
    rw [Host.read, hstat]
    simp only [bind, Except.bind, Host.demand]
    split
    · exact .inr ⟨_, rfl⟩
    · rw [hnode]
      exact .inl rfl
  rcases hread with hok | ⟨cause, herror⟩
  · simp only [load, hok, hdir, hfinite, Bool.false_or, decide_eq_true_eq, Bool.false_eq_true,
      if_false]
    by_cases hsize : loadLimit < contents.size
    · rw [if_pos hsize]
      constructor
      · intro herror
        cases herror
      · rintro ⟨-, hle, -⟩
        exact absurd hle (Nat.not_le.mpr hsize)
    · rw [if_neg hsize]
      constructor
      · exact fun heq => ⟨trivial, Nat.le_of_not_lt hsize, (Except.ok.inj heq).symm⟩
      · rintro ⟨-, -, rfl⟩
        rfl
  · have hfailed : ∀ {bytes}, load h path ≠ .ok bytes := by
      intro bytes hload
      rw [load, herror] at hload
      cases cause <;> cases hload
    simp [herror, hfailed]

end Pipeline

end WasmPackager
