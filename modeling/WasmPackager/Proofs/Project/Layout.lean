/-
# `Proofs.Project.Layout` — the directories of a project

What the toolchain leaves lies two directories below the one that is published
in, which is one below the project's root.  On an orderly file system
(`Config.Orderly`: a tree, with no links at or below the root, and with nothing
at the staging names but directories and files that have no other name) it is
enough that the toolchain's directory can be listed: then the output directory
is fit for publishing, and is another one (`layout_of_opens`).

A root whose path holds a zero byte is odd: the system does not read on, so all
directories of the project are one (`isDirectory_of_zero`).
-/
import WasmPackager.Project.Config
import WasmPackager.Proofs.Pipeline.Scanning
import WasmPackager.Proofs.Publishing

namespace WasmPackager

open FileSystem WasmPackager.Path

/-- Whatever a path leads to is a directory, or a regular file that has no other name. -/
def Host.isSpare (h : Host) (path : Bytes) : Bool :=
  match h.locate path true with
  | .ok n => (h.files.node? n).any fun node =>
      node.isDirectory || (node.isRegular && h.files.nameCount n == 1)
  | .error _ => true

theorem Host.of_isSpare {h : Host} {path : Bytes} {n : InodeNumber} (hspare : h.isSpare path = true)
    (hn : h.locate path true = .ok n) (hplain : ¬ h.files.IsDirectory n) :
    (∃ contents, h.files.IsFile n contents) ∧ h.files.nameCount n = 1 := by
  rw [isSpare, hn, Option.any_eq_true] at hspare
  obtain ⟨node, hnode, hkind⟩ := hspare
  cases node with
  | file contents =>
      exact ⟨⟨contents, hnode⟩, by simpa [Node.isDirectory, Node.isRegular] using hkind⟩
  | dir parent entries removed => exact absurd ⟨parent, entries, removed, hnode⟩ hplain
  | link _ | device _ | fifo _ => cases hkind

namespace Config

/-- A file system on which packaging a project concerns nobody else. -/
structure Orderly (c : Config) (h : Host) : Prop where
  tree : h.files.IsTree
  linkFree : h.LinkFree c.root
  spareBinary : h.isSpare (Outputs.staging (Outputs.within c.outputDir).binary) = true
  spareScript : h.isSpare (Outputs.staging (Outputs.within c.outputDir).script) = true

/-- The name of the directory for the kind of build that is wanted. -/
def profile (c : Config) : Name := if c.release then ascii "release" else ascii "debug"

theorem isName_targetDir : IsName Loader.targetDir := by decide

theorem isName_targetTriple : IsName Loader.targetTriple := by decide

theorem isName_profile (c : Config) : IsName c.profile := by
  rw [profile]
  split <;> decide

theorem outputDir_eq (c : Config) : c.outputDir = join c.root Loader.targetDir := rfl

theorem buildDir_eq (c : Config) :
    c.buildDir = join (join c.outputDir Loader.targetTriple) c.profile := rfl

variable {c : Config} {h : Host} {b : InodeNumber}

theorem length_published {name : Name} (hname : Outputs.IsOutput name ∨ Outputs.IsStaging name) :
    (join c.outputDir name).length ≤ c.buildDir.length := by
  have shorter : name.length ≤ Loader.targetTriple.length := by
    rcases hname with (rfl | rfl) | (rfl | rfl) <;> decide
  exact Nat.le_trans (length_join_le_length_join c.outputDir shorter) (length_le_length_join _ _)

theorem Orderly.spare (ho : c.Orderly h) {name : Name} (hname : Outputs.IsStaging name) :
    h.isSpare (join c.outputDir name) = true := by
  rcases hname with rfl | rfl
  · rw [← Outputs.staging_join]
    exact ho.spareBinary
  · rw [← Outputs.staging_join]
    exact ho.spareScript

/-- All paths of a project lead to one directory if the system does not read the root's to the
end. -/
theorem isDirectory_of_zero (hzero : 0 ∈ c.root) (hopen : h.openDirectory c.buildDir = .ok b) :
    h.isDirectory c.outputDir = true ∧ ∀ name, h.isDirectory (join c.outputDir name) = true := by
  have houtput : 0 ∈ c.outputDir := by
    refine Decidable.byContradiction fun hfree => ?_
    exact (Host.zeroFree_join isName_targetDir).mp hfree hzero
  have htriple : 0 ∈ join c.outputDir Loader.targetTriple := by
    refine Decidable.byContradiction fun hfree => ?_
    exact (Host.zeroFree_join isName_targetTriple).mp hfree houtput
  have hbuild : Host.readable c.buildDir = Host.readable c.outputDir := by
    rw [buildDir_eq, Host.readable_join_of_zero htriple, Host.readable_join_of_zero houtput]
  obtain ⟨hlocate, i, hi, hdir, -⟩ := Host.openDirectory_iff.mp hopen
  have hstat := Host.stat_of_locate hlocate hi
  have same : ∀ path, Host.readable path = Host.readable c.outputDir →
      h.isDirectory path = true := by
    intro path heq
    rw [Host.isDirectory_of_stat ((Host.stat_congr (heq.trans hbuild.symm)).trans hstat)]
    exact hdir
  exact ⟨same _ rfl, fun name => same _ (Host.readable_join_of_zero houtput name)⟩

theorem Orderly.inside_output (ho : c.Orderly h) : h.Inside c.root c.outputDir :=
  (Host.Inside.self c.root).join ho.linkFree isName_targetDir

theorem Orderly.inside_build (ho : c.Orderly h) : h.Inside c.root c.buildDir :=
  (ho.inside_output.join ho.linkFree isName_targetTriple).join ho.linkFree c.isName_profile

theorem fit_of_enters (ho : c.Orderly h) {r t m : InodeNumber} (hr : h.Enters c.root r)
    (ht : h.Enters c.outputDir t) (htarget : h.files.child? r Loader.targetDir = some t)
    (htriple : h.files.child? t Loader.targetTriple = some m)
    (hshort : c.buildDir.length < pathLimit) : Outputs.Fit h c.outputDir t := by
  have hleads : h.files.Leads := fun hchild => ho.tree.leads _ _ (mem_entries_of_child? hchild)
  have short : ∀ {name}, Outputs.IsOutput name ∨ Outputs.IsStaging name →
      (join c.outputDir name).length < pathLimit := fun hname =>
    Nat.lt_of_le_of_lt (length_published hname) hshort
  have unlinked : ∀ {name n}, h.files.child? t name = some n → ¬ h.files.IsLink n := fun hchild =>
    ho.inside_output.unlinked ho.linkFree ht.reaches hchild
  have hdir := ht.reaches.isDirectory
  refine ⟨ht, ?_, ?_, short, hleads, fun _ hchild => unlinked hchild, ?_⟩
  · obtain ⟨i, hi⟩ := hleads htarget
    have hrootShort : (join c.root Loader.targetDir).length < pathLimit := by
      refine Nat.lt_of_le_of_lt ?_ hshort
      exact Nat.le_trans (length_le_length_join _ _) (length_le_length_join _ _)
    have hunlinked := (Host.Inside.self c.root).unlinked ho.linkFree hr.reaches htarget
    rw [outputDir_eq, Host.isDirectory_of_stat
      (Host.stat_join hr isName_targetDir hrootShort htarget hi hunlinked)]
    rw [isDirectory_iff, node?_of_inode? hi] at hdir
    exact hdir
  · intro parent entries hnode
    rw [child?_of_node hnode, ho.tree.emptied hnode] at htriple
    cases htriple
  · intro name hname n hchild hplain
    obtain ⟨i, hi⟩ := hleads hchild
    have hlocate : h.locate (join c.outputDir name) true = .ok n :=
      Host.locate_join ht hname.isName (short (.inr hname)) hchild hi (unlinked hchild)
    obtain ⟨hfile, hcount⟩ := Host.of_isSpare (ho.spare hname) hlocate hplain
    exact ⟨hfile, fun hother => entry_unique hplain (Nat.le_of_eq hcount) hchild hother⟩

theorem layout_of_opens (ho : c.Orderly h) (hzero : 0 ∉ c.root)
    (hopen : h.openDirectory c.buildDir = .ok b) :
    c.buildDir.length < pathLimit ∧
      ∃ t, Outputs.Fit h c.outputDir t ∧ h.Reaches c.buildDir b ∧ h.files.Plain b ∧ t ≠ b := by
  have hzeroOutput : 0 ∉ c.outputDir := (Host.zeroFree_join isName_targetDir).mpr hzero
  obtain ⟨hlocate, i, hi, hnode, -⟩ := Host.openDirectory_iff.mp hopen
  have hb : h.files.IsDirectory b := isDirectory_iff.mpr (by rw [node?_of_inode? hi]; exact hnode)
  have hinTriple := ho.inside_output.join ho.linkFree isName_targetTriple
  rw [buildDir_eq] at hlocate
  obtain ⟨hshort, m, hm, hprofile⟩ := Host.of_locate_join
    ((Host.zeroFree_join isName_targetTriple).mpr hzeroOutput) c.isName_profile
    (fun hd hchild => hinTriple.unlinked ho.linkFree hd hchild) hlocate
  obtain ⟨t, ht, htriple⟩ := hm.of_join isName_targetTriple
    (fun hd hchild => ho.inside_output.unlinked ho.linkFree hd hchild)
  obtain ⟨r, hr, htarget⟩ := Host.Enters.of_join isName_targetDir
    (fun hd hchild => (Host.Inside.self c.root).unlinked ho.linkFree hd hchild) ht
  have hreaches : h.Reaches c.buildDir b :=
    Host.reaches_join c.isName_profile hm.reaches hm.passable hprofile hb
  refine ⟨hshort, t, fit_of_enters ho hr ht htarget htriple hshort, hreaches, ⟨?_, ?_, ?_⟩, ?_⟩
  · exact ho.tree.distinct b
  · exact fun hchild => ho.tree.named b _ (mem_entries_of_child? hchild)
  · exact fun hchild => ho.inside_build.unlinked ho.linkFree hreaches hchild
  · -- ranks grow twice on the way down
    obtain ⟨rank, hrank⟩ := ho.tree.ranked
    have first := hrank t _ (mem_entries_of_child? htriple) hm.reaches.isDirectory
    have second := hrank m _ (mem_entries_of_child? hprofile) hb
    rintro rfl
    exact absurd (Nat.lt_trans first second) (Nat.lt_irrefl _)

end Config

end WasmPackager
