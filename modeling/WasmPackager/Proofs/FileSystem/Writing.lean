/-
# `Proofs.FileSystem.Writing` — writing and renaming in one directory

A file that is written under a name where nothing stands, or a regular file
with no other name, is written without touching anything else: `Written` says
what there is afterwards.  Where a directory stands nothing is written
(`FileSystem.Spare` allows for these three).  A file that is renamed within
its directory takes the place of what has the name, if that is another file:
`Renamed`.

Both operations succeed exactly if the system grants them, which is said on the
host they start on (`writeFile_of_granted`, `writeFile_of_not_granted`,
`rename_of_granted`, `rename_of_not_granted`).
-/
import WasmPackager.Proofs.FileSystem.Changes

namespace WasmPackager

theorem Contents.length_bytes (c : Contents) : c.bytes.length = c.size := by
  rw [bytes, size]
  split
  · next hnone => rw [hnone, Nat.add_zero]
  · rw [List.length_append, List.length_replicate]

namespace FileSystem

variable {fs fs' : FileSystem} {t x n : InodeNumber} {name source target : Name} {bytes : Bytes}

/-- Nothing but a directory stands under a name, or a regular file that has no other name. -/
def Spare (fs : FileSystem) (t : InodeNumber) (name : Name) : Prop :=
  ∀ {n}, fs.child? t name = some n → ¬ fs.IsDirectory n →
    (∃ contents, fs.IsFile n contents) ∧
      ∀ {d other}, fs.child? d other = some n → d = t ∧ other = name

theorem spare_of_forall {names : Name → Prop}
    (h : ∀ d < fs.inodes.size, ∀ entry ∈ fs.entries d, names entry.1 →
      (fs.node? entry.2).any Node.isDirectory = true ∨
        (fs.node? entry.2).any Node.isRegular = true ∧ fs.nameCount entry.2 ≤ 1)
    (hname : names name) : fs.Spare t name := by
  intro n hchild hplain
  have ht : t < fs.inodes.size := by
    obtain ⟨parent, entries, removed, hnode⟩ := isDirectory_of_child? hchild
    obtain ⟨i, hi, -⟩ := Option.map_eq_some_iff.mp hnode
    exact (Array.getElem?_eq_some_iff.mp hi).1
  rcases h t ht _ (mem_entries_of_child? hchild) hname with hdir | ⟨hregular, hcount⟩
  · exact absurd (isDirectory_iff.mpr hdir) hplain
  · refine ⟨?_, fun hother => entry_unique hplain hcount hchild hother⟩
    obtain ⟨node, hnode, hkind⟩ := (Option.any_eq_true ..).mp hregular
    cases node with
    | file contents => exact ⟨contents, hnode⟩
    | dir | link | device | fifo => cases hkind

/-- A file with certain bytes was written under a name of a directory: one that was there, or a
new one. -/
structure Written (t : InodeNumber) (name : Name) (x : InodeNumber) (bytes : Bytes)
    (fs fs' : FileSystem) : Prop where
  edits : Edits t (· = name) (· = x) fs fs'
  entry : fs'.child? t name = some x
  contents : fs'.IsFile x (.ofBytes bytes)
  origin : fs.child? t name = some x ∨ fs.child? t name = none ∧ fs.inode? x = none
  /-- A file that is new has the permissions of new files. -/
  mode : fs.child? t name = none → (fs'.inode? x).map Inode.mode = some Inode.fileMode

def Leads (fs : FileSystem) : Prop :=
  ∀ {d name n}, fs.child? d name = some n → ∃ i, fs.inode? n = some i

/-- A file got another name of the directory it is in. -/
structure Renamed (t : InodeNumber) (source target : Name) (x : InodeNumber)
    (fs fs' : FileSystem) : Prop where
  edits : Edits t (fun name => name = source ∨ name = target) (fun _ => False) fs fs'
  gone : fs'.child? t source = none
  entry : fs'.child? t target = some x

theorem written_over {contents : Contents} (ht : fs.IsDirectory t)
    (hchild : fs.child? t name = some x) (hx : fs.IsFile x contents) (bytes : Bytes) :
    Written t name x bytes fs
      ((fs.setNode x (.file .empty)).setNode x (.file (.ofBytes bytes))) := by
  have first : Edits t (· = name) (· = x) fs (fs.setNode x (.file .empty)) :=
    edits_setFile (· = name) (· = x) (fun heq => heq ▸ hx.atMostFile) ht rfl .empty
  have second := edits_setFile (· = name) (· = x) first.after (first.isDirectory ht) rfl
    (.ofBytes bytes)
  refine ⟨first.trans second, ?_, ?_, .inl hchild, fun hnone => ?_⟩
  · -- a file has no entries, so none of the changes is one of `t`
    have hne : t ≠ x := fun heq => hx.atMostFile.not_directory (heq ▸ ht)
    rw [child?_congr (inode?_setNode_other hne _), child?_congr (inode?_setNode_other hne _),
      hchild]
  · rw [IsFile]
    refine node?_setNode_self ?_ _
    rw [node?_setNode_self]
    · rfl
    · rw [IsFile] at hx
      rw [hx]
      rfl
  · rw [hchild] at hnone
    cases hnone

theorem isFile_attach_create (ht : fs.IsDirectory t) (name : Name) (contents : Contents)
    (mode : Nat) :
    ((fs.create (.file contents) mode).2.attach t name fs.inodes.size).IsFile fs.inodes.size
      contents := by
  have hne : t ≠ fs.inodes.size := by
    rintro rfl
    obtain ⟨parent, entries, removed, hnode⟩ := ht
    simp [node?, inode?] at hnode
  obtain ⟨parent, entries, removed, hnode⟩ := ht
  have hnode' :
      (fs.create (.file contents) mode).2.node? t = some (.dir parent entries removed) := by
    rw [node?, inode?_create, if_neg hne]
    exact hnode
  rw [IsFile, attach_of_node hnode', node?, inode?_setNode_other (Ne.symm hne), inode?_create,
    if_pos rfl]
  rfl

theorem written_new (ht : fs.IsDirectory t) (hchild : fs.child? t name = none) (bytes : Bytes) :
    Written t name fs.inodes.size bytes fs
      ((((fs.create (.file .empty) Inode.fileMode).2).attach t name fs.inodes.size).setNode
        fs.inodes.size (.file (.ofBytes bytes))) := by
  have hfresh : fs.inode? fs.inodes.size = none := by simp [inode?]
  have made : Edits t (· = name) (· = fs.inodes.size) fs (fs.create (.file .empty)
      Inode.fileMode).2 := by
    refine edits_create (· = name) (· = fs.inodes.size) ?_ ht rfl .empty _
    rintro n rfl i hi
    rw [hfresh] at hi
    cases hi
  have ht' := made.isDirectory ht
  have named := edits_attach (· = name) (· = fs.inodes.size) made.after ht' name rfl
    fs.inodes.size
  have filled := edits_setFile (· = name) (· = fs.inodes.size) named.after (named.isDirectory ht')
    rfl (.ofBytes bytes)
  have hne : t ≠ fs.inodes.size := Ne.symm (made.ne_of_staged ht rfl)
  refine ⟨(made.trans named).trans filled, ?_, ?_, .inr ⟨hchild, hfresh⟩, fun _ => ?_⟩
  · rw [child?_congr (inode?_setNode_other hne _), child?_attach ht',
      if_pos ⟨rfl, rfl⟩]
  · rw [IsFile]
    refine node?_setNode_self ?_ _
    rw [show _ = _ from isFile_attach_create ht name .empty _]
    rfl
  · rw [mode_setNode, mode_attach ht', inode?_create, if_pos rfl]
    rfl

section Written

variable {other : Name}

theorem Written.plain (hw : Written t name x bytes fs fs') (hchild : fs.child? t name = some n) :
    ¬ fs.IsDirectory n ∧ ¬ fs.IsLink n := by
  have hx : fs.AtMostFile x := hw.edits.before rfl
  rcases hw.origin with horigin | ⟨hnone, -⟩
  · obtain rfl := Option.some.inj (horigin.symm.trans hchild)
    exact ⟨hx.not_directory, hx.not_link⟩
  · cases hnone.symm.trans hchild

theorem Written.own (hw : Written t name x bytes fs fs') (hleads : fs.Leads)
    (hspare : fs.Spare t name) {d : InodeNumber} (hchild : fs.child? d other = some x) :
    d = t ∧ other = name := by
  rcases hw.origin with horigin | ⟨-, hfresh⟩
  · exact (hspare horigin (hw.edits.before rfl).not_directory).2 hchild
  · obtain ⟨i, hi⟩ := hleads hchild
    rw [hfresh] at hi
    cases hi

theorem Written.inode?_eq (hw : Written t name x bytes fs fs') (hleads : fs.Leads)
    (hspare : fs.Spare t name) {d : InodeNumber} (hother : ¬ (d = t ∧ other = name))
    (hchild : fs.child? d other = some n) (hn : n ≠ t) : fs'.inode? n = fs.inode? n :=
  hw.edits.inode?_eq hn fun heq => hother (hw.own hleads hspare (heq ▸ hchild))

theorem Written.leads (hw : Written t name x bytes fs fs') (ht : fs.IsDirectory t)
    (hleads : fs.Leads) (hspare : fs.Spare t name) : fs'.Leads := by
  intro d other n hchild
  by_cases hentry : d = t ∧ other = name
  · obtain ⟨rfl, rfl⟩ := hentry
    obtain rfl : x = n := Option.some.inj (hw.entry.symm.trans hchild)
    obtain ⟨i, hi, -⟩ := Option.map_eq_some_iff.mp hw.contents
    exact ⟨i, hi⟩
  · rw [hw.edits.child?_eq hentry] at hchild
    by_cases hn : n = t
    · obtain ⟨parent, entries, removed, hnode⟩ := hw.edits.isDirectory ht
      obtain ⟨i, hi, -⟩ := Option.map_eq_some_iff.mp hnode
      exact ⟨i, hn ▸ hi⟩
    · rw [hw.inode?_eq hleads hspare hentry hchild hn]
      exact hleads hchild

theorem Written.spare (hw : Written t name x bytes fs fs') (ht : fs.IsDirectory t)
    (hleads : fs.Leads) (hspare : fs.Spare t name) (hne : other ≠ name)
    (hother : fs.Spare t other) : fs'.Spare t other := by
  intro n hchild hplain
  have hentry : ¬ (t = t ∧ other = name) := fun h => hne h.2
  rw [hw.edits.child?_eq hentry] at hchild
  obtain ⟨⟨contents, hfile⟩, hown⟩ := hother hchild fun hdir => hplain (hw.edits.isDirectory hdir)
  have hn : n ≠ t := fun heq => hfile.atMostFile.not_directory (heq ▸ ht)
  refine ⟨⟨contents, ?_⟩, fun {d last} hlast => ?_⟩
  · rw [IsFile, node?, hw.inode?_eq hleads hspare hentry hchild hn]
    exact hfile
  · by_cases hwritten : d = t ∧ last = name
    · obtain ⟨rfl, rfl⟩ := hwritten
      obtain rfl : x = n := Option.some.inj (hw.entry.symm.trans hlast)
      exact absurd (hw.own hleads hspare hchild).2 hne
    · rw [hw.edits.child?_eq hwritten] at hlast
      exact hown hlast

end Written

/-- Taking the entry of a file away and giving it another one, after what has that is taken
away. -/
theorem renamed_of_detached (ht : fs.IsDirectory t) (hne : source ≠ target)
    (x : InodeNumber) {gs : FileSystem} (hgs : gs = fs ∨ gs = fs.detach t target) :
    Renamed t source target x fs ((gs.detach t source).attach t target x) := by
  have cleared : Edits t (fun name => name = source ∨ name = target) (fun _ => False) fs gs := by
    rcases hgs with rfl | rfl
    · exact .refl _ nofun
    · exact edits_detach _ _ nofun ht target (.inr rfl)
  have detached := edits_detach (fun name => name = source ∨ name = target) (fun _ => False) nofun
    (cleared.isDirectory ht) source (.inl rfl)
  have ht' := detached.isDirectory (cleared.isDirectory ht)
  have attached := edits_attach (fun name => name = source ∨ name = target) (fun _ => False) nofun
    ht' target (.inr rfl) x
  refine ⟨(cleared.trans detached).trans attached, ?_, ?_⟩
  · rw [child?_attach ht', if_neg fun h => hne h.2, child?_detach (cleared.isDirectory ht),
      if_pos ⟨rfl, rfl⟩]
  · rw [child?_attach ht', if_pos ⟨rfl, rfl⟩]

theorem Edits.not_directory {names : Name → Prop} (h : Edits t names (fun _ => False) fs fs')
    (ht : fs.IsDirectory t) (hn : ¬ fs.IsDirectory n) : ¬ fs'.IsDirectory n := by
  rintro ⟨parent, entries, removed, hnode⟩
  have hne : n ≠ t := fun heq => hn (heq ▸ ht)
  rw [node?, h.inode?_eq hne id] at hnode
  exact hn ⟨parent, entries, removed, hnode⟩

/-- Moving a file within a directory, perhaps over another one, changes entries only. -/
theorem moveEntry_of_files {replaced : Option InodeNumber} (ht : fs.IsDirectory t)
    (hx : ¬ fs.IsDirectory x) (hold : ∀ {old}, replaced = some old → ¬ fs.IsDirectory old) :
    ∃ gs, (gs = fs ∨ gs = fs.detach t target) ∧
      Host.moveEntry fs x t source t target replaced = (gs.detach t source).attach t target x := by
  have moved : ∀ gs : FileSystem, gs.IsDirectory t → ¬ gs.IsDirectory x →
      ((gs.detach t source).attach t target x).reparent x t =
        (gs.detach t source).attach t target x := by
    intro gs hgs hxgs
    have detached := edits_detach (fun _ => True) (fun _ => False) nofun hgs source
      trivial
    have attached := edits_attach (fun _ => True) (fun _ => False) nofun
      (detached.isDirectory hgs) target trivial x
    exact reparent_of_not_directory ((detached.trans attached).not_directory hgs hxgs) t
  cases replaced with
  | none => exact ⟨fs, .inl rfl, moved fs ht hx⟩
  | some old =>
      have cleared := edits_detach (fun _ => True) (fun _ => False) nofun ht target
        trivial
      refine ⟨fs.detach t target, .inr rfl, ?_⟩
      have hgone : (fs.detach t target).markRemoved old = fs.detach t target :=
        markRemoved_of_not_directory (cleared.not_directory ht (hold rfl))
      simp only [Host.moveEntry, hgone]
      exact moved _ (cleared.isDirectory ht) (cleared.not_directory ht hx)

theorem renamed_moveEntry {replaced : Option InodeNumber} (ht : fs.IsDirectory t)
    (hne : source ≠ target) (hx : ¬ fs.IsDirectory x)
    (hold : ∀ {old}, replaced = some old → ¬ fs.IsDirectory old) :
    Renamed t source target x fs (Host.moveEntry fs x t source t target replaced) := by
  obtain ⟨gs, hgs, heq⟩ := moveEntry_of_files ht hx hold
  rw [heq]
  exact renamed_of_detached ht hne x hgs

theorem isDirectory_of_inode? {i : Inode} (hi : fs.inode? n = some i) :
    fs.IsDirectory n ↔ i.node.isDirectory = true := by
  rw [isDirectory_iff, node?_of_inode? hi, Option.any_some]

theorem not_isDirectory_of_inode {i : Inode} (hi : fs.inode? n = some i)
    (hfile : i.node.isDirectory = false) : ¬ fs.IsDirectory n := by
  rw [isDirectory_of_inode? hi, hfile]
  exact Bool.false_ne_true

end FileSystem

namespace Host

open FileSystem WasmPackager.Path

section

variable {h h' : Host} {dir : Bytes} {name source target : Name} {t x : InodeNumber} {bytes : Bytes}

theorem mayAdd_of_edits {names : Name → Prop} {staged : InodeNumber → Prop} {fs' : FileSystem}
    (hedits : Edits t names staged h.files fs') (ht : h.files.IsDirectory t) :
    (h.withFiles fs').mayAdd t = h.mayAdd t := by
  obtain ⟨parent, entries, removed, hnode⟩ := ht
  cases hi : h.files.inode? t with
  | none => simp [node?, hi] at hnode
  | some i =>
      have hnode' : i.node = .dir parent entries removed := by simpa [node?, hi] using hnode
      obtain ⟨i', entries', hi', hdir, hmode⟩ := hedits.directory hi hnode'
      rw [mayAdd, mayAdd, inodeAt_of_inode? hi, inodeAt_of_inode? (h := h.withFiles fs') hi']
      simp only [bind, Except.bind, hnode', hdir, demand, Inode.allows_congr hmode]
      cases removed <;> rfl

theorem mayTake_of_mode {fs' : FileSystem} {i i' : Inode} (hi : h.files.inode? t = some i)
    (hi' : fs'.inode? t = some i') (hmode : i'.mode = i.mode) :
    (h.withFiles fs').mayTake t = h.mayTake t := by
  rw [mayTake, mayTake, inodeAt_of_inode? hi, inodeAt_of_inode? (h := h.withFiles fs') hi']
  simp only [bind, Except.bind, demand, Inode.allows_congr hmode]

theorem mayTake_of_edits {names : Name → Prop} {staged : InodeNumber → Prop} {fs' : FileSystem}
    (hedits : Edits t names staged h.files fs') (ht : h.files.IsDirectory t) :
    (h.withFiles fs').mayTake t = h.mayTake t := by
  obtain ⟨parent, entries, removed, hnode⟩ := ht
  obtain ⟨i, hi, hdir⟩ := Option.map_eq_some_iff.mp hnode
  obtain ⟨i', entries', hi', -, hmode⟩ := hedits.directory hi hdir
  exact mayTake_of_mode hi hi' hmode

theorem Enters.keep {fs' : FileSystem} (henters : h.Enters dir t)
    (hkeeps : KeepsPaths h.files fs') : (h.withFiles fs').Enters dir t :=
  ⟨henters.zeroFree, hkeeps.reaches henters.reaches,
    (hkeeps.passes henters.reaches.isDirectory).trans henters.passable⟩

/-! ## Writing -/

/-- The system lets a file be written under a name: a new one may be made if nothing is there, and
what is there is no directory and may be written. -/
structure Writable (h : Host) (t : InodeNumber) (name : Name) : Prop where
  new : h.files.child? t name = none → h.mayAdd t = .ok ()
  plain : ∀ {n}, h.files.child? t name = some n → ¬ h.files.IsDirectory n
  old : ∀ {n i}, h.files.child? t name = some n → h.files.inode? n = some i →
    i.allows .write = true

theorem append_empty (bytes : Bytes) : Contents.empty.append bytes = .ofBytes bytes := by
  rw [Contents.append]
  split
  · next hnil => rw [List.isEmpty_iff.mp hnil]; rfl
  · rfl

theorem writeFile_of_openTruncated {path : Bytes} {opened : Host}
    (hopen : h.openTruncated path = .ok (x, opened)) :
    h.writeFile path bytes = opened.appendAt x bytes := by
  simp only [writeFile, hopen]

/-- Filling the file that was just emptied or made, with all of the bytes if they fit. -/
theorem writeFile_of_opened {path : Bytes} {fs : FileSystem}
    (hopen : h.openTruncated path = .ok (x, h.withFiles fs)) (hx : fs.IsFile x .empty) :
    h.writeFile path bytes =
      (if bytes.length ≤ Contents.limit then .ok () else .error .fileTooLarge,
        h.withFiles (fs.setNode x (.file (.ofBytes (bytes.take Contents.limit))))) := by
  rw [writeFile_of_openTruncated hopen, appendAt, show (h.withFiles fs).files.node? x = _ from hx]
  have hroom : Contents.limit - Contents.empty.size = Contents.limit := rfl
  simp only [append_empty, hroom]
  split
  · next hfits => rw [List.take_of_length_le hfits]; rfl
  · rfl

theorem spare_cases (hspare : h.files.Spare t name) :
    h.files.child? t name = none ∨ ∃ n i, h.files.child? t name = some n ∧
      h.files.inode? n = some i ∧
        ((∃ contents, i.node = .file contents) ∨
          ∃ parent entries removed, i.node = .dir parent entries removed) := by
  cases hchild : h.files.child? t name with
  | none => exact .inl rfl
  | some n =>
      by_cases hdir : h.files.IsDirectory n
      · obtain ⟨parent, entries, removed, hdir⟩ := hdir
        obtain ⟨i, hi, hnode⟩ := Option.map_eq_some_iff.mp hdir
        exact .inr ⟨n, i, rfl, hi, .inr ⟨parent, entries, removed, hnode⟩⟩
      · obtain ⟨⟨contents, hfile⟩, -⟩ := hspare hchild hdir
        obtain ⟨i, hi, hnode⟩ := Option.map_eq_some_iff.mp hfile
        exact .inr ⟨n, i, rfl, hi, .inl ⟨contents, hnode⟩⟩

theorem writeFile_of_granted (henters : h.Enters dir t) (hname : IsName name)
    (hshort : (join dir name).length < pathLimit) (hspare : h.files.Spare t name)
    (hgranted : h.Writable t name) (bytes : Bytes) :
    ∃ x fs', h.writeFile (join dir name) bytes =
        (if bytes.length ≤ Contents.limit then .ok () else .error .fileTooLarge,
          h.withFiles fs') ∧
      Written t name x (bytes.take Contents.limit) h.files fs' := by
  have ht := henters.reaches.isDirectory
  rcases spare_cases hspare with hchild | ⟨n, i, hchild, hi, ⟨contents, hnode⟩ | hdir⟩
  · have hopen : h.openTruncated (join dir name) = .ok (h.files.inodes.size,
        h.withFiles ((h.files.create (.file .empty) Inode.fileMode).2.attach t name
          h.files.inodes.size)) := by
      rw [openTruncated, openForWriting, resolve_join_vacant henters hname hshort hchild]
      simp only [bind, Except.bind, Bool.false_eq_true, if_false, addEntry, hgranted.new hchild]
      rfl
    exact ⟨_, _, writeFile_of_opened hopen (isFile_attach_create ht name .empty _),
      written_new ht hchild _⟩
  · have hfile : h.files.IsFile n contents := by rw [IsFile, node?_of_inode? hi, hnode]
    have hopen : h.openTruncated (join dir name) =
        .ok (n, h.withFiles (h.files.setNode n (.file .empty))) := by
      rw [openTruncated, openForWriting,
        resolve_join_existing henters hname hshort hchild hi hfile.atMostFile.not_link]
      simp only [bind, Except.bind, inodeAt_of_inode? hi, hnode, demand,
        if_pos (hgranted.old hchild hi)]
      rfl
    refine ⟨_, _, writeFile_of_opened hopen ?_, written_over ht hchild hfile _⟩
    exact node?_setNode_self (by simp [node?, hi]) _
  · obtain ⟨parent, entries, removed, hnode⟩ := hdir
    exact absurd ⟨parent, entries, removed, (node?_of_inode? hi).trans (congrArg some hnode)⟩
      (hgranted.plain hchild)

theorem writeFile_of_not_granted (henters : h.Enters dir t) (hname : IsName name)
    (hshort : (join dir name).length < pathLimit) (hspare : h.files.Spare t name)
    (hgranted : ¬ h.Writable t name) (bytes : Bytes) :
    ∃ cause, h.writeFile (join dir name) bytes = (.error cause, h) := by
  rcases spare_cases hspare with hchild | ⟨n, i, hchild, hi, ⟨contents, hnode⟩ | hdir⟩
  · cases hadd : h.mayAdd t with
    | ok _ =>
        exact absurd ⟨fun _ => hadd, fun hc => by simp [hchild] at hc,
          fun hc => by simp [hchild] at hc⟩ hgranted
    | error cause =>
        refine ⟨cause, ?_⟩
        rw [writeFile, openTruncated, openForWriting,
          resolve_join_vacant henters hname hshort hchild]
        simp only [bind, Except.bind, Bool.false_eq_true, if_false, addEntry, hadd]
  · have hfile : h.files.IsFile n contents := by rw [IsFile, node?_of_inode? hi, hnode]
    have hwrite : ¬ i.allows .write = true := by
      refine fun hwrite => hgranted ⟨fun hc => by simp [hchild] at hc, ?_, ?_⟩
      · intro m hm
        cases hchild.symm.trans hm
        exact hfile.atMostFile.not_directory
      · intro m j hm hj
        cases hchild.symm.trans hm
        cases hi.symm.trans hj
        exact hwrite
    refine ⟨.accessDenied, ?_⟩
    rw [writeFile, openTruncated, openForWriting,
      resolve_join_existing henters hname hshort hchild hi hfile.atMostFile.not_link]
    simp only [bind, Except.bind, inodeAt_of_inode? hi, hnode, demand, if_neg hwrite]
  · obtain ⟨parent, entries, removed, hnode⟩ := hdir
    have hlink : ¬ h.files.IsLink n := by
      rintro ⟨target, hlink⟩
      rw [node?_of_inode? hi, hnode] at hlink
      cases hlink
    refine ⟨.isDirectory, ?_⟩
    rw [writeFile, openTruncated, openForWriting,
      resolve_join_existing henters hname hshort hchild hi hlink]
    simp only [bind, Except.bind, inodeAt_of_inode? hi, hnode]

theorem writeFile_of_isDirectory {path : Bytes} (hdir : h.isDirectory path = true) (bytes : Bytes) :
    h.writeFile path bytes = (.error .isDirectory, h) := by
  cases hstat : h.stat path with
  | error cause => simp [isDirectory, hstat] at hdir
  | ok i =>
      rw [isDirectory_of_stat hstat] at hdir
      obtain ⟨n, hlocate, hi⟩ := of_stat hstat
      rw [writeFile, openTruncated, openForWriting, of_locate hlocate]
      simp only [bind, Except.bind, inodeAt_of_inode? hi]
      cases hnode : i.node with
      | dir _ _ _ => rfl
      | file _ | link _ | device _ | fifo _ => simp [hnode, Node.isDirectory] at hdir

theorem writable_of_written {other : Name} {fs' : FileSystem}
    (hw : Written t name x bytes h.files fs') (ht : h.files.IsDirectory t)
    (hleads : h.files.Leads) (hspare : h.files.Spare t name) (hne : other ≠ name) :
    (h.withFiles fs').Writable t other ↔ h.Writable t other := by
  have hentry : ¬ (t = t ∧ other = name) := fun heq => hne heq.2
  have hchild : (h.withFiles fs').files.child? t other = h.files.child? t other :=
    hw.edits.child?_eq hentry
  have hinode : ∀ {n}, h.files.child? t other = some n → n ≠ t →
      (h.withFiles fs').files.inode? n = h.files.inode? n := fun hn hdiffers =>
    hw.inode?_eq hleads hspare hentry hn hdiffers
  have hadd := mayAdd_of_edits hw.edits ht
  constructor
  · intro hwritable
    have hplain : ∀ {n}, h.files.child? t other = some n → ¬ h.files.IsDirectory n :=
      fun hn hdir => hwritable.plain (hchild.trans hn) (hw.edits.isDirectory hdir)
    have hdiffers : ∀ {n}, h.files.child? t other = some n → n ≠ t := fun hn heq =>
      hplain hn (heq ▸ ht)
    exact ⟨fun hnone => hadd.symm.trans (hwritable.new (hchild.trans hnone)), hplain,
      fun hn hi => hwritable.old (hchild.trans hn) ((hinode hn (hdiffers hn)).trans hi)⟩
  · intro hwritable
    have hdiffers : ∀ {n}, h.files.child? t other = some n → n ≠ t := fun hn heq =>
      hwritable.plain hn (heq ▸ ht)
    refine ⟨fun hnone => hadd.trans (hwritable.new (hchild.symm.trans hnone)), fun hn => ?_,
      fun hn hi => ?_⟩
    · rw [hchild] at hn
      rw [IsDirectory, node?, hinode hn (hdiffers hn)]
      exact hwritable.plain hn
    · rw [hchild] at hn
      exact hwritable.old hn ((hinode hn (hdiffers hn)).symm.trans hi)

/-! ## Renaming -/

theorem mayTake_of_mayAdd (hadd : h.mayAdd t = .ok ()) : h.mayTake t = .ok () := by
  rw [mayAdd] at hadd
  rw [mayTake]
  cases hi : h.inodeAt t with
  | error cause => simp [hi, bind, Except.bind] at hadd
  | ok i =>
      simp only [hi, bind, Except.bind] at hadd ⊢
      split at hadd
      · cases hadd
      · exact hadd

theorem mayAdd_of_mayTake (hkept : ∀ {parent entries},
    h.files.node? t ≠ some (.dir parent entries true)) (htake : h.mayTake t = .ok ()) :
    h.mayAdd t = .ok () := by
  rw [mayTake] at htake
  rw [mayAdd]
  cases hi : h.inodeAt t with
  | error cause => simp [hi, bind, Except.bind] at htake
  | ok i =>
      simp only [hi, bind, Except.bind] at htake ⊢
      split
      · next hnode => exact absurd ((node?_of_inode? (of_inodeAt hi)).trans (by rw [hnode])) hkept
      · exact htake

theorem rename_join (henters : h.Enters dir t) (hsource : IsName source) (htarget : IsName target)
    (hsourceShort : (join dir source).length < pathLimit)
    (htargetShort : (join dir target).length < pathLimit) {i : Inode}
    (hchild : h.files.child? t source = some x) (hi : h.files.inode? x = some i)
    (hfile : i.node.isDirectory = false) :
    h.rename (join dir source) (join dir target) =
      match h.files.child? t target with
      | none => do
        h.mayTake t
        h.mayAdd t
        return h.withFiles (moveEntry h.files x t source t target none)
      | some old => do
        let oldNode := (← h.inodeAt old).node
        if oldNode.isDirectory && h.files.contains old t then .error .notEmpty
        else if x == old then .ok h
        else
          h.mayTake t
          h.mayTake t
          if oldNode.isDirectory then .error .isDirectory
          else if !oldNode.entries.isEmpty then .error .notEmpty
          else return h.withFiles (moveEntry h.files x t source t target (some old)) := by
  rw [rename, slot_join henters hsource hsourceShort, slot_join henters htarget htargetShort]
  cases hold : h.files.child? t target with
  | none | some =>
    simp only [bind, Except.bind, entryOf, if_neg (Nat.not_lt.mpr hsource.short),
      if_neg (Nat.not_lt.mpr htarget.short), hchild, hold, inodeAt_of_inode? hi, hfile,
      Bool.not_false, Bool.or_self, Bool.and_false, Bool.false_eq_true, if_false, Bool.false_and,
      Bool.true_and]

/-- What has the new name must be a file, another one than the renamed one, and the directory must
let entries be taken out and put in. -/
theorem rename_of_granted (henters : h.Enters dir t) (hsource : IsName source)
    (htarget : IsName target) (hsourceShort : (join dir source).length < pathLimit)
    (htargetShort : (join dir target).length < pathLimit) (hne : source ≠ target) {i : Inode}
    (hchild : h.files.child? t source = some x) (hi : h.files.inode? x = some i)
    (hfile : i.node.isDirectory = false)
    (hold : ∀ {old}, h.files.child? t target = some old → old ≠ x ∧
      ∃ j, h.files.inode? old = some j ∧ j.node.isDirectory = false)
    (hadd : h.mayAdd t = .ok ()) :
    ∃ fs', h.rename (join dir source) (join dir target) = .ok (h.withFiles fs') ∧
      Renamed t source target x h.files fs' := by
  have ht := henters.reaches.isDirectory
  have htake := mayTake_of_mayAdd hadd
  have hx := not_isDirectory_of_inode hi hfile
  rw [rename_join henters hsource htarget hsourceShort htargetShort hchild hi hfile]
  cases hreplaced : h.files.child? t target with
  | none =>
      simp only [htake, hadd, bind, Except.bind]
      exact ⟨_, rfl, renamed_moveEntry ht hne hx nofun⟩
  | some old =>
      obtain ⟨hdiffers, j, hj, hplain⟩ := hold hreplaced
      have hempty : j.node.entries.isEmpty = true := by
        cases hnode : j.node <;> simp [hnode, Node.isDirectory, Node.entries] at hplain ⊢
      simp only [bind, Except.bind, inodeAt_of_inode? hj, hplain, Bool.false_and,
        Bool.false_eq_true, if_false, htake, hempty, Bool.not_true]
      rw [if_neg (by simpa using Ne.symm hdiffers)]
      refine ⟨_, rfl, renamed_moveEntry ht hne hx fun heq => ?_⟩
      exact Option.some.inj heq ▸ not_isDirectory_of_inode hj hplain

theorem rename_of_not_granted (henters : h.Enters dir t) (hsource : IsName source)
    (htarget : IsName target) (hsourceShort : (join dir source).length < pathLimit)
    (htargetShort : (join dir target).length < pathLimit) {i : Inode}
    (hchild : h.files.child? t source = some x) (hi : h.files.inode? x = some i)
    (hfile : i.node.isDirectory = false)
    (hkept : ∀ {parent entries}, h.files.node? t ≠ some (.dir parent entries true))
    (hold : ∀ {old}, h.files.child? t target = some old → old ≠ x)
    (hgranted : ¬ ((∀ {old}, h.files.child? t target = some old →
      ∃ j, h.files.inode? old = some j ∧ j.node.isDirectory = false) ∧ h.mayAdd t = .ok ())) :
    ∃ cause, h.rename (join dir source) (join dir target) = .error cause := by
  rw [rename_join henters hsource htarget hsourceShort htargetShort hchild hi hfile]
  cases hreplaced : h.files.child? t target with
  | none =>
      cases htake : h.mayTake t with
      | error cause => exact ⟨cause, rfl⟩
      | ok _ =>
          refine absurd ⟨fun hc => ?_, mayAdd_of_mayTake hkept htake⟩ hgranted
          rw [hreplaced] at hc
          cases hc
  | some old =>
      cases hj : h.inodeAt old with
      | error cause => exact ⟨cause, by simp only [bind, Except.bind, hj]⟩
      | ok j =>
          simp only [bind, Except.bind, hj]
          split
          · exact ⟨.notEmpty, rfl⟩
          · rw [if_neg (by simpa using Ne.symm (hold hreplaced))]
            cases htake : h.mayTake t with
            | error cause => exact ⟨cause, rfl⟩
            | ok _ =>
                have hdir : j.node.isDirectory = true := by
                  refine Decidable.byContradiction fun hdir => hgranted ⟨?_, ?_⟩
                  · intro m hm
                    cases hreplaced.symm.trans hm
                    exact ⟨j, of_inodeAt hj, by simpa using hdir⟩
                  · exact mayAdd_of_mayTake hkept htake
                exact ⟨.isDirectory, if_pos hdir⟩

theorem slots_of_rename {path path' : Bytes} (hrename : h.rename path path' = .ok h') :
    ∃ s s', h.slot path = .ok s ∧ h.slot path' = .ok s' := by
  rw [rename] at hrename
  cases hs : h.slot path with
  | error cause => simp [hs, bind, Except.bind] at hrename
  | ok s =>
      cases hs' : h.slot path' with
      | error cause => simp [hs, hs', bind, Except.bind] at hrename
      | ok s' => exact ⟨s, s', rfl, rfl⟩

/-- A file that was renamed within its directory took the place of what had the name, which was no
directory. -/
theorem renamed_of_rename (henters : h.Enters dir t) (hsource : IsName source)
    (htarget : IsName target) (hne : source ≠ target) {contents : Contents}
    (hchild : h.files.child? t source = some x) (hfile : h.files.IsFile x contents)
    (hold : ∀ {old}, h.files.child? t target = some old → old ≠ x)
    (hrename : h.rename (join dir source) (join dir target) = .ok h') :
    ∃ fs', h' = h.withFiles fs' ∧ Renamed t source target x h.files fs' ∧
      h.mayTake t = .ok () ∧
      ∀ {old}, h.files.child? t target = some old → ¬ h.files.IsDirectory old := by
  have ht := henters.reaches.isDirectory
  have hx := hfile.atMostFile.not_directory
  obtain ⟨i, hi, hnode⟩ := Option.map_eq_some_iff.mp hfile
  obtain ⟨s, s', hs, hs'⟩ := slots_of_rename hrename
  rw [rename_join henters hsource htarget ((slot_join_iff henters.zeroFree hsource).mp hs).1
    ((slot_join_iff henters.zeroFree htarget).mp hs').1 hchild hi (by rw [hnode]; rfl)] at hrename
  cases hreplaced : h.files.child? t target with
  | none =>
      simp only [hreplaced, bind, Except.bind] at hrename
      cases htake : h.mayTake t with
      | error cause => simp [htake] at hrename
      | ok _ =>
          cases hadd : h.mayAdd t with
          | error cause => simp [htake, hadd] at hrename
          | ok _ =>
              simp only [htake, hadd, pure, Except.pure] at hrename
              exact ⟨_, (Except.ok.inj hrename).symm, renamed_moveEntry ht hne hx nofun, rfl, nofun⟩
  | some old =>
      simp only [hreplaced, bind, Except.bind] at hrename
      cases hj : h.inodeAt old with
      | error cause => simp [hj] at hrename
      | ok j =>
          simp only [hj] at hrename
          split at hrename
          · cases hrename
          · rw [if_neg (by simpa using Ne.symm (hold hreplaced))] at hrename
            cases htake : h.mayTake t with
            | error cause => simp [htake] at hrename
            | ok _ =>
                simp only [htake] at hrename
                split at hrename
                · cases hrename
                · next hplain =>
                  have hplain := not_isDirectory_of_inode (of_inodeAt hj) (by simpa using hplain)
                  split at hrename
                  · cases hrename
                  · refine ⟨_, (Except.ok.inj hrename).symm, renamed_moveEntry ht hne hx ?_, rfl,
                      ?_⟩
                    · exact fun heq => Option.some.inj heq ▸ hplain
                    · exact fun heq => Option.some.inj heq ▸ hplain

/-! ## Removing -/

structure Removed (h : Host) (path : Bytes) (h' : Host) (s : Slot) (name : Name) (n : InodeNumber)
    (i : Inode) : Prop where
  slot : h.slot path = .ok s
  last : s.last = .entry name
  child : h.files.child? s.dir name = some n
  inode : h.files.inode? n = some i
  taken : h.mayTake s.dir = .ok ()
  result : i.node.isDirectory = false ∧ h' = h.withFiles (h.files.detach s.dir name) ∨
    ∃ parent removed, i.node = .dir parent [] removed ∧
      h' = h.withFiles ((h.files.detach s.dir name).markRemoved n)

theorem of_unlink {path : Bytes} (hunlink : h.unlink path = .ok h') :
    ∃ s name n i, Removed h path h' s name n i := by
  rw [unlink] at hunlink
  cases hs : h.slot path with
  | error cause => simp [hs, bind, Except.bind] at hunlink
  | ok s =>
      simp only [hs, bind, Except.bind] at hunlink
      cases hlast : s.last with
      | dot | dotDot | root => simp [hlast] at hunlink
      | entry name =>
          simp only [hlast] at hunlink
          cases hentry : h.entryOf s.dir name with
          | error cause => simp [hentry] at hunlink
          | ok child =>
              simp only [hentry] at hunlink
              obtain ⟨-, rfl⟩ := of_entryOf hentry
              cases hchild : h.files.child? s.dir name with
              | none => simp [hchild] at hunlink
              | some n =>
                  simp only [hchild] at hunlink
                  cases hi : h.inodeAt n with
                  | error cause => simp [hi] at hunlink
                  | ok i =>
                      simp only [hi] at hunlink
                      split at hunlink
                      · cases hunlink
                      · cases htake : h.mayTake s.dir with
                        | error cause => simp [htake] at hunlink
                        | ok _ =>
                            simp only [htake] at hunlink
                            split at hunlink
                            · cases hunlink
                            · next hplain =>
                              exact ⟨s, name, n, i, hs, hlast, hchild, of_inodeAt hi, htake,
                                .inl ⟨by simpa using hplain, (Except.ok.inj hunlink).symm⟩⟩

theorem of_removeDirectory {path : Bytes} (hremove : h.removeDirectory path = .ok h') :
    ∃ s name n i, Removed h path h' s name n i := by
  rw [removeDirectory] at hremove
  cases hs : h.slot path with
  | error cause => simp [hs, bind, Except.bind] at hremove
  | ok s =>
      simp only [hs, bind, Except.bind] at hremove
      cases hlast : s.last with
      | dot | dotDot | root => simp [hlast] at hremove
      | entry name =>
          simp only [hlast] at hremove
          cases hentry : h.entryOf s.dir name with
          | error cause => simp [hentry] at hremove
          | ok child =>
              simp only [hentry] at hremove
              obtain ⟨-, rfl⟩ := of_entryOf hentry
              cases hchild : h.files.child? s.dir name with
              | none => simp [hchild] at hremove
              | some n =>
                  simp only [hchild] at hremove
                  cases htake : h.mayTake s.dir with
                  | error cause => simp [htake] at hremove
                  | ok _ =>
                      cases hi : h.inodeAt n with
                      | error cause => simp [htake, hi] at hremove
                      | ok i =>
                          simp only [htake, hi] at hremove
                          split at hremove
                          · next hnode =>
                            exact ⟨s, name, n, i, hs, hlast, hchild, of_inodeAt hi, htake,
                              .inr ⟨_, _, hnode, (Except.ok.inj hremove).symm⟩⟩
                          · cases hremove
                          · cases hremove

theorem of_remove {path : Bytes} (hremove : h.remove path = .ok h') :
    ∃ s name n i, Removed h path h' s name n i := by
  rw [remove] at hremove
  split at hremove
  · exact of_removeDirectory hremove
  · exact of_unlink hremove

theorem remove_join (henters : h.Enters dir t) (hname : IsName name)
    (hshort : (join dir name).length < pathLimit) {n : InodeNumber} {i : Inode}
    (hchild : h.files.child? t name = some n) (hi : h.files.inode? n = some i)
    (hplain : i.node.isDirectory = false) (htake : h.mayTake t = .ok ()) :
    h.remove (join dir name) = .ok (h.withFiles (h.files.detach t name)) := by
  have hunlink : h.unlink (join dir name) = .ok (h.withFiles (h.files.detach t name)) := by
    rw [unlink, slot_join henters hname hshort]
    simp only [bind, Except.bind, entryOf, if_neg (Nat.not_lt.mpr hname.short), hchild,
      inodeAt_of_inode? hi, hplain, htake, Bool.false_eq_true, if_false]
    rfl
  rw [remove, hunlink]

end

end Host
end WasmPackager
