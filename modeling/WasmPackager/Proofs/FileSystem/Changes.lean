/-
# `Proofs.FileSystem.Changes` — what a change leaves alone

Publishing makes a handful of small changes, one after the other.  Each of
them touches one directory, there only entries of certain names, and some
files.  `FileSystem.Edits` says this of two file systems with all else equal;
it is closed under sequencing (`Edits.trans`), and each small change is one
(`edits_setFile`, `edits_create`, `edits_attach`, `edits_detach`).

Two things are left alone by all edits.  A path that leads to a directory still
leads there, unless one of the touched entries was a directory or a link
(`reaches_of_edits`).  And a location that does not end in a touched entry
leads where it led (`descend_of_edits`).
-/
import WasmPackager.Proofs.FileSystem.Lookup

namespace WasmPackager

theorem Inode.allows_congr {i i' : Inode} (h : i'.mode = i.mode) (access : Access) :
    i'.allows access = i.allows access := by
  rw [allows, allows, h]

namespace FileSystem

section Single

variable {fs : FileSystem} {d n m : InodeNumber} {name : Name} {i : Inode}

/-! ## Single changes -/

theorem inode?_setNode (fs : FileSystem) (n m : InodeNumber) (node : Node) :
    (fs.setNode n node).inode? m =
      if n = m then (fs.inode? m).map fun i => { i with node, modified := fs.clock }
      else fs.inode? m := by
  rw [setNode]
  cases hi : fs.inode? n with
  | none =>
      by_cases h : n = m
      · subst h
        simp [hi]
      · simp [h]
  | some i =>
      have hn : n < fs.inodes.size := by
        rw [inode?, Array.getElem?_eq_some_iff] at hi
        exact hi.1
      simp only [inode?_setInode, hn, and_true]
      by_cases h : n = m
      · subst h
        simp [hi]
      · simp [h]

theorem mayPass_of_mode {fs' : FileSystem} {i' : Inode} (hi : fs.inode? n = some i)
    (hi' : fs'.inode? n = some i') (hmode : i'.mode = i.mode) : fs'.mayPass n = fs.mayPass n := by
  rw [mayPass, mayPass, hi, hi']
  simp only [Inode.allows_congr hmode]

theorem mode_setNode (fs : FileSystem) (n m : InodeNumber) (node : Node) :
    ((fs.setNode n node).inode? m).map Inode.mode = (fs.inode? m).map Inode.mode := by
  rw [inode?_setNode]
  split
  · rw [Option.map_map]
    rfl
  · rfl

theorem markRemoved_of_not_directory (h : ¬ fs.IsDirectory n) : fs.markRemoved n = fs := by
  rw [markRemoved]
  split
  · next hnode => exact absurd ⟨_, _, _, hnode⟩ h
  · rfl

theorem reparent_of_not_directory (h : ¬ fs.IsDirectory n) (parent : InodeNumber) :
    fs.reparent n parent = fs := by
  rw [reparent]
  split
  · next hnode => exact absurd ⟨_, _, _, hnode⟩ h
  · rfl

theorem attach_of_node {parent : InodeNumber} {entries : List (Name × InodeNumber)} {removed : Bool}
    (hnode : fs.node? d = some (.dir parent entries removed)) :
    fs.attach d name n = fs.setNode d (.dir parent (putEntry name n entries) removed) := by
  rw [attach, hnode]

theorem detach_of_node {parent : InodeNumber} {entries : List (Name × InodeNumber)} {removed : Bool}
    (hnode : fs.node? d = some (.dir parent entries removed)) :
    fs.detach d name = fs.setNode d (.dir parent (entries.filter (·.1 != name)) removed) := by
  rw [detach, hnode]

theorem node?_setNode_self (h : (fs.node? n).isSome) (node : Node) :
    (fs.setNode n node).node? n = some node := by
  rw [node?, inode?_setNode, if_pos rfl]
  cases hi : fs.inode? n with
  | none => simp [node?, hi] at h
  | some i => rfl

theorem inode?_setNode_other (h : m ≠ n) (node : Node) :
    (fs.setNode n node).inode? m = fs.inode? m := by
  rw [inode?_setNode, if_neg (Ne.symm h)]

theorem child?_setEntries {parent : InodeNumber} {entries entries' : List (Name × InodeNumber)}
    {removed removed' : Bool} (hnode : fs.node? d = some (.dir parent entries removed))
    (m : InodeNumber) (name : Name) :
    (fs.setNode d (.dir parent entries' removed')).child? m name =
      if m = d then entries'.lookup name else fs.child? m name := by
  by_cases h : m = d
  · subst h
    rw [if_pos rfl, child?_of_node (node?_setNode_self (by simp [hnode]) _)]
  · rw [if_neg h]
    exact child?_congr (inode?_setNode_other h _) name

theorem mode_attach (hd : fs.IsDirectory d) (n m : InodeNumber) (name : Name) :
    ((fs.attach d name n).inode? m).map Inode.mode = (fs.inode? m).map Inode.mode := by
  obtain ⟨parent, entries, removed, hnode⟩ := hd
  rw [attach_of_node hnode, mode_setNode]

theorem child?_attach (hd : fs.IsDirectory d) (n m : InodeNumber) (name other : Name) :
    (fs.attach d name n).child? m other =
      if m = d ∧ other = name then some n else fs.child? m other := by
  obtain ⟨parent, entries, removed, hnode⟩ := hd
  rw [attach_of_node hnode, child?_setEntries hnode]
  by_cases hm : m = d
  · subst hm
    by_cases hother : other = name
    · simp [hother, lookup_putEntry_self]
    · simp [hother, lookup_putEntry_other hother, child?_of_node hnode]
  · simp [hm]

theorem child?_detach (hd : fs.IsDirectory d) (m : InodeNumber) (name other : Name) :
    (fs.detach d name).child? m other =
      if m = d ∧ other = name then none else fs.child? m other := by
  obtain ⟨parent, entries, removed, hnode⟩ := hd
  rw [detach_of_node hnode, child?_setEntries hnode]
  by_cases hm : m = d
  · subst hm
    by_cases hother : other = name
    · simp [hother, lookup_filter_ne]
    · simp [hother, lookup_filter_ne, child?_of_node hnode]
  · simp [hm]

/-- Nothing but a regular file has the number. -/
def AtMostFile (fs : FileSystem) (n : InodeNumber) : Prop :=
  ∀ i, fs.inode? n = some i → i.node.isRegular = true

theorem AtMostFile.child? (h : fs.AtMostFile n) (name : Name) : fs.child? n name = none := by
  rw [FileSystem.child?, entries, node?]
  cases hi : fs.inode? n with
  | none => rfl
  | some i =>
      have hregular := h i hi
      cases hnode : i.node <;> simp [hnode, Node.isRegular, Node.entries] at hregular ⊢

theorem AtMostFile.not_directory (h : fs.AtMostFile n) : ¬ fs.IsDirectory n := by
  rintro ⟨parent, entries, removed, hnode⟩
  cases hi : fs.inode? n with
  | none => simp [node?, hi] at hnode
  | some i =>
      have hregular := h i hi
      simp [node?, hi] at hnode
      simp [hnode, Node.isRegular] at hregular

theorem AtMostFile.not_link (h : fs.AtMostFile n) : ¬ fs.IsLink n := by
  rintro ⟨target, hnode⟩
  cases hi : fs.inode? n with
  | none => simp [node?, hi] at hnode
  | some i =>
      have hregular := h i hi
      simp [node?, hi] at hnode
      simp [hnode, Node.isRegular] at hregular

theorem IsFile.atMostFile {contents : Contents} (h : fs.IsFile n contents) : fs.AtMostFile n := by
  intro i hi
  have hnode : i.node = .file contents := by simpa [IsFile, node?, hi] using h
  rw [hnode]
  rfl

end Single

/-! ## Edits -/

/-- Nothing changed but entries of `t` that have certain names, and certain files, which may
have been made. -/
structure Edits (t : InodeNumber) (names : Name → Prop) (staged : InodeNumber → Prop)
    (fs fs' : FileSystem) : Prop where
  inode?_eq : ∀ {n}, n ≠ t → ¬ staged n → fs'.inode? n = fs.inode? n
  child?_eq : ∀ {d name}, ¬ (d = t ∧ names name) → fs'.child? d name = fs.child? d name
  directory : ∀ {i parent entries removed}, fs.inode? t = some i →
    i.node = .dir parent entries removed →
      ∃ i' entries', fs'.inode? t = some i' ∧ i'.node = .dir parent entries' removed ∧
        i'.mode = i.mode
  before : ∀ {n}, staged n → fs.AtMostFile n
  after : ∀ {n}, staged n → fs'.AtMostFile n

section Edits

variable {t x : InodeNumber} {names : Name → Prop} {staged : InodeNumber → Prop}
  {fs fs' fs'' : FileSystem}

theorem Edits.refl (names : Name → Prop) (hstaged : ∀ {n}, staged n → fs.AtMostFile n) :
    Edits t names staged fs fs :=
  ⟨fun _ _ => rfl, fun _ => rfl, fun hi hnode => ⟨_, _, hi, hnode, rfl⟩, hstaged, hstaged⟩

theorem Edits.trans (h : Edits t names staged fs fs') (h' : Edits t names staged fs' fs'') :
    Edits t names staged fs fs'' where
  inode?_eq hn hstaged := (h'.inode?_eq hn hstaged).trans (h.inode?_eq hn hstaged)
  child?_eq hname := (h'.child?_eq hname).trans (h.child?_eq hname)
  directory hi hnode := by
    obtain ⟨i', entries', hi', hnode', hmode'⟩ := h.directory hi hnode
    obtain ⟨i'', entries'', hi'', hnode'', hmode''⟩ := h'.directory hi' hnode'
    exact ⟨i'', entries'', hi'', hnode'', hmode''.trans hmode'⟩
  before := h.before
  after := h'.after

theorem Edits.ne_of_staged (h : Edits t names staged fs fs') (ht : fs.IsDirectory t)
    {n : InodeNumber}
    (hstaged : staged n) : n ≠ t :=
  fun heq => (h.before hstaged).not_directory (heq ▸ ht)

theorem Edits.mono (h : Edits t names staged fs fs') (ht : fs.IsDirectory t)
    {names' : Name → Prop} {staged' : InodeNumber → Prop}
    (hnames : ∀ {name}, names name → names' name)
    (hstaged : ∀ {n}, staged n → staged' n) (hbefore : ∀ {n}, staged' n → fs.AtMostFile n) :
    Edits t names' staged' fs fs' where
  inode?_eq hn hs := h.inode?_eq hn fun hstagedn => hs (hstaged hstagedn)
  child?_eq hname := h.child?_eq fun ⟨hd, hn⟩ => hname ⟨hd, hnames hn⟩
  directory := h.directory
  before := hbefore
  after := by
    intro n hn
    by_cases hs : staged n
    · exact h.after hs
    · have hne : n ≠ t := fun heq => (hbefore hn).not_directory (heq ▸ ht)
      intro i hi
      rw [h.inode?_eq hne hs] at hi
      exact hbefore hn i hi

theorem Edits.isDirectory (h : Edits t names staged fs fs') {n : InodeNumber}
    (hn : fs.IsDirectory n) : fs'.IsDirectory n := by
  obtain ⟨parent, entries, removed, hnode⟩ := hn
  by_cases ht : n = t
  · subst ht
    cases hi : fs.inode? n with
    | none => simp [node?, hi] at hnode
    | some i =>
        obtain ⟨i', entries', hi', hnode', -⟩ := h.directory hi (by simpa [node?, hi] using hnode)
        exact ⟨parent, entries', removed, by rw [node?_of_inode? hi', hnode']⟩
  · have hstaged : ¬ staged n := fun hs =>
      (h.before hs).not_directory ⟨parent, entries, removed, hnode⟩
    exact ⟨parent, entries, removed, by rw [node?, h.inode?_eq ht hstaged]; exact hnode⟩

theorem Edits.symm (h : Edits t names staged fs fs') (ht : fs.IsDirectory t) :
    Edits t names staged fs' fs where
  inode?_eq hn hstaged := (h.inode?_eq hn hstaged).symm
  child?_eq hname := (h.child?_eq hname).symm
  directory := by
    intro i' parent' entries' removed' hi' hnode'
    obtain ⟨parent, entries, removed, hnode⟩ := ht
    obtain ⟨i, hi, hdir⟩ := Option.map_eq_some_iff.mp hnode
    obtain ⟨i'', entries'', hi'', hdir', hmode⟩ := h.directory hi hdir
    obtain rfl := Option.some.inj (hi'.symm.trans hi'')
    obtain ⟨rfl, -, rfl⟩ := Node.dir.inj (hnode'.symm.trans hdir')
    exact ⟨i, entries, hi, hdir, hmode.symm⟩
  before := h.after
  after := h.before

theorem Edits.kept (h : Edits t names staged fs fs') (ht : fs.IsDirectory t)
    (hkept : ∀ {parent entries}, fs.node? t ≠ some (.dir parent entries true))
    {parent : InodeNumber} {entries : List (Name × InodeNumber)} :
    fs'.node? t ≠ some (.dir parent entries true) := by
  intro hremoved
  obtain ⟨parent', entries', removed, hdir⟩ := ht
  obtain ⟨i, hi, hnode⟩ := Option.map_eq_some_iff.mp hdir
  obtain ⟨i', entries'', hi', hnode', -⟩ := h.directory hi hnode
  cases hremoved.symm.trans ((node?_of_inode? hi').trans (congrArg some hnode'))
  exact hkept hdir

/-! ## Single changes are edits -/

theorem edits_setFile (names : Name → Prop) (staged : InodeNumber → Prop)
    (hstaged : ∀ {n}, staged n → fs.AtMostFile n) (ht : fs.IsDirectory t)
    (hx : staged x) (contents : Contents) :
    Edits t names staged fs (fs.setNode x (.file contents)) where
  inode?_eq := by
    intro n _ hn
    have hne : n ≠ x := by
      rintro rfl
      exact hn hx
    exact inode?_setNode_other hne _
  child?_eq := by
    intro d name _
    by_cases hd : d = x
    · subst hd
      rw [(hstaged hx).child?, AtMostFile.child?]
      intro i hi
      rw [inode?_setNode, if_pos rfl] at hi
      obtain ⟨j, -, rfl⟩ := Option.map_eq_some_iff.mp hi
      rfl
    · exact child?_congr (inode?_setNode_other hd _) name
  directory := by
    intro i parent entries removed hi hnode
    have hne : t ≠ x := fun heq => (hstaged hx).not_directory (heq ▸ ht)
    exact ⟨i, entries, by rw [inode?_setNode_other hne, hi], hnode, rfl⟩
  before := hstaged
  after := by
    intro n hn i hi
    rw [inode?_setNode] at hi
    split at hi
    · obtain ⟨j, -, rfl⟩ := Option.map_eq_some_iff.mp hi
      rfl
    · exact hstaged hn i hi

theorem edits_create (names : Name → Prop) (staged : InodeNumber → Prop)
    (hstaged : ∀ {n}, staged n → fs.AtMostFile n) (ht : fs.IsDirectory t)
    (hx : staged fs.inodes.size) (contents : Contents) (mode : Nat) :
    Edits t names staged fs (fs.create (.file contents) mode).2 where
  inode?_eq := by
    intro n _ hn
    have hne : n ≠ fs.inodes.size := by
      rintro rfl
      exact hn hx
    rw [inode?_create, if_neg hne]
  child?_eq := by
    intro d name _
    by_cases hd : d = fs.inodes.size
    · subst hd
      rw [(hstaged hx).child?, AtMostFile.child?]
      intro i hi
      rw [inode?_create, if_pos rfl] at hi
      cases hi
      rfl
    · refine child?_congr ?_ name
      rw [inode?_create, if_neg hd]
  directory := by
    intro i parent entries removed hi hnode
    have hne : t ≠ fs.inodes.size := fun heq => (hstaged hx).not_directory (heq ▸ ht)
    exact ⟨i, entries, by rw [inode?_create, if_neg hne, hi], hnode, rfl⟩
  before := hstaged
  after := by
    intro n hn i hi
    rw [inode?_create] at hi
    split at hi
    · cases hi
      rfl
    · exact hstaged hn i hi

theorem edits_setEntries (names : Name → Prop) (staged : InodeNumber → Prop)
    (hstaged : ∀ {n}, staged n → fs.AtMostFile n) {parent : InodeNumber}
    {entries entries' : List (Name × InodeNumber)} {removed : Bool}
    (hnode : fs.node? t = some (.dir parent entries removed))
    (hentries : ∀ {name}, ¬ names name → entries'.lookup name = entries.lookup name) :
    Edits t names staged fs (fs.setNode t (.dir parent entries' removed)) where
  inode?_eq hn _ := inode?_setNode_other hn _
  child?_eq := by
    intro d name hname
    rw [child?_setEntries hnode]
    by_cases hd : d = t
    · rw [if_pos hd, hd, child?_of_node hnode, hentries fun h => hname ⟨hd, h⟩]
    · rw [if_neg hd]
  directory := by
    intro i parent' entries₁ removed' hi hnode'
    have heq : Node.dir parent entries removed = .dir parent' entries₁ removed' := by
      rw [← hnode', ← Option.some.injEq, ← hnode, node?_of_inode? hi]
    obtain ⟨rfl, rfl, rfl⟩ := Node.dir.inj heq
    refine ⟨{ i with node := .dir parent entries' removed, modified := fs.clock }, entries', ?_,
      rfl,
      rfl⟩
    rw [inode?_setNode, if_pos rfl, hi]
    rfl
  before := hstaged
  after := by
    intro n hn i hi
    have hne : n ≠ t := fun heq =>
      (hstaged hn).not_directory ⟨parent, entries, removed, heq ▸ hnode⟩
    rw [inode?_setNode_other hne] at hi
    exact hstaged hn i hi

theorem edits_attach (names : Name → Prop) (staged : InodeNumber → Prop)
    (hstaged : ∀ {n}, staged n → fs.AtMostFile n) (ht : fs.IsDirectory t) (name : Name)
    (hname : names name) (n : InodeNumber) : Edits t names staged fs (fs.attach t name n) := by
  obtain ⟨parent, entries, removed, hnode⟩ := ht
  rw [attach_of_node hnode]
  refine edits_setEntries names staged hstaged hnode fun {other} hother => ?_
  have hne : other ≠ name := by
    rintro rfl
    exact hother hname
  exact lookup_putEntry_other hne n entries

theorem edits_detach (names : Name → Prop) (staged : InodeNumber → Prop)
    (hstaged : ∀ {n}, staged n → fs.AtMostFile n) (ht : fs.IsDirectory t) (name : Name)
    (hname : names name) : Edits t names staged fs (fs.detach t name) := by
  obtain ⟨parent, entries, removed, hnode⟩ := ht
  rw [detach_of_node hnode]
  refine edits_setEntries names staged hstaged hnode fun {other} hother => ?_
  have hne : other ≠ name := by
    rintro rfl
    exact hother hname
  rw [lookup_filter_ne, if_neg hne]

end Edits

/-! ## Paths are kept -/

/-- Directories and links, and the names they have, are still there. -/
structure KeepsPaths (fs fs' : FileSystem) : Prop where
  directories : ∀ {n parent entries removed}, fs.node? n = some (.dir parent entries removed) →
    ∃ entries' removed', fs'.node? n = some (.dir parent entries' removed')
  passes : ∀ {n}, fs.IsDirectory n → fs'.mayPass n = fs.mayPass n
  links : ∀ {n target}, fs.node? n = some (.link target) → fs'.node? n = some (.link target)
  children : ∀ {d name n}, fs.child? d name = some n → fs.IsDirectory n ∨ fs.IsLink n →
    fs'.child? d name = some n

/-- The root is a directory, and so is whatever a directory lies in. -/
structure Sited (fs : FileSystem) : Prop where
  root : fs.IsDirectory root
  above : ∀ {n parent entries removed}, fs.node? n = some (.dir parent entries removed) →
    fs.IsDirectory parent

/-- Where a way that ends at a place ends in another file system, if the way up to its last name is
kept. -/
inductive Ends (fs fs' : FileSystem) : Place → Place → Prop
  | directory {n : InodeNumber} : fs.IsDirectory n → Ends fs fs' (.existing n) (.existing n)
  /-- All names of it are there, and it has not become a directory or a link. -/
  | kept {n : InodeNumber} : fs.Sited → ¬ fs.IsDirectory n →
      (∀ {d name}, fs.child? d name = some n → fs'.child? d name = some n) →
      (¬ fs.IsLink n → ∃ node, fs'.node? n = some node ∧ ¬ fs'.IsDirectory n ∧ ¬ fs'.IsLink n) →
      Ends fs fs' (.existing n) (.existing n)
  /-- Its only name is gone. -/
  | gone {n d : InodeNumber} {name : Name} : fs.Sited → ¬ fs.IsDirectory n →
      (∀ {e other}, fs.child? e other = some n → e = d ∧ other = name) →
      fs'.child? d name = none → Ends fs fs' (.existing n) (.vacant d name false)
  /-- Nothing is there, as nothing was. -/
  | vacant {d : InodeNumber} {name : Name} {asDirectory : Bool} : fs.Sited →
      fs'.child? d name = none → Ends fs fs' (.vacant d name asDirectory)
        (.vacant d name asDirectory)

section KeepsPaths

variable {fs fs' : FileSystem} {pass : InodeNumber → Except SystemError Unit}

theorem KeepsPaths.isDirectory (hkeeps : KeepsPaths fs fs') {n : InodeNumber}
    (hn : fs.IsDirectory n) : fs'.IsDirectory n := by
  obtain ⟨parent, entries, removed, hnode⟩ := hn
  obtain ⟨entries', removed', hnode'⟩ := hkeeps.directories hnode
  exact ⟨parent, entries', removed', hnode'⟩

def EndsInDirectory (fs : FileSystem) (place : Place) : Prop :=
  ∃ n, place = .existing n ∧ fs.IsDirectory n

theorem Ends.sited {start place : Place} (h : Ends fs fs' start place) :
    fs.EndsInDirectory start ∨ fs.Sited := by
  cases h with
  | directory hdir => exact .inl ⟨_, rfl, hdir⟩
  | kept hsited | gone hsited | vacant hsited => exact .inr hsited

theorem eq_of_walk {node : Node} {here : InodeNumber} {place : Place}
    (hnode : fs.node? here = some node)
    (hdir : node.isDirectory = false) {names : List Name} {asDirectory : Bool}
    {onLink : InodeNumber → Bytes → List Name → Bool → Except SystemError Place}
    (hwalk : walk fs pass true onLink asDirectory here names = .ok place) :
    place = .existing here ∧ names = [] ∧ asDirectory = false := by
  cases names with
  | nil =>
      cases asDirectory
      · simp only [walk, hnode, Bool.false_and, Bool.false_eq_true, if_false] at hwalk
        exact ⟨(Except.ok.inj hwalk).symm, rfl, rfl⟩
      · simp [walk, hnode, hdir] at hwalk
  | cons name rest =>
      rw [walk, hnode] at hwalk
      cases node <;> simp [Node.isDirectory] at hdir hwalk

/-- One stretch of a walk, between two links, goes where it went up to its end; the induction is on
its names. -/
theorem KeepsPaths.walk (hkeeps : KeepsPaths fs fs') {links : Nat} {asDirectory : Bool}
    {start place : Place} (hn : Ends fs fs' start place)
    (jumps : ∀ {dir target rest}, fs.IsDirectory dir →
      fs.jump fs.mayPass true links dir target rest asDirectory = .ok start →
        fs'.jump fs'.mayPass true links dir target rest asDirectory = .ok place)
    {here : InodeNumber} {names : List Name}
    (hhere : fs.EndsInDirectory start ∨ fs.IsDirectory here)
    (hwalk : fs.walk fs.mayPass true (fs.jump fs.mayPass true links) asDirectory here names =
      .ok start) :
    fs'.walk fs'.mayPass true (fs'.jump fs'.mayPass true links) asDirectory here names =
      .ok place := by
  induction names generalizing here with
  | nil =>
      obtain rfl : start = .existing here := by
        cases hhere : fs.node? here with
        | none => simp [FileSystem.walk, hhere] at hwalk
        | some node =>
            simp only [FileSystem.walk, hhere] at hwalk
            split at hwalk
            · cases hwalk
            · exact (Except.ok.inj hwalk).symm
      have hdir : fs.IsDirectory here := by
        rcases hhere with ⟨n, heq, hdir⟩ | hdir
        · obtain rfl := Place.existing.inj heq
          exact hdir
        · exact hdir
      cases hn with
      | directory =>
          obtain ⟨parent, entries, removed, hnode⟩ := hdir
          obtain ⟨entries', removed', hnode'⟩ := hkeeps.directories hnode
          simp [FileSystem.walk, hnode', Node.isDirectory]
      | kept _ hplain | gone _ hplain => exact absurd hdir hplain
  | cons name rest ih =>
      rw [FileSystem.walk] at hwalk ⊢
      cases hnode : fs.node? here with
      | none => simp [hnode] at hwalk
      | some node =>
          cases node with
          | file _ | link _ | device _ | fifo _ => simp [hnode] at hwalk
          | dir parent entries removed =>
              have hdir : fs.IsDirectory here := ⟨parent, entries, removed, hnode⟩
              obtain ⟨entries', removed', hnode'⟩ := hkeeps.directories hnode
              simp only [hnode, hnode', hkeeps.passes hdir] at hwalk ⊢
              cases hpass : fs.mayPass here with
              | error cause => simp [hpass] at hwalk
              | ok _ =>
                  simp only [hpass] at hwalk ⊢
                  by_cases hdot : (name == Path.dot) = true
                  · simp only [if_pos hdot] at hwalk ⊢
                    exact ih (.inr hdir) hwalk
                  by_cases hdotDot : (name == Path.dotDot) = true
                  · simp only [if_neg hdot, if_pos hdotDot] at hwalk ⊢
                    exact ih (hn.sited.imp_right fun hsited => hsited.above hnode) hwalk
                  by_cases hlong : nameLimit < name.length
                  · simp only [if_neg hdot, if_neg hdotDot, if_pos hlong] at hwalk
                    cases hwalk
                  simp only [if_neg hdot, if_neg hdotDot, if_neg hlong] at hwalk ⊢
                  rw [← child?_of_node hnode] at hwalk
                  rw [← child?_of_node hnode']
                  cases hchild : fs.child? here name with
                  | none =>
                      -- the walk ends at a name that nothing has
                      cases rest with
                      | cons _ _ => simp [hchild] at hwalk
                      | nil =>
                          simp only [hchild, List.isEmpty_nil, if_true] at hwalk
                          obtain rfl := Except.ok.inj hwalk
                          cases hn with
                          | vacant _ hnone => simp [hnone]
                  | some m =>
                      simp only [hchild] at hwalk
                      cases hm : fs.node? m with
                      | none =>
                          simp only [hm] at hwalk
                          cases rest <;> simp [FileSystem.walk, hm] at hwalk
                      | some child =>
                          simp only [hm] at hwalk
                          cases child with
                          | file _ | device _ | fifo _ =>
                              -- the walk ends there
                              obtain ⟨hstart, rfl, rfl⟩ := eq_of_walk hm rfl hwalk
                              subst hstart
                              cases hn with
                              | directory hdir' =>
                                  obtain ⟨_, _, _, hnode⟩ := hdir'
                                  cases hm.symm.trans hnode
                              | kept _ _ hnames hplain =>
                                  obtain ⟨node, hnode, hdir', hlink⟩ := hplain (by
                                    rintro ⟨target, hlink⟩
                                    cases hm.symm.trans hlink)
                                  rw [hnames hchild]
                                  cases node with
                                  | dir _ _ _ => exact absurd ⟨_, _, _, hnode⟩ hdir'
                                  | link _ => exact absurd ⟨_, hnode⟩ hlink
                                  | file _ | device _ | fifo _ => simp [hnode, FileSystem.walk]
                              | gone _ _ honly hnone =>
                                  obtain ⟨rfl, rfl⟩ := honly hchild
                                  rw [hnone]
                                  rfl
                          | dir above below gone =>
                              have hdir' : fs.IsDirectory m := ⟨above, below, gone, hm⟩
                              rw [hkeeps.children hchild (.inl hdir')]
                              obtain ⟨below', gone', hm'⟩ := hkeeps.directories hm
                              simp only [hm']
                              exact ih (.inr hdir') hwalk
                          | link target =>
                              rw [hkeeps.children hchild (.inr ⟨_, hm⟩)]
                              simp only [hkeeps.links hm, Bool.not_true, Bool.and_false,
                                Bool.false_and, Bool.false_eq_true, if_false] at hwalk ⊢
                              exact jumps hdir hwalk

/-- A way leads where it led up to its end; the induction is on the links that may be passed. -/
theorem KeepsPaths.walkLinks_end (hkeeps : KeepsPaths fs fs') {links : Nat} {asDirectory : Bool}
    {here : InodeNumber} {start place : Place} (hn : Ends fs fs' start place) {names : List Name}
    (hhere : fs.EndsInDirectory start ∨ fs.IsDirectory here)
    (hwalk : fs.walkLinks fs.mayPass true links asDirectory here names = .ok start) :
    fs'.walkLinks fs'.mayPass true links asDirectory here names = .ok place := by
  induction links generalizing here asDirectory names with
  | zero =>
      rw [walkLinks_eq_walk] at hwalk ⊢
      exact hkeeps.walk hn (fun _ hjump => by simp [jump] at hjump) hhere hwalk
  | succ links ih =>
      rw [walkLinks_eq_walk] at hwalk ⊢
      refine hkeeps.walk hn (fun {dir target rest} hdir hjump => ?_) hhere hwalk
      rw [jump] at hjump ⊢
      refine ih (hn.sited.imp_right fun hsited => ?_) hjump
      split
      · exact hsited.root
      · exact hdir

theorem KeepsPaths.walkLinks (hkeeps : KeepsPaths fs fs') {links : Nat} {asDirectory : Bool}
    {here n : InodeNumber} (hn : fs.IsDirectory n) {names : List Name}
    (hwalk : fs.walkLinks fs.mayPass true links asDirectory here names = .ok (.existing n)) :
    fs'.walkLinks fs'.mayPass true links asDirectory here names = .ok (.existing n) :=
  hkeeps.walkLinks_end (.directory hn) (.inl ⟨n, rfl, hn⟩) hwalk

theorem KeepsPaths.reaches {h : Host} (hkeeps : KeepsPaths h.files fs') {path : Bytes}
    {d : InodeNumber} (hd : h.Reaches path d) : (h.withFiles fs').Reaches path d :=
  hkeeps.walkLinks hd.isDirectory hd

theorem KeepsPaths.resolve_end {h : Host} (hkeeps : KeepsPaths h.files fs') {path : Bytes}
    {start place : Place} (hn : Ends h.files fs' start place)
    (hcwd : h.files.EndsInDirectory start ∨ h.files.IsDirectory h.cwd)
    (hresolve : h.resolve path true = .ok start) :
    (h.withFiles fs').resolve path true = .ok place := by
  rw [Host.resolve] at hresolve ⊢
  cases hchecked : Host.checked path with
  | error cause => simp [hchecked] at hresolve
  | ok readable =>
      simp only [hchecked] at hresolve
      refine hkeeps.walkLinks_end hn ?_ hresolve
      rcases hn.sited with hdir | hsited
      · exact .inl hdir
      · refine hcwd.imp_right fun hcwd => ?_
        rw [Host.origin]
        split
        · exact hsited.root
        · exact hcwd

theorem KeepsPaths.locate {h : Host} (hkeeps : KeepsPaths h.files fs') {path : Bytes}
    {d : InodeNumber} (hd : h.files.IsDirectory d) (hlocate : h.locate path true = .ok d) :
    (h.withFiles fs').locate path true = .ok d :=
  Host.locate_of_resolve
    (hkeeps.resolve_end (.directory hd) (.inl ⟨d, rfl, hd⟩) (Host.of_locate hlocate))

theorem KeepsPaths.stands {h : Host} (hkeeps : KeepsPaths h.files fs') {path : Bytes}
    (hstands : h.isDirectory path = true) : (h.withFiles fs').isDirectory path = true := by
  cases hstat : h.stat path with
  | error cause => simp [Host.isDirectory, hstat] at hstands
  | ok i =>
      rw [Host.isDirectory_of_stat hstat] at hstands
      obtain ⟨n, hlocate, hi⟩ := Host.of_stat hstat
      have hdir : h.files.IsDirectory n := isDirectory_iff.mpr (by
        rw [node?_of_inode? hi]
        exact hstands)
      have hlocate' := hkeeps.locate hdir hlocate
      obtain ⟨parent, entries, removed, hnode⟩ := hdir
      obtain ⟨entries', removed', hnode'⟩ := hkeeps.directories hnode
      obtain ⟨i', hi', hnode'⟩ := Option.map_eq_some_iff.mp hnode'
      rw [Host.isDirectory_of_stat (Host.stat_of_locate hlocate' hi'), hnode']
      rfl

/-- So does a way down to one; the induction is on the way. -/
theorem KeepsPaths.descend (hkeeps : KeepsPaths fs fs') {loc : Location} {n d : InodeNumber}
    (hd : fs.IsDirectory d) (hdescend : fs.descend n loc = some d) :
    fs'.descend n loc = some d := by
  induction loc generalizing n with
  | nil => exact hdescend
  | cons name rest ih =>
      rw [FileSystem.descend] at hdescend ⊢
      obtain ⟨m, hchild, hrest⟩ := Option.bind_eq_some_iff.mp hdescend
      have hm : fs.IsDirectory m := by
        cases rest with
        | nil =>
            obtain rfl : m = d := Option.some.inj hrest
            exact hd
        | cons next rest =>
            obtain ⟨k, hnext, -⟩ := Option.bind_eq_some_iff.mp hrest
            exact isDirectory_of_child? hnext
      rw [hkeeps.children hchild (.inl hm)]
      exact ih hrest

end KeepsPaths

section Frame

variable {t : InodeNumber} {names : Name → Prop} {staged : InodeNumber → Prop}
  {fs fs' : FileSystem}

theorem Edits.keepsPaths (h : Edits t names staged fs fs') (ht : fs.IsDirectory t)
    (hplain : ∀ {name n}, names name → fs.child? t name = some n →
      ¬ fs.IsDirectory n ∧ ¬ fs.IsLink n) : KeepsPaths fs fs' where
  directories := by
    intro n parent entries removed hnode
    by_cases hn : n = t
    · subst hn
      cases hi : fs.inode? n with
      | none => simp [node?, hi] at hnode
      | some i =>
          obtain ⟨i', entries', hi', hnode', -⟩ := h.directory hi (by simpa [node?, hi] using hnode)
          exact ⟨entries', removed, by rw [node?_of_inode? hi', hnode']⟩
    · have hstaged : ¬ staged n := fun hs => (h.before hs).not_directory ⟨_, _, _, hnode⟩
      exact ⟨entries, removed, by rw [node?, h.inode?_eq hn hstaged]; exact hnode⟩
  passes := by
    intro n hn
    by_cases heq : n = t
    · subst heq
      obtain ⟨parent, entries, removed, hnode⟩ := hn
      cases hi : fs.inode? n with
      | none => simp [node?, hi] at hnode
      | some i =>
          obtain ⟨i', entries', hi', -, hmode⟩ := h.directory hi (by simpa [node?, hi] using hnode)
          exact mayPass_of_mode hi hi' hmode
    · have hstaged : ¬ staged n := fun hs => (h.before hs).not_directory hn
      simp only [mayPass, h.inode?_eq heq hstaged]
  links := by
    intro n target hnode
    have hn : n ≠ t := by
      rintro rfl
      obtain ⟨parent, entries, removed, hdir⟩ := ht
      rw [hnode] at hdir
      cases hdir
    have hstaged : ¬ staged n := fun hs => (h.before hs).not_link ⟨target, hnode⟩
    rw [node?, h.inode?_eq hn hstaged]
    exact hnode
  children := by
    intro d name n hchild hkind
    refine (h.child?_eq ?_).trans hchild
    rintro ⟨rfl, hname⟩
    obtain ⟨hdir, hlink⟩ := hplain hname hchild
    exact hkind.elim hdir hlink

/-- A way down that does not end in a touched entry leads where it led; the induction is on the
way. -/
theorem descend_of_edits (h : Edits t names staged fs fs')
    (hplain : ∀ {name n}, names name → fs.child? t name = some n → ¬ fs.IsDirectory n)
    (hplain' : ∀ {name n}, names name → fs'.child? t name = some n → ¬ fs'.IsDirectory n)
    {loc : Location} {n : InodeNumber}
    (hloc : ∀ front name, loc = front ++ [name] → fs.descend n front = some t → ¬ names name) :
    fs'.descend n loc = fs.descend n loc := by
  induction loc generalizing n with
  | nil => rfl
  | cons name rest ih =>
      rw [descend, descend]
      by_cases htouched : n = t ∧ names name
      · obtain ⟨rfl, hname⟩ := htouched
        cases rest with
        | nil => exact absurd hname (hloc [] name rfl rfl)
        | cons next rest =>
            -- neither what was there nor what is there now has anything below it
            have nothing : ∀ (gs : FileSystem),
                (∀ {m}, gs.child? n name = some m → ¬ gs.IsDirectory m) →
                  (gs.child? n name).bind (gs.descend · (next :: rest)) = none := by
              intro gs hgs
              cases hchild : gs.child? n name with
              | none => rfl
              | some m =>
                  rw [Option.bind_some, descend]
                  cases hnext : gs.child? m next with
                  | none => rfl
                  | some k => exact absurd (isDirectory_of_child? hnext) (hgs hchild)
            rw [nothing fs (hplain hname), nothing fs' (hplain' hname)]
      · rw [h.child?_eq htouched]
        cases hchild : fs.child? n name with
        | none => rfl
        | some m =>
            rw [Option.bind_some, Option.bind_some]
            refine ih fun front last heq hfront => hloc (name :: front) last (by rw [heq]; rfl) ?_
            rw [descend, hchild]
            exact hfront

/-- What is not at a touched entry is to be seen as before, if the files that were touched have no
entries but those. -/
theorem seen_of_edits (h : Edits t names staged fs fs') (ht : fs.IsDirectory t)
    (hroot : fs.IsDirectory root)
    (hplain : ∀ {name n}, names name → fs.child? t name = some n → ¬ fs.IsDirectory n)
    (hplain' : ∀ {name n}, names name → fs'.child? t name = some n → ¬ fs'.IsDirectory n)
    (hown : ∀ {d name n}, staged n → fs.child? d name = some n → d = t ∧ names name)
    {loc : Location}
    (hloc : ∀ front name, loc = front ++ [name] → fs.at? front = some t → ¬ names name) :
    fs'.seen loc = fs.seen loc := by
  have hat : fs'.at? loc = fs.at? loc := descend_of_edits h hplain hplain' hloc
  rw [seen, seen, hat]
  cases hn : fs.at? loc with
  | none => rfl
  | some n =>
      rw [Option.bind_some, Option.bind_some]
      by_cases hnt : n = t
      · obtain ⟨parent, entries, removed, hnode⟩ := ht
        obtain ⟨i, hi, hdir⟩ := Option.map_eq_some_iff.mp hnode
        obtain ⟨i', entries', hi', hdir', hmode⟩ := h.directory hi hdir
        rw [hnt, hi, hi', Option.map_some, Option.map_some, shown, shown, hdir, hdir']
        simp only [hmode]
      · rw [h.inode?_eq hnt]
        -- a file that was touched is seen at a touched entry only
        intro hstaged
        rcases List.eq_nil_or_concat loc with rfl | ⟨front, name, rfl⟩
        · obtain rfl : root = n := Option.some.inj hn
          exact (h.before hstaged).not_directory hroot
        · rw [List.concat_eq_append] at hn
          rw [at?, descend_concat] at hn
          obtain ⟨d, hd, hchild⟩ := Option.bind_eq_some_iff.mp hn
          obtain ⟨rfl, hname⟩ := hown hstaged hchild
          exact hloc front name (List.concat_eq_append ..) hd hname

end Frame

end FileSystem
end WasmPackager
