/-
# `Proofs.FileSystem.Making` — making directories

A request for a directory makes those that are missing on the way to it, and
may give up half-way.  Whatever becomes of it, directories are all that was
made: `Host.Furnished made h h'` says that between two hosts nothing happened
but that new directories came about, and that each of them is found under one
of the paths `made`.  One new directory is such a step (`furnished_of_make`),
steps can be put together (`Furnished.trans`), and a request is made of them
(`furnished_createDirectories`).
-/
import WasmPackager.Proofs.FileSystem.Writing

namespace WasmPackager

namespace FileSystem

variable {fs : FileSystem} {d n : InodeNumber} {i i' : Inode}

theorem shown_cases (h : shown i' = shown i) :
    i' = i ∨ ∃ parent entries entries' removed, i.node = .dir parent entries removed ∧
      i'.node = .dir parent entries' removed ∧ i'.mode = i.mode := by
  obtain ⟨node, mode, modified⟩ := i
  obtain ⟨node', mode', modified'⟩ := i'
  cases node with
  | dir parent entries removed =>
      cases node' with
      | dir parent' entries' removed' =>
          obtain ⟨⟨rfl, rfl⟩, rfl⟩ : (parent' = parent ∧ removed' = removed) ∧ mode' = mode := by
            simpa [shown] using h
          exact .inr ⟨_, _, _, _, rfl, rfl, rfl⟩
      | file _ | link _ | device _ | fifo _ => simp [shown] at h
  | file _ | link _ | device _ | fifo _ =>
      cases node' with
      | dir _ _ _ => simp [shown] at h
      | file _ | link _ | device _ | fifo _ => exact .inl h

theorem shown_attach (hd : fs.IsDirectory d) (name : Name) (n : InodeNumber) {m : InodeNumber}
    (hi : fs.inode? m = some i) :
    ∃ i', (fs.attach d name n).inode? m = some i' ∧ shown i' = shown i := by
  obtain ⟨parent, entries, removed, hnode⟩ := hd
  rw [attach_of_node hnode]
  by_cases hm : m = d
  · subst hm
    have hdir : i.node = .dir parent entries removed := by simpa [node?, hi] using hnode
    refine ⟨{ i with node := .dir parent (putEntry name n entries) removed, modified := fs.clock },
      by rw [inode?_setNode, if_pos rfl, hi]; rfl, ?_⟩
    simp only [shown, hdir]
  · exact ⟨i, by rw [inode?_setNode_other hm, hi], rfl⟩

section NewDirectory

variable {name : Name} (mode : Nat) (hd : fs.IsDirectory d)

def addDirectory (fs : FileSystem) (d : InodeNumber) (name : Name) (mode : Nat) : FileSystem :=
  (fs.create (.dir d [] false) mode).2.attach d name fs.inodes.size

include hd

theorem ne_size : d ≠ fs.inodes.size := by
  rintro rfl
  obtain ⟨parent, entries, removed, hnode⟩ := hd
  simp [node?, inode?] at hnode

theorem isDirectory_create : (fs.create (.dir d [] false) mode).2.IsDirectory d := by
  have hne := ne_size hd
  obtain ⟨parent, entries, removed, hnode⟩ := hd
  refine ⟨parent, entries, removed, ?_⟩
  rw [node?, inode?_create, if_neg hne]
  exact hnode

theorem shown_addDirectory (hi : fs.inode? n = some i) :
    ∃ i', (fs.addDirectory d name mode).inode? n = some i' ∧ shown i' = shown i := by
  refine shown_attach (isDirectory_create mode hd) name _ ?_
  have hn : n ≠ fs.inodes.size := by
    rintro rfl
    simp [inode?] at hi
  rw [inode?_create, if_neg hn, hi]

theorem child?_addDirectory (m : InodeNumber) (other : Name) :
    (fs.addDirectory d name mode).child? m other =
      if m = d ∧ other = name then some fs.inodes.size else fs.child? m other := by
  rw [addDirectory, child?_attach (isDirectory_create mode hd)]
  split
  · rfl
  · by_cases hm : m = fs.inodes.size
    · -- nothing is in the new directory, and nothing was
      subst hm
      rw [child?, child?, entries, entries, node?, node?, inode?_create, if_pos rfl]
      simp [inode?, Node.entries]
    · exact child?_congr (by rw [inode?_create, if_neg hm]) other

theorem inode?_addDirectory_other (hn : n ≠ d) (hn' : n ≠ fs.inodes.size) :
    (fs.addDirectory d name mode).inode? n = fs.inode? n := by
  obtain ⟨parent, entries, removed, hnode⟩ := isDirectory_create mode hd
  rw [addDirectory, attach_of_node hnode, inode?_setNode_other hn, inode?_create, if_neg hn']

theorem node?_addDirectory :
    (fs.addDirectory d name mode).node? fs.inodes.size = some (.dir d [] false) := by
  have hne := ne_size hd
  obtain ⟨parent, entries, removed, hnode⟩ := isDirectory_create mode hd
  rw [addDirectory, attach_of_node hnode, node?, inode?_setNode_other (Ne.symm hne), inode?_create,
    if_pos rfl]
  rfl

end NewDirectory

end FileSystem

namespace Host

open FileSystem WasmPackager.Path

/-- Nothing happened but that directories were made, each of which is found under one of certain
paths. -/
structure Furnished (made : Bytes → Prop) (h h' : Host) : Prop where
  cwd : h'.cwd = h.cwd
  kept : ∀ {n i}, h.files.inode? n = some i →
    ∃ i', h'.files.inode? n = some i' ∧ shown i' = shown i
  entries : ∀ {d name n}, h.files.child? d name = some n → h'.files.child? d name = some n
  added : ∀ {d name n}, h'.files.child? d name = some n → h.files.child? d name = none →
    h.files.inode? n = none ∧ n ≠ d ∧ h'.files.IsDirectory n ∧
      ∃ path, made path ∧ h'.locate path true = .ok n
  above : ∀ {n parent entries removed}, h.files.inode? n = none →
    h'.files.node? n = some (.dir parent entries removed) → h'.files.IsDirectory parent

/-- Every number a host speaks of is that of an inode, and that of a directory where it has to
be. -/
structure Sound (h : Host) : Prop where
  leads : h.files.Leads
  sited : h.files.Sited
  cwd : h.files.IsDirectory h.cwd

/-- A tree can be checked to be that of a sound host inode by inode. -/
theorem sound_of_forall {h : Host} (htree : h.files.IsTree)
    (habove : ∀ n < h.files.inodes.size, ((h.files.node? n).all fun node => match node with
      | .dir parent _ _ => (h.files.node? parent).any Node.isDirectory
      | _ => true) = true)
    (hcwd : (h.files.node? h.cwd).any Node.isDirectory = true) : h.Sound where
  leads hchild := htree.leads _ _ (mem_entries_of_child? hchild)
  sited := by
    refine ⟨htree.rooted, fun {n parent entries removed} hnode => isDirectory_iff.mpr ?_⟩
    obtain ⟨i, hi, -⟩ := Option.map_eq_some_iff.mp hnode
    simpa [hnode] using habove n (Array.getElem?_eq_some_iff.mp hi).1
  cwd := isDirectory_iff.mpr hcwd

section Furnished

variable {made made' : Bytes → Prop} {h h' h'' : Host} {n t : InodeNumber} {name : Name}

theorem eq_withFiles (hcwd : h'.cwd = h.cwd) : h' = h.withFiles h'.files := by
  rw [withFiles, ← hcwd]

theorem keepsPaths_of_shown {fs fs' : FileSystem}
    (hkept : ∀ {n i}, fs.inode? n = some i → ∃ i', fs'.inode? n = some i' ∧ shown i' = shown i)
    (hentries : ∀ {d name n}, fs.child? d name = some n → fs'.child? d name = some n) :
    KeepsPaths fs fs' where
  directories := by
    intro n parent entries removed hnode
    obtain ⟨i, hi, hdir⟩ := Option.map_eq_some_iff.mp hnode
    obtain ⟨i', hi', hshown⟩ := hkept hi
    rcases shown_cases hshown with rfl | ⟨parent', entries', entries'', removed', hdir', hdir'', -⟩
    · exact ⟨entries, removed, (node?_of_inode? hi').trans (congrArg some hdir)⟩
    · obtain ⟨rfl, rfl, rfl⟩ := Node.dir.inj (hdir.symm.trans hdir')
      exact ⟨entries'', removed, (node?_of_inode? hi').trans (congrArg some hdir'')⟩
  passes := by
    rintro n ⟨parent, entries, removed, hnode⟩
    obtain ⟨i, hi, hdir⟩ := Option.map_eq_some_iff.mp hnode
    obtain ⟨i', hi', hshown⟩ := hkept hi
    rcases shown_cases hshown with rfl | ⟨_, _, _, _, -, -, hmode⟩
    · exact mayPass_of_mode hi hi' rfl
    · exact mayPass_of_mode hi hi' hmode
  links := by
    intro n target hnode
    obtain ⟨i, hi, hlink⟩ := Option.map_eq_some_iff.mp hnode
    obtain ⟨i', hi', hshown⟩ := hkept hi
    rcases shown_cases hshown with rfl | ⟨_, _, _, _, hdir, -, -⟩
    · exact (node?_of_inode? hi').trans (congrArg some hlink)
    · cases hlink.symm.trans hdir
  children := fun hchild _ => hentries hchild

theorem Furnished.keepsPaths (hf : Furnished made h h') : KeepsPaths h.files h'.files :=
  keepsPaths_of_shown hf.kept hf.entries

theorem Furnished.isDirectory (hf : Furnished made h h') (hn : h.files.IsDirectory n) :
    h'.files.IsDirectory n :=
  hf.keepsPaths.isDirectory hn

theorem Furnished.locate (hf : Furnished made h h') {path : Bytes} (hn : h.files.IsDirectory n)
    (hlocate : h.locate path true = .ok n) : h'.locate path true = .ok n := by
  rw [eq_withFiles hf.cwd]
  exact hf.keepsPaths.locate hn hlocate

theorem Furnished.stands (hf : Furnished made h h') {path : Bytes}
    (hstands : h.isDirectory path = true) : h'.isDirectory path = true := by
  rw [eq_withFiles hf.cwd]
  exact hf.keepsPaths.stands hstands

theorem Furnished.refl (made : Bytes → Prop) (h : Host) : Furnished made h h :=
  ⟨rfl, fun hi => ⟨_, hi, rfl⟩, id, fun hsome hnone => absurd (hsome.symm.trans hnone) nofun,
    fun hnone hnode => by simp [node?, hnone] at hnode⟩

theorem Furnished.mono (hf : Furnished made h h') (hmade : ∀ path, made path → made' path) :
    Furnished made' h h' := by
  refine ⟨hf.cwd, hf.kept, hf.entries, fun hsome hnone => ?_, hf.above⟩
  obtain ⟨hfresh, hne, hdir, path, hpath, hlocate⟩ := hf.added hsome hnone
  exact ⟨hfresh, hne, hdir, path, hmade path hpath, hlocate⟩

theorem Furnished.lies (hf : Furnished made h h') {i : Inode} (hi : h.files.inode? n = some i)
    {parent : InodeNumber} {entries : List (Name × InodeNumber)} {removed : Bool}
    (hnode : h'.files.node? n = some (.dir parent entries removed)) :
    ∃ entries', h.files.node? n = some (.dir parent entries' removed) := by
  obtain ⟨i', hi', hshown⟩ := hf.kept hi
  have hdir : i'.node = .dir parent entries removed :=
    Option.some.inj ((node?_of_inode? hi').symm.trans hnode)
  rcases shown_cases hshown with rfl | ⟨_, entries', _, _, hdir', hdir'', -⟩
  · exact ⟨entries, (node?_of_inode? hi).trans (congrArg some hdir)⟩
  · obtain ⟨rfl, -, rfl⟩ := Node.dir.inj (hdir.symm.trans hdir'')
    exact ⟨entries', (node?_of_inode? hi).trans (congrArg some hdir')⟩

theorem Furnished.trans (hf : Furnished made h h') (hf' : Furnished made h' h'') :
    Furnished made h h'' where
  cwd := hf'.cwd.trans hf.cwd
  kept := by
    intro n i hi
    obtain ⟨i', hi', hshown⟩ := hf.kept hi
    obtain ⟨i'', hi'', hshown'⟩ := hf'.kept hi'
    exact ⟨i'', hi'', hshown'.trans hshown⟩
  entries := fun hchild => hf'.entries (hf.entries hchild)
  added := by
    intro d name n hsome hnone
    cases hchild : h'.files.child? d name with
    | some m =>
        obtain rfl := Option.some.inj ((hf'.entries hchild).symm.trans hsome)
        obtain ⟨hfresh, hne, hdir, path, hpath, hlocate⟩ := hf.added hchild hnone
        exact ⟨hfresh, hne, hf'.isDirectory hdir, path, hpath, hf'.locate hdir hlocate⟩
    | none =>
        obtain ⟨hfresh, hrest⟩ := hf'.added hsome hchild
        refine ⟨?_, hrest⟩
        cases hi : h.files.inode? n with
        | none => rfl
        | some i =>
            obtain ⟨i', hi', -⟩ := hf.kept hi
            cases hfresh.symm.trans hi'
  above := by
    intro n parent entries removed hnone hnode
    cases hi : h'.files.inode? n with
    | none => exact hf'.above hi hnode
    | some i =>
        obtain ⟨entries', hnode'⟩ := hf'.lies hi hnode
        exact hf'.isDirectory (hf.above hnone hnode')

/-- Whatever an entry that is no directory leads to was there before, under the same name. -/
theorem Furnished.old (hf : Furnished made h h') {d : InodeNumber} {name : Name}
    (hchild : h'.files.child? d name = some n) (hplain : ¬ h'.files.IsDirectory n) :
    h.files.child? d name = some n := by
  cases hold : h.files.child? d name with
  | some m => exact (hf.entries hold).symm.trans hchild
  | none => exact absurd (hf.added hchild hold).2.2.1 hplain

theorem Furnished.leads (hf : Furnished made h h') (hleads : h.files.Leads) : h'.files.Leads := by
  intro d name n hchild
  cases hold : h.files.child? d name with
  | some m =>
      obtain rfl := Option.some.inj ((hf.entries hold).symm.trans hchild)
      obtain ⟨i, hi⟩ := hleads hold
      obtain ⟨i', hi', -⟩ := hf.kept hi
      exact ⟨i', hi'⟩
  | none =>
      obtain ⟨-, -, ⟨parent, entries, removed, hnode⟩, -⟩ := hf.added hchild hold
      obtain ⟨i, hi, -⟩ := Option.map_eq_some_iff.mp hnode
      exact ⟨i, hi⟩

theorem Furnished.sound (hf : Furnished made h h') (hs : h.Sound) : h'.Sound where
  leads := hf.leads hs.leads
  sited := by
    refine ⟨hf.isDirectory hs.sited.root, fun {n parent entries removed} hnode => ?_⟩
    cases hi : h.files.inode? n with
    | none => exact hf.above hi hnode
    | some i =>
        obtain ⟨entries', hnode'⟩ := hf.lies hi hnode
        exact hf.isDirectory (hs.sited.above hnode')
  cwd := by
    rw [hf.cwd]
    exact hf.isDirectory hs.cwd

theorem Furnished.spare (hf : Furnished made h h') (hspare : h.files.Spare t name) :
    h'.files.Spare t name := by
  intro n hchild hplain
  obtain ⟨⟨contents, hfile⟩, hown⟩ := hspare (hf.old hchild hplain) fun hdir =>
    hplain (hf.isDirectory hdir)
  refine ⟨⟨contents, ?_⟩, fun hother => hown (hf.old hother hplain)⟩
  obtain ⟨i, hi, hnode⟩ := Option.map_eq_some_iff.mp hfile
  obtain ⟨i', hi', hshown⟩ := hf.kept hi
  rcases shown_cases hshown with rfl | ⟨_, _, _, _, hdir, -, -⟩
  · exact (node?_of_inode? hi').trans (congrArg some hnode)
  · cases hnode.symm.trans hdir

theorem Furnished.child?_ne_self (hf : Furnished made h h') (htree : h.files.IsTree)
    (ht : h'.files.IsDirectory t) : h'.files.child? t name ≠ some t := by
  intro hchild
  cases hold : h.files.child? t name with
  | none => exact (hf.added hchild hold).2.1 rfl
  | some m =>
      obtain rfl := Option.some.inj ((hf.entries hold).symm.trans hchild)
      obtain ⟨rank, hrank⟩ := htree.ranked
      have hdir := isDirectory_of_child? hold
      exact absurd (hrank m _ (mem_entries_of_child? hold) hdir) (Nat.lt_irrefl _)

end Furnished

/-! ## One directory -/

section Making

variable {h h' : Host} {path : Bytes} {name : Name}

theorem of_checked {p : Bytes} (h : checked path = .ok p) : 0 ∉ p := by
  rw [checked] at h
  split at h
  · cases h
  · split at h
    · cases h
    · intro hmem
      rw [← Except.ok.inj h] at hmem
      exact absurd (List.all_eq_true.mp List.all_takeWhile 0 hmem) (by decide)

theorem of_slot {s : Slot} (hslot : h.slot path = .ok s) :
    ∃ p, checked path = .ok p ∧
      h.files.walkLinks h.files.mayPass true linkLimit true (h.origin p) (names p).dropLast =
        .ok (.existing s.dir) ∧
      h.files.mayPass s.dir = .ok () ∧ s.last = lastName (names p) := by
  rw [slot] at hslot
  cases hchecked : checked path with
  | error cause => simp [hchecked, bind, Except.bind] at hslot
  | ok p =>
      simp only [hchecked, bind, Except.bind] at hslot
      cases hwalk : h.files.walkLinks h.files.mayPass true linkLimit true (h.origin p)
          (names p).dropLast with
      | error cause => simp [hwalk] at hslot
      | ok place =>
          cases place with
          | vacant d name asDirectory => simp [hwalk] at hslot
          | existing d =>
              simp only [hwalk] at hslot
              cases hpass : h.files.mayPass d with
              | error cause => simp [hpass] at hslot
              | ok _ =>
                  simp only [hpass] at hslot
                  cases hslot
                  exact ⟨p, rfl, hwalk, hpass, rfl⟩

theorem of_lastName {p : Bytes} (hzero : 0 ∉ p) (hlast : lastName (names p) = .entry name)
    (hshort : name.length ≤ nameLimit) : ∃ front, names p = front ++ [name] ∧ IsName name := by
  rcases List.eq_nil_or_concat (names p) with hnil | ⟨front, last, hnames⟩
  · rw [hnil] at hlast
    cases hlast
  rw [List.concat_eq_append] at hnames
  rw [hnames, lastName_concat] at hlast
  have hdot : ¬ (last == dot) = true := fun heq => by simp [heq] at hlast
  have hdotDot : ¬ (last == dotDot) = true := fun heq => by
    simp only [if_neg hdot, if_pos heq] at hlast
    cases hlast
  simp only [if_neg hdot, if_neg hdotDot] at hlast
  obtain rfl := LastName.entry.inj hlast
  have hmem : last ∈ names p := by rw [hnames]; exact List.mem_append_right front List.mem_cons_self
  rw [names, List.mem_filter] at hmem
  obtain ⟨hpiece, hnonempty⟩ := hmem
  refine ⟨front, hnames, ?_, Bytes.not_mem_of_mem_splitOn hpiece, ?_, ?_, ?_,
    hshort⟩
  · simpa using hnonempty
  · exact fun hmem => hzero (Bytes.mem_of_mem_splitOn hpiece hmem)
  · simpa using hdot
  · simpa using hdotDot

theorem of_makeDirectory {mode : Nat} (hmake : h.makeDirectory path mode = .ok h') :
    ∃ s name, h.slot path = .ok s ∧ s.last = .entry name ∧ name.length ≤ nameLimit ∧
      h.files.child? s.dir name = none ∧
      h' = h.withFiles (h.files.addDirectory s.dir name mode) := by
  rw [makeDirectory] at hmake
  cases hslot : h.slot path with
  | error cause => simp [hslot, bind, Except.bind] at hmake
  | ok s =>
      simp only [hslot, bind, Except.bind] at hmake
      cases hlast : s.last with
      | dot | dotDot | root => simp [hlast] at hmake
      | entry name =>
          simp only [hlast] at hmake
          cases hentry : h.entryOf s.dir name with
          | error cause => simp [hentry] at hmake
          | ok child =>
              simp only [hentry] at hmake
              obtain ⟨hshort, rfl⟩ := of_entryOf hentry
              cases hchild : h.files.child? s.dir name with
              | some n => simp [hchild] at hmake
              | none =>
                  simp only [hchild, addEntry, bind, Except.bind] at hmake
                  cases hadd : h.mayAdd s.dir with
                  | error cause => simp [hadd] at hmake
                  | ok _ =>
                      simp only [hadd, pure, Except.pure] at hmake
                      exact ⟨s, name, rfl, hlast, hshort, hchild, (Except.ok.inj hmake).symm⟩

theorem furnished_makeDirectory {mode : Nat} (hmake : h.makeDirectory path mode = .ok h') :
    Furnished (· = path) h h' ∧ h'.isDirectory path = true := by
  obtain ⟨s, name, hslot, hlast, hshort, hchild, rfl⟩ := of_makeDirectory hmake
  obtain ⟨p, hchecked, hwalk, hpass, hlast'⟩ := of_slot hslot
  obtain ⟨front, hnames, hname⟩ :=
    of_lastName (of_checked hchecked) (hlast'.symm.trans hlast) hshort
  rw [hnames, List.dropLast_concat] at hwalk
  have hd : h.files.IsDirectory s.dir := by
    rcases walkLinks_splits h.files h.files.mayPass linkLimit (h.origin p) front with
      ⟨d, links, hfirst, hdir, -⟩ | ⟨hfirst, -⟩
    · obtain rfl : d = s.dir := by simpa using hfirst.symm.trans hwalk
      exact hdir
    · exact absurd hwalk (hfirst s.dir)
  have hkept : ∀ {n i}, h.files.inode? n = some i →
      ∃ i', (h.files.addDirectory s.dir name mode).inode? n = some i' ∧ shown i' = shown i :=
    fun hi => shown_addDirectory mode hd hi
  have hentries : ∀ {d other n}, h.files.child? d other = some n →
      (h.files.addDirectory s.dir name mode).child? d other = some n := by
    intro d other n hother
    rw [child?_addDirectory mode hd, if_neg, hother]
    rintro ⟨rfl, rfl⟩
    cases hchild.symm.trans hother
  have hkeeps := keepsPaths_of_shown hkept hentries
  have hnode : (h.files.addDirectory s.dir name mode).node? h.files.inodes.size =
      some (.dir s.dir [] false) := node?_addDirectory mode hd
  have hlocate : (h.withFiles (h.files.addDirectory s.dir name mode)).locate path true =
      .ok h.files.inodes.size := by
    refine locate_of_resolve ?_
    rw [resolve, hchecked]
    simp only
    rw [hnames]
    -- the names in front lead where they led, and the last one to the new directory
    rcases walkLinks_splits (h.files.addDirectory s.dir name mode)
        (h.files.addDirectory s.dir name mode).mayPass linkLimit (h.origin p) front with
      ⟨d, links, hfirst, hdir, hwhole⟩ | ⟨hfirst, -⟩
    · obtain rfl : d = s.dir := by
        simpa using hfirst.symm.trans (hkeeps.walkLinks hd hwalk)
      refine (hwhole true (hasTrailingSlash p) [name] (by simp)).trans ?_
      refine walkLinks_name_existing hdir ((hkeeps.passes hd).trans hpass) hname ?_ hnode ?_
        fun _ => rfl
      · rw [child?_addDirectory mode hd, if_pos ⟨rfl, rfl⟩]
      · rintro ⟨target, htarget⟩
        cases hnode.symm.trans htarget
    · exact absurd (hkeeps.walkLinks hd hwalk) (hfirst s.dir)
  refine ⟨⟨rfl, hkept, hentries, fun {d other n} hsome hnone => ?_,
    fun {n parent entries removed} hnone hdir => ?_⟩, ?_⟩
  · replace hsome : (h.files.addDirectory s.dir name mode).child? d other = some n := hsome
    rw [child?_addDirectory mode hd] at hsome
    split at hsome
    · next heq =>
      obtain ⟨rfl, rfl⟩ := heq
      obtain rfl := Option.some.inj hsome
      exact ⟨by simp [inode?], Ne.symm (ne_size hd), ⟨_, _, _, hnode⟩, path, rfl, hlocate⟩
    · cases hnone.symm.trans hsome
  · -- only one is new
    have hn : n = h.files.inodes.size := by
      refine Decidable.byContradiction fun hn => ?_
      have hne : n ≠ s.dir := by
        rintro rfl
        obtain ⟨_, _, _, hnode⟩ := hd
        simp [node?, hnone] at hnode
      rw [node?, withFiles, inode?_addDirectory_other mode hd hne hn, hnone] at hdir
      cases hdir
    subst hn
    obtain ⟨rfl, -, -⟩ := Node.dir.inj (Option.some.inj (hnode.symm.trans hdir))
    exact (keepsPaths_of_shown hkept hentries).isDirectory hd
  · obtain ⟨i, hi, hdir⟩ := Option.map_eq_some_iff.mp hnode
    rw [isDirectory_of_stat (stat_of_locate hlocate hi), hdir]
    rfl

theorem furnished_ensureDirectory (hensure : h.ensureDirectory path = .ok h') :
    Furnished (· = path) h h' ∧ h'.isDirectory path = true := by
  rw [ensureDirectory] at hensure
  split at hensure
  · split at hensure
    · next hstands =>
      obtain rfl := Except.ok.inj hensure
      exact ⟨.refl _ h, hstands⟩
    · cases hensure
  · exact furnished_makeDirectory hensure

end Making

/-! ## All that are missing -/

section Request

variable {h : Host} {dir path : Bytes} {paths : List Bytes}

/-- Directories are made one after the other, whether or not the last one can be; the induction is
on the paths. -/
theorem furnished_ensureAll (h : Host) (paths : List Bytes) :
    Furnished (· ∈ paths) h (h.ensureAll paths).2 ∧
      ((h.ensureAll paths).1 = .ok () → ∀ path ∈ paths,
        (h.ensureAll paths).2.isDirectory path = true) := by
  induction paths generalizing h with
  | nil => exact ⟨.refl _ h, nofun⟩
  | cons path rest ih =>
      rw [ensureAll]
      cases hensure : h.ensureDirectory path with
      | error cause => exact ⟨.refl _ h, nofun⟩
      | ok h' =>
          obtain ⟨first, hstands⟩ := furnished_ensureDirectory hensure
          obtain ⟨later, hlater⟩ := ih h'
          refine ⟨(first.mono ?_).trans (later.mono fun _ => List.mem_cons_of_mem path), ?_⟩
          · rintro _ rfl
            exact List.mem_cons_self
          · intro hok other hother
            rcases List.mem_cons.mp hother with rfl | hother
            · exact later.stands hstands
            · exact hlater hok other hother

/-- The path is made of the first names of another one. -/
def OnWay (dir path : Bytes) : Prop :=
  ∃ front, front <+: names dir ∧ path = ofNames (isAbsolute dir) front

theorem missingPaths_cons {absolute : Bool} {pending : List Bytes} {name : Name} {above : List Name}
    (hmissing : h.missingPaths absolute pending (name :: above) = .ok paths)
    {pending' : List Bytes} (hpending : (if name == dot || name == dotDot then pending
      else ofNames absolute (name :: above).reverse :: pending) = pending') :
    pending' = paths ∧ (above = [] ∨ ∃ i, h.stat (ofNames absolute above.reverse) = .ok i) ∨
      h.missingPaths absolute pending' above = .ok paths := by
  rw [missingPaths] at hmissing
  simp only [hpending] at hmissing
  split at hmissing
  · cases hmissing
  · split at hmissing
    · next hlast =>
      refine .inl ⟨Except.ok.inj hmissing, .inl ?_⟩
      simpa using (Bool.and_eq_true_iff.mp hlast).1
    · split at hmissing
      · next i hstat =>
        split at hmissing
        · exact .inl ⟨Except.ok.inj hmissing, .inr ⟨i, hstat⟩⟩
        · cases hmissing
      · exact .inr hmissing
      · cases hmissing

/-- What is found missing stands on the way; the induction is on the names that are left. -/
theorem of_missingPaths {absolute : Bool} {pending : List Bytes} {reversed : List Name}
    (hmissing : h.missingPaths absolute pending reversed = .ok paths) :
    (∀ path ∈ pending, path ∈ paths) ∧
      ∀ path ∈ paths, path ∈ pending ∨
        ∃ front, front <+: reversed.reverse ∧ path = ofNames absolute front := by
  induction reversed generalizing pending with
  | nil =>
      obtain rfl := Except.ok.inj hmissing
      exact ⟨fun _ => id, fun _ => .inl⟩
  | cons name above ih =>
      -- what is pending behind this name
      obtain ⟨pending', hpending⟩ : ∃ pending', (if name == dot || name == dotDot then pending
        else ofNames absolute (name :: above).reverse :: pending) = pending' := ⟨_, rfl⟩
      have hgrown : (∀ path ∈ pending, path ∈ pending') ∧ ∀ path ∈ pending', path ∈ pending ∨
          ∃ front, front <+: (name :: above).reverse ∧ path = ofNames absolute front := by
        rw [← hpending]
        split
        · exact ⟨fun _ => id, fun _ => .inl⟩
        · refine ⟨fun _ => List.mem_cons_of_mem _, fun path hpath => ?_⟩
          rcases List.mem_cons.mp hpath with rfl | hpath
          · exact .inr ⟨_, List.prefix_rfl, rfl⟩
          · exact .inl hpath
      rcases missingPaths_cons hmissing hpending with ⟨rfl, -⟩ | hmore
      · exact hgrown
      · obtain ⟨hkept, hway⟩ := ih hmore
        refine ⟨fun path hpath => hkept path (hgrown.1 path hpath), fun path hpath => ?_⟩
        rcases hway path hpath with hpath | ⟨front, hfront, rfl⟩
        · exact hgrown.2 path hpath
        · rw [List.reverse_cons]
          exact .inr ⟨front, hfront.trans (List.prefix_append _ _), rfl⟩

/-- The path up to a proper name is found missing if nothing is found behind that; the induction is
on the names behind. -/
theorem mem_missingPaths {absolute : Bool} {pending : List Bytes} {front : List Name} {name : Name}
    (below : List Name) (hname : name ≠ dot ∧ name ≠ dotDot)
    (hnothing : ∀ more i, h.stat (ofNames absolute (front ++ name :: more)) ≠ .ok i)
    (hmissing : h.missingPaths absolute pending (below ++ name :: front.reverse) = .ok paths) :
    ofNames absolute (front ++ [name]) ∈ paths := by
  induction below generalizing pending with
  | nil =>
      have hpending : (if name == dot || name == dotDot then pending
          else ofNames absolute (name :: front.reverse).reverse :: pending) =
          ofNames absolute (front ++ [name]) :: pending := by simp [hname.1, hname.2]
      rcases missingPaths_cons hmissing hpending with ⟨rfl, -⟩ | hmore
      · exact List.mem_cons_self
      · exact (of_missingPaths hmore).1 _ List.mem_cons_self
  | cons last below ih =>
      have hbehind : (below ++ name :: front.reverse).reverse = front ++ name :: below.reverse := by
        simp
      rcases missingPaths_cons hmissing rfl with ⟨-, hnil | ⟨i, hstat⟩⟩ | hmore
      · simp at hnil
      · exact absurd (hbehind ▸ hstat) (hnothing below.reverse i)
      · exact ih hmore

/-- A request for a directory makes directories on the way to it, whether or not it succeeds. -/
theorem furnished_createDirectories (h : Host) (dir : Bytes) :
    Furnished (OnWay dir) h (h.createDirectories dir).2 := by
  have requested : ∀ {paths}, h.missingPaths (isAbsolute dir) [] (names dir).reverse = .ok paths →
      Furnished (OnWay dir) h (h.ensureAll paths).2 := by
    intro paths hmissing
    refine (furnished_ensureAll h paths).1.mono fun path hpath => ?_
    rcases (of_missingPaths hmissing).2 path hpath with hnil | ⟨front, hfront, rfl⟩
    · cases hnil
    · rw [List.reverse_reverse] at hfront
      exact ⟨front, hfront, rfl⟩
  rw [createDirectories]
  split
  · exact .refl _ h
  · split
    · split
      · exact .refl _ h
      · exact .refl _ h
    · split
      · exact .refl _ h
      · next paths hmissing => exact requested hmissing
    · split
      · exact .refl _ h
      · next paths hmissing => exact requested hmissing
    · exact .refl _ h

/-! ## Zero bytes -/

theorem short_of_stat {cause : SystemError} (hstat : h.stat path = .error cause)
    (hcause : cause ≠ .nameTooLong) : (readable path).length < pathLimit := by
  refine Decidable.byContradiction fun hlong => hcause ?_
  have hne : (readable path).isEmpty = false := by
    rw [List.isEmpty_eq_false_iff]
    rintro hnil
    simp [hnil, pathLimit] at hlong
  rw [stat, locate, resolve, checked] at hstat
  simp only [hne, Bool.false_eq_true, if_false, if_pos (Nat.le_of_not_lt hlong), bind,
    Except.bind] at hstat
  exact (Except.error.inj hstat).symm

theorem short_of_stat_ok {i : Inode} (hstat : h.stat path = .ok i) :
    (readable path).length < pathLimit := by
  obtain ⟨n, hlocate, -⟩ := of_stat hstat
  have hresolve := of_locate hlocate
  refine Decidable.byContradiction fun hlong => ?_
  rw [resolve, checked] at hresolve
  split at hresolve
  · cases hresolve
  · next p hchecked =>
    split at hchecked
    · cases hchecked
    · rw [if_pos (Nat.le_of_not_lt hlong)] at hchecked
      cases hchecked

theorem stat_of_gist {path' : Bytes} (hgist : gist (readable path) = gist (readable path'))
    (hshort : (readable path).length < pathLimit) (hshort' : (readable path').length < pathLimit) :
    h.stat path = h.stat path' := by
  have hnil : ∀ {p q : Bytes}, gist p = gist q → p = [] → q = [] := by
    rintro p q hpq rfl
    refine Decidable.byContradiction fun hne => ?_
    have hrelative : isAbsolute q = false := (congrArg Prod.fst hpq).symm
    rw [isAbsolute_of_names_nil hne (congrArg (·.2.1) hpq).symm] at hrelative
    cases hrelative
  have hempty : (readable path).isEmpty = (readable path').isEmpty := by
    rw [Bool.eq_iff_iff, List.isEmpty_iff, List.isEmpty_iff]
    exact ⟨hnil hgist, hnil hgist.symm⟩
  have hchecked : ∀ {p : Bytes}, (readable p).length < pathLimit → checked p =
      if (readable p).isEmpty then .error .notFound else .ok (readable p) := fun hp => by
    rw [checked]
    simp only [if_neg (Nat.not_le.mpr hp)]
  obtain ⟨habsolute, hnames, hslash⟩ : isAbsolute (readable path) = isAbsolute (readable path') ∧
      names (readable path) = names (readable path') ∧
      hasTrailingSlash (readable path) = hasTrailingSlash (readable path') := by
    simpa [gist] using hgist
  rw [stat, stat, locate, locate, resolve, resolve, hchecked hshort, hchecked hshort', hempty]
  cases (readable path').isEmpty with
  | true => rfl
  | false => simp only [origin, habsolute, hnames, hslash, Bool.false_eq_true, if_false]

/-- A request for a directory under a path with a zero byte, of which the system reads the beginning
only, makes a directory of that. -/
theorem isDirectory_of_created (hzero : 0 ∈ dir) (hok : (h.createDirectories dir).1 = .ok ()) :
    (h.createDirectories dir).2.isDirectory dir = true := by
  obtain ⟨front, name, back, hnames, hzeroName, hgist⟩ := gist_readable hzero
  have hproper : name ≠ dot ∧ name ≠ dotDot := by
    constructor <;> rintro rfl <;> revert hzeroName <;> decide
  have requested : ∀ {cause paths}, h.stat dir = .error cause → cause ≠ .nameTooLong →
      h.missingPaths (isAbsolute dir) [] (names dir).reverse = .ok paths →
      (h.ensureAll paths).1 = .ok () → (h.ensureAll paths).2.isDirectory dir = true := by
    intro cause paths hstat hcause hmissing hok
    have hshort := short_of_stat hstat hcause
    have hmem : ofNames (isAbsolute dir) (front ++ [name]) ∈ paths := by
      refine mem_missingPaths back.reverse hproper (fun more i hi => ?_)
        (by simpa [hnames] using hmissing)
      rw [stat_of_gist (hgist more) (short_of_stat_ok hi) hshort, hstat] at hi
      cases hi
    have hstands := (furnished_ensureAll h paths).2 hok _ hmem
    cases hi : (h.ensureAll paths).2.stat (ofNames (isAbsolute dir) (front ++ [name])) with
    | error cause => simp [isDirectory, hi] at hstands
    | ok i =>
        rw [isDirectory, ← stat_of_gist (hgist []) (short_of_stat_ok hi) hshort]
        exact hstands
  rw [createDirectories] at hok ⊢
  split at hok
  · cases hok
  · next hne =>
    rw [if_neg hne]
    cases hstat : h.stat dir with
    | ok i =>
        simp only [hstat] at hok ⊢
        split at hok
        · next hdir =>
          rw [if_pos hdir, isDirectory_of_stat hstat]
          exact hdir
        · cases hok
    | error cause =>
        simp only [hstat] at hok ⊢
        cases cause <;> simp only [reduceCtorEq] at hok
        all_goals
          cases hmissing : h.missingPaths (isAbsolute dir) [] (names dir).reverse with
          | error cause => simp [hmissing] at hok
          | ok paths =>
              simp only [hmissing] at hok ⊢
              exact requested hstat (by decide) hmissing hok

end Request

end Host
end WasmPackager
