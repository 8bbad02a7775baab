/-
# `Proofs.FileSystem.Relisting` — the order in which directories list their entries

A system may list the entries of a directory in any order.  Two hosts are
`Relisted` forms of each other if they differ in these orders and in nothing
else.  Paths lead to the same places in both, since a name is looked up in a
directory and not searched for by its place (`resolve_eq`); so both find the
same files and open the same directories.  What is left of the difference is
the order of the entries of a directory that is opened (`entries_perm`).
-/
import WasmPackager.Proofs.FileSystem.Lookup

namespace WasmPackager

/-! ## The relation -/

inductive Node.Relisted : Node → Node → Prop
  | same (node : Node) : Relisted node node
  | dir {parent : InodeNumber} {entries entries' : List (Name × InodeNumber)} {removed : Bool} :
      entries.Perm entries' → (entries.map Prod.fst).Nodup →
      Relisted (.dir parent entries removed) (.dir parent entries' removed)

structure Inode.Relisted (i i' : Inode) : Prop where
  node : i.node.Relisted i'.node
  mode : i.mode = i'.mode
  modified : i.modified = i'.modified

/-- The same file system but for the order in which its directories list their entries. -/
structure FileSystem.Relisted (fs fs' : FileSystem) : Prop where
  inodes : ∀ n, Option.Rel Inode.Relisted (fs.inode? n) (fs'.inode? n)
  clock : fs.clock = fs'.clock

/-- The same host but for the order in which directories list their entries. -/
structure Host.Relisted (h h' : Host) : Prop where
  files : h.files.Relisted h'.files
  cwd : h.cwd = h'.cwd

/-! ## Nodes -/

theorem lookup_perm {xs ys : List (Name × InodeNumber)} (h : xs.Perm ys)
    (distinct : (xs.map Prod.fst).Nodup) (name : Name) : xs.lookup name = ys.lookup name := by
  have distinct' : (ys.map Prod.fst).Nodup := (h.map Prod.fst).nodup_iff.mp distinct
  refine Option.ext fun n => ⟨fun hn => ?_, fun hn => ?_⟩
  · exact FileSystem.lookup_of_mem distinct' (h.mem_iff.mp (FileSystem.mem_of_lookup hn))
  · exact FileSystem.lookup_of_mem distinct (h.mem_iff.mpr (FileSystem.mem_of_lookup hn))

namespace Node.Relisted

variable {node node' : Node}

theorem isDirectory_eq (h : node.Relisted node') : node.isDirectory = node'.isDirectory := by
  cases h <;> rfl

theorem isRegular_eq (h : node.Relisted node') : node.isRegular = node'.isRegular := by
  cases h <;> rfl

theorem entries_perm (h : node.Relisted node') : node.entries.Perm node'.entries := by
  cases h with
  | same => exact List.Perm.refl _
  | dir hperm _ => exact hperm

theorem directory_or_eq (h : node.Relisted node') :
    (∃ parent entries entries' removed, node = .dir parent entries removed ∧
        node' = .dir parent entries' removed ∧
        ∀ name, entries.lookup name = entries'.lookup name) ∨
      node = node' ∧ node.isDirectory = false := by
  cases h with
  | same =>
      cases node with
      | dir parent entries removed =>
          exact .inl ⟨parent, entries, entries, removed, rfl, rfl, fun _ => rfl⟩
      | file _ | link _ | device _ | fifo _ => exact .inr ⟨rfl, rfl⟩
  | dir hperm distinct => exact .inl ⟨_, _, _, _, rfl, rfl, lookup_perm hperm distinct⟩

end Node.Relisted

namespace FileSystem.Relisted

variable {fs fs' : FileSystem}

theorem inode_cases (h : fs.Relisted fs') (n : InodeNumber) :
    fs.inode? n = none ∧ fs'.inode? n = none ∨
      ∃ i i', fs.inode? n = some i ∧ fs'.inode? n = some i' ∧ i.Relisted i' := by
  have hrel := h.inodes n
  generalize fs.inode? n = first at hrel ⊢
  generalize fs'.inode? n = second at hrel ⊢
  cases hrel with
  | none => exact .inl ⟨rfl, rfl⟩
  | some hi => exact .inr ⟨_, _, rfl, rfl, hi⟩

theorem node_cases (h : fs.Relisted fs') (n : InodeNumber) :
    fs.node? n = none ∧ fs'.node? n = none ∨
      ∃ node node', fs.node? n = some node ∧ fs'.node? n = some node' ∧ node.Relisted node' := by
  rw [node?, node?]
  rcases h.inode_cases n with ⟨hn, hn'⟩ | ⟨i, i', hn, hn', hi⟩
  · exact .inl (by simp [hn, hn'])
  · exact .inr ⟨i.node, i'.node, by simp [hn], by simp [hn'], hi.node⟩

theorem mayPass_eq (h : fs.Relisted fs') : fs.mayPass = fs'.mayPass := by
  funext n
  rw [mayPass, mayPass]
  rcases h.inode_cases n with ⟨hn, hn'⟩ | ⟨i, i', hn, hn', hi⟩
  · rw [hn, hn']
  · have hallows : i.allows .execute = i'.allows .execute := by
      rw [Inode.allows, Inode.allows, hi.mode]
    simp only [hn, hn', hallows]

theorem entries_perm (h : fs.Relisted fs') (d : InodeNumber) :
    (fs.entries d).Perm (fs'.entries d) := by
  rw [entries, entries]
  rcases h.node_cases d with ⟨hn, hn'⟩ | ⟨node, node', hn, hn', hnode⟩
  · rw [hn, hn']
  · rw [hn, hn']
    exact hnode.entries_perm

/-! ## Following paths -/

variable {pass : InodeNumber → Except SystemError Unit} {follow : Bool}

theorem walk_eq (h : fs.Relisted fs')
    {onLink onLink' : InodeNumber → Bytes → List Name → Bool → Except SystemError Place}
    (hlink : onLink = onLink') (asDirectory : Bool) (here : InodeNumber) (names : List Name) :
    fs.walk pass follow onLink asDirectory here names =
      fs'.walk pass follow onLink' asDirectory here names := by
  subst hlink
  induction names generalizing here with
  | nil =>
      rw [walk, walk]
      rcases h.node_cases here with ⟨hn, hn'⟩ | ⟨node, node', hn, hn', hnode⟩
      · rw [hn, hn']
      · simp only [hn, hn', hnode.isDirectory_eq]
  | cons name rest ih =>
      rw [walk, walk]
      rcases h.node_cases here with ⟨hn, hn'⟩ | ⟨node, node', hn, hn', hnode⟩
      · rw [hn, hn']
      rcases hnode.directory_or_eq with ⟨parent, entries, entries', removed, rfl, rfl, hlookup⟩ |
        ⟨rfl, hdir⟩
      · simp only [hn, hn', hlookup, ih]
        cases pass here with
        | error cause => rfl
        | ok _ =>
            refine ite_congr rfl (fun _ => rfl) fun _ => ite_congr rfl (fun _ => rfl) fun _ =>
              ite_congr rfl (fun _ => rfl) fun _ => ?_
            cases entries'.lookup name with
            | none => rfl
            | some n =>
                -- From the entry the path goes on alike, whatever the entry is.
                rcases h.node_cases n with ⟨hn, hn'⟩ | ⟨node, node', hn, hn', hnode⟩
                · simp only [hn, hn']
                · simp only [hn, hn']
                  cases hnode with
                  | same => rfl
                  | dir _ _ => rfl
      · rw [hn, hn']
        cases node with
        | dir _ _ _ => cases hdir
        | file _ | link _ | device _ | fifo _ => rfl

theorem walkLinks_eq (h : fs.Relisted fs') (links : Nat) (asDirectory : Bool) (here : InodeNumber)
    (names : List Name) :
    fs.walkLinks pass follow links asDirectory here names =
      fs'.walkLinks pass follow links asDirectory here names := by
  induction links generalizing asDirectory here names with
  | zero => exact h.walk_eq rfl asDirectory here names
  | succ links ih =>
      rw [walkLinks, walkLinks]
      refine h.walk_eq ?_ asDirectory here names
      funext dir target rest insists
      exact ih _ _ _

end FileSystem.Relisted

namespace Host.Relisted

variable {h h' : Host}

theorem resolve_eq (hr : h.Relisted h') (path : Bytes) (follow : Bool) :
    h.resolve path follow = h'.resolve path follow := by
  rw [resolve, resolve]
  cases checked path with
  | error cause => rfl
  | ok path => simp only [hr.files.walkLinks_eq, hr.files.mayPass_eq, origin, hr.cwd]

theorem locate_eq (hr : h.Relisted h') (path : Bytes) (follow : Bool) :
    h.locate path follow = h'.locate path follow := by
  rw [locate, locate, hr.resolve_eq]

/-- A path leads to nothing in both hosts, for one cause, or to the same inode but for the order of
its entries. -/
theorem stat_cases (hr : h.Relisted h') (path : Bytes) :
    (∃ cause, h.stat path = .error cause ∧ h'.stat path = .error cause) ∨
      ∃ i i', h.stat path = .ok i ∧ h'.stat path = .ok i' ∧ i.Relisted i' := by
  rw [stat, stat, hr.locate_eq]
  cases h'.locate path true with
  | error cause => exact .inl ⟨cause, rfl, rfl⟩
  | ok n =>
      simp only [bind, Except.bind, inodeAt]
      rcases hr.files.inode_cases n with ⟨hn, hn'⟩ | ⟨i, i', hn, hn', hi⟩
      · exact .inl ⟨.notFound, by rw [hn], by rw [hn']⟩
      · exact .inr ⟨i, i', by rw [hn], by rw [hn'], hi⟩

theorem isDirectory_eq (hr : h.Relisted h') (path : Bytes) :
    h.isDirectory path = h'.isDirectory path := by
  rw [isDirectory, isDirectory]
  rcases hr.stat_cases path with ⟨cause, hs, hs'⟩ | ⟨i, i', hs, hs', hi⟩
  · rw [hs, hs']
  · simp only [hs, hs', hi.node.isDirectory_eq]

theorem isRegularFile_eq (hr : h.Relisted h') (path : Bytes) :
    h.isRegularFile path = h'.isRegularFile path := by
  rw [isRegularFile, isRegularFile]
  rcases hr.stat_cases path with ⟨cause, hs, hs'⟩ | ⟨i, i', hs, hs', hi⟩
  · rw [hs, hs']
  · simp only [hs, hs', hi.node.isRegular_eq]

theorem openDirectory_ok (hr : h.Relisted h') {path : Bytes} {d : InodeNumber}
    (hopen : h.openDirectory path = .ok d) : h'.openDirectory path = .ok d := by
  obtain ⟨hlocate, i, hi, hdir, hread⟩ := openDirectory_iff.mp hopen
  rcases hr.files.inode_cases d with ⟨hn, -⟩ | ⟨j, i', hn, hn', hrel⟩
  · rw [hn] at hi
    cases hi
  · obtain rfl : j = i := Option.some.inj (hn.symm.trans hi)
    refine openDirectory_iff.mpr ⟨by rw [← hr.locate_eq, hlocate], i', hn', ?_, ?_⟩
    · rw [← hrel.node.isDirectory_eq, hdir]
    · rw [Inode.allows, ← hrel.mode]
      exact hread

end Host.Relisted

/-! ## Every order -/

theorem FileSystem.relisted_of_setInode {fs : FileSystem} {d : InodeNumber} {i i' : Inode}
    (hi : fs.inode? d = some i) (hrel : i.Relisted i') : fs.Relisted (fs.setInode d i') where
  inodes n := by
    have hbound : d < fs.inodes.size := (Array.getElem?_eq_some_iff.mp hi).1
    rw [inode?_setInode]
    by_cases heq : d = n
    · subst heq
      rw [if_pos ⟨rfl, hbound⟩, hi]
      exact .some hrel
    · rw [if_neg fun hand => heq hand.1]
      cases fs.inode? n with
      | none => exact .none
      | some j => exact .some ⟨.same _, rfl, rfl⟩
  clock := rfl

/-- The entries of a directory can be listed in any order. -/
theorem Host.relisted_of_perm {h : Host} {d parent : InodeNumber}
    {entries entries' : List (Name × InodeNumber)} {removed : Bool} {mode modified : Nat}
    (hi : h.files.inode? d = some ⟨.dir parent entries removed, mode, modified⟩)
    (hperm : entries.Perm entries') (hdistinct : (entries.map Prod.fst).Nodup) :
    h.Relisted
      (h.withFiles (h.files.setInode d ⟨.dir parent entries' removed, mode, modified⟩)) where
  files := FileSystem.relisted_of_setInode hi ⟨.dir hperm hdistinct, rfl, rfl⟩
  cwd := rfl

end WasmPackager
