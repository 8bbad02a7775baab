/-
# `Proofs.FileSystem.Lookup` — what the system finds under a joined path

`Host.Enters h dir d` says that names can be looked up behind the path `dir`:
the system reads all of it, and it leads to the directory `d`, which may be
passed.  Under `dir` and a name joined to it the system then finds the entry of
that name in `d`, or nothing (`resolve_join_existing`, `resolve_join_vacant`),
unless the path became too long.

The other way round a joined path under which something is found enters a
directory (`of_locate_join`), so that a long path is taken apart name by name.
-/
import WasmPackager.Proofs.FileSystem.Trees

namespace WasmPackager

namespace Host

open FileSystem WasmPackager.Path

/-- Names can be looked up behind a path, in the directory `d`. -/
structure Enters (h : Host) (dir : Bytes) (d : InodeNumber) : Prop where
  zeroFree : 0 ∉ dir
  reaches : h.Reaches dir d
  passable : h.files.mayPass d = .ok ()

section

variable {h : Host} {dir : Bytes} {name : Name} {d n : InodeNumber} {i : Inode} {follow : Bool}

theorem locate_of_resolve {path : Bytes} (hplace : h.resolve path follow = .ok (.existing n)) :
    h.locate path follow = .ok n := by
  rw [locate, hplace]
  rfl

theorem of_locate {path : Bytes} (hn : h.locate path follow = .ok n) :
    h.resolve path follow = .ok (.existing n) := by
  rw [locate] at hn
  cases hplace : h.resolve path follow with
  | error cause => simp [hplace, bind, Except.bind] at hn
  | ok place =>
      cases place with
      | vacant d name asDirectory => simp [hplace, bind, Except.bind] at hn
      | existing m =>
          obtain rfl : m = n := by simpa [hplace, bind, Except.bind] using hn
          rfl

theorem inodeAt_of_inode? (hi : h.files.inode? n = some i) : h.inodeAt n = .ok i := by
  rw [inodeAt, hi]

theorem of_inodeAt (hi : h.inodeAt n = .ok i) : h.files.inode? n = some i := by
  rw [inodeAt] at hi
  cases hinode : h.files.inode? n with
  | none => simp [hinode] at hi
  | some j =>
      obtain rfl : j = i := by simpa [hinode] using hi
      rfl

theorem stat_of_locate {path : Bytes} (hn : h.locate path true = .ok n)
    (hi : h.files.inode? n = some i) : h.stat path = .ok i := by
  rw [stat, hn]
  exact inodeAt_of_inode? hi

theorem of_stat {path : Bytes} (hstat : h.stat path = .ok i) :
    ∃ n, h.locate path true = .ok n ∧ h.files.inode? n = some i := by
  rw [stat] at hstat
  cases hn : h.locate path true with
  | error cause => simp [hn, bind, Except.bind] at hstat
  | ok n => exact ⟨n, rfl, of_inodeAt (by simpa [hn, bind, Except.bind] using hstat)⟩

theorem isDirectory_of_stat {path : Bytes} (hstat : h.stat path = .ok i) :
    h.isDirectory path = i.node.isDirectory := by
  rw [isDirectory, hstat]

theorem of_entryOf {child : Option InodeNumber} (hentry : h.entryOf d name = .ok child) :
    name.length ≤ nameLimit ∧ child = h.files.child? d name := by
  rw [entryOf] at hentry
  split at hentry
  · cases hentry
  · next hshort => exact ⟨Nat.le_of_not_lt hshort, (Except.ok.inj hentry).symm⟩

/-! ## Under a directory that is entered -/

theorem resolve_join_existing (henters : h.Enters dir d) (hname : IsName name)
    (hshort : (join dir name).length < pathLimit) (hchild : h.files.child? d name = some n)
    (hi : h.files.inode? n = some i) (hlink : ¬ h.files.IsLink n) :
    h.resolve (join dir name) follow = .ok (.existing n) := by
  obtain ⟨links, hresolve⟩ := resolve_join henters.zeroFree hname hshort henters.reaches
  rw [hresolve]
  exact walkLinks_name_existing henters.reaches.isDirectory henters.passable hname hchild
    (node?_of_inode? hi) hlink nofun

theorem resolve_join_vacant (henters : h.Enters dir d) (hname : IsName name)
    (hshort : (join dir name).length < pathLimit) (hchild : h.files.child? d name = none) :
    h.resolve (join dir name) follow = .ok (.vacant d name false) := by
  obtain ⟨links, hresolve⟩ := resolve_join henters.zeroFree hname hshort henters.reaches
  rw [hresolve]
  exact walkLinks_name_vacant henters.reaches.isDirectory henters.passable hname hchild

theorem locate_join (henters : h.Enters dir d) (hname : IsName name)
    (hshort : (join dir name).length < pathLimit) (hchild : h.files.child? d name = some n)
    (hi : h.files.inode? n = some i) (hlink : ¬ h.files.IsLink n) :
    h.locate (join dir name) follow = .ok n :=
  locate_of_resolve (resolve_join_existing henters hname hshort hchild hi hlink)

theorem stat_join (henters : h.Enters dir d) (hname : IsName name)
    (hshort : (join dir name).length < pathLimit) (hchild : h.files.child? d name = some n)
    (hi : h.files.inode? n = some i) (hlink : ¬ h.files.IsLink n) :
    h.stat (join dir name) = .ok i :=
  stat_of_locate (locate_join henters hname hshort hchild hi hlink) hi

theorem stat_join_vacant (henters : h.Enters dir d) (hname : IsName name)
    (hshort : (join dir name).length < pathLimit) (hchild : h.files.child? d name = none) :
    h.stat (join dir name) = .error .notFound := by
  rw [stat, locate, resolve_join_vacant henters hname hshort hchild]
  rfl

theorem slot_join (henters : h.Enters dir d) (hname : IsName name)
    (hshort : (join dir name).length < pathLimit) :
    h.slot (join dir name) = .ok ⟨d, .entry name, false⟩ :=
  (slot_join_iff henters.zeroFree hname).mpr
    ⟨hshort, d, henters.reaches, henters.passable, rfl⟩

/-- The bytes of the regular file a path leads to. -/
def contentsAt (h : Host) (path : Bytes) : Option Bytes :=
  match h.stat path with
  | .ok ⟨.file contents, _, _⟩ => some contents.bytes
  | _ => none

theorem contentsAt_eq_some_iff {path bytes : Bytes} : h.contentsAt path = some bytes ↔
    ∃ n contents, h.locate path true = .ok n ∧ h.files.IsFile n contents ∧
      contents.bytes = bytes := by
  constructor
  · intro hbytes
    rw [contentsAt] at hbytes
    split at hbytes
    · next contents mode modified hstat =>
      obtain ⟨n, hn, hi⟩ := of_stat hstat
      exact ⟨n, contents, hn, node?_of_inode? hi, Option.some.inj hbytes⟩
    · cases hbytes
  · rintro ⟨n, contents, hn, hfile, rfl⟩
    obtain ⟨⟨node, mode, modified⟩, hi, hnode⟩ := Option.map_eq_some_iff.mp hfile
    obtain rfl : node = .file contents := hnode
    rw [contentsAt, stat_of_locate hn hi]

theorem contentsAt_join (henters : h.Enters dir d) (hname : IsName name)
    (hshort : (join dir name).length < pathLimit) (hchild : h.files.child? d name = some n)
    {contents : Contents} (hfile : h.files.IsFile n contents) (hlink : ¬ h.files.IsLink n) :
    h.contentsAt (join dir name) = some contents.bytes := by
  obtain ⟨i, hi, -⟩ := Option.map_eq_some_iff.mp hfile
  exact contentsAt_eq_some_iff.mpr
    ⟨n, contents, locate_join henters hname hshort hchild hi hlink, hfile, rfl⟩

/-! ## Taking a path apart -/

theorem of_locate_join (hzero : 0 ∉ dir) (hname : IsName name)
    (hlink : ∀ {d n}, h.Reaches dir d → h.files.child? d name = some n → ¬ h.files.IsLink n)
    (hn : h.locate (join dir name) follow = .ok n) :
    (join dir name).length < pathLimit ∧ ∃ d, h.Enters dir d ∧ h.files.child? d name = some n := by
  obtain ⟨hshort, d, hd, hpass, ⟨-, hplace⟩ | ⟨m, hchild, hm⟩⟩ :=
    of_resolve_join hzero hname (of_locate hn)
  · cases hplace
  · obtain rfl : n = m := by simpa using hm (hlink hd hchild)
    exact ⟨hshort, d, ⟨hzero, hd, hpass⟩, hchild⟩

theorem zeroFree_join (hname : IsName name) : 0 ∉ join dir name ↔ 0 ∉ dir := by
  have hslash : (0 : UInt8) ≠ slash := by decide
  rw [join]
  split <;> simp [hname.noZero, hslash]

theorem enters_join (henters : h.Enters dir d) (hname : IsName name)
    (hchild : h.files.child? d name = some n) (hdir : h.files.IsDirectory n)
    (hpass : h.files.mayPass n = .ok ()) : h.Enters (join dir name) n :=
  ⟨(zeroFree_join hname).mpr henters.zeroFree,
    reaches_join hname henters.reaches henters.passable hchild hdir, hpass⟩

theorem Enters.of_join (hname : IsName name)
    (hlink : ∀ {d n}, h.Reaches dir d → h.files.child? d name = some n → ¬ h.files.IsLink n)
    (henters : h.Enters (join dir name) n) :
    ∃ d, h.Enters dir d ∧ h.files.child? d name = some n := by
  obtain ⟨d, hd, hpass, m, hchild, hm⟩ := of_reaches_join hname henters.reaches
  obtain rfl : m = n := hm (hlink hd hchild)
  exact ⟨d, ⟨(zeroFree_join hname).mp henters.zeroFree, hd, hpass⟩, hchild⟩

/-- Wherever a path leads is at or below where the base path leads. -/
def Inside (h : Host) (base path : Bytes) : Prop :=
  ∀ d, h.Reaches path d → ∃ top, h.Reaches base top ∧ h.files.Below top d

section Inside

variable {base : Bytes}

theorem Inside.self (base : Bytes) : h.Inside base base := fun d hd => ⟨d, hd, .here⟩

theorem Inside.unlinked (hin : h.Inside base dir) (hfree : h.LinkFree base) (hd : h.Reaches dir d)
    (hchild : h.files.child? d name = some n) : ¬ h.files.IsLink n := by
  obtain ⟨top, htop, hbelow⟩ := hin d hd
  exact hfree top htop n (.child hbelow hchild)

theorem Inside.join (hin : h.Inside base dir) (hfree : h.LinkFree base) (hname : IsName name) :
    h.Inside base (join dir name) := by
  intro n hn
  obtain ⟨d, hd, -, m, hchild, hm⟩ := of_reaches_join hname hn
  obtain rfl : m = n := hm (hin.unlinked hfree hd hchild)
  obtain ⟨top, htop, hbelow⟩ := hin d hd
  exact ⟨top, htop, .child hbelow hchild⟩

end Inside

/-- What a path leads to is decided by the part of it that the system reads. -/
theorem resolve_congr {path path' : Bytes} (heq : readable path = readable path') (follow : Bool) :
    h.resolve path follow = h.resolve path' follow := by
  rw [resolve, resolve, checked, checked, heq]

theorem stat_congr {path path' : Bytes} (heq : readable path = readable path') :
    h.stat path = h.stat path' := by
  rw [stat, stat, locate, locate, resolve_congr heq]

/-! ## Directories and files that are opened -/

theorem openDirectory_iff {path : Bytes} :
    h.openDirectory path = .ok n ↔ h.locate path true = .ok n ∧
      ∃ i, h.files.inode? n = some i ∧ i.node.isDirectory = true ∧ i.allows .read = true := by
  rw [openDirectory, locateDirectory]
  cases hn : h.locate path true with
  | error cause => simp [bind, Except.bind]
  | ok m =>
      cases hi : h.files.inode? m with
      | none =>
          simp only [bind, Except.bind, inodeAt, hi, reduceCtorEq, false_iff]
          rintro ⟨hm, i, hi', -⟩
          cases hm
          simp [hi] at hi'
      | some i =>
          simp only [bind, Except.bind, inodeAt, hi]
          by_cases hdir : i.node.isDirectory = true
          · simp only [if_pos hdir, hi, demand]
            by_cases hread : i.allows .read = true
            · simp only [if_pos hread, pure, Except.pure]
              constructor
              · intro heq
                obtain rfl := Except.ok.inj heq
                exact ⟨rfl, i, hi, hdir, hread⟩
              · exact fun ⟨heq, _⟩ => heq
            · simp only [if_neg hread, reduceCtorEq, false_iff]
              rintro ⟨hm, j, hj, -, hread'⟩
              cases hm
              cases hi.symm.trans hj
              exact hread hread'
          · simp only [if_neg hdir, reduceCtorEq, false_iff]
            rintro ⟨hm, j, hj, hdir', -⟩
            cases hm
            cases hi.symm.trans hj
            exact hdir hdir'

theorem entriesOf_of_opens {path : Bytes} (hopen : h.openDirectory path = .ok n) :
    h.entriesOf n = .ok (h.files.entries n) := by
  obtain ⟨-, ⟨node, mode, modified⟩, hi, hdir, -⟩ := openDirectory_iff.mp hopen
  cases node with
  | dir parent entries removed => simp [entriesOf, FileSystem.entries, node?, hi, Node.entries]
  | file | link | device | fifo => cases hdir

theorem isDirectory_of_opens {path : Bytes} (hopen : h.openDirectory path = .ok n) :
    h.isDirectory path = true := by
  obtain ⟨hlocate, i, hi, hdir, -⟩ := openDirectory_iff.mp hopen
  rw [isDirectory_of_stat (stat_of_locate hlocate hi)]
  exact hdir

end

end Host
end WasmPackager
