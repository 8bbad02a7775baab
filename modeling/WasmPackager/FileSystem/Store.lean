/-
# `FileSystem.Store` — a file system as a table of inodes

Inodes are added at the end of the table and never taken out, so a number
keeps its meaning: whoever holds the number of a file or directory that has
lost its last name still has the file or the directory.  The root directory
has number 0 and is its own parent.
-/
import WasmPackager.FileSystem.Inode

namespace WasmPackager

/-- A file system, with the time that new changes are given. -/
structure FileSystem where
  inodes : Array Inode
  clock : Nat
deriving DecidableEq

namespace FileSystem

def root : InodeNumber := 0

/-- A file system with nothing but its root directory. -/
def empty : FileSystem := ⟨#[⟨.dir root [] false, Inode.directoryMode, 0⟩], 0⟩

def inode? (fs : FileSystem) (n : InodeNumber) : Option Inode := fs.inodes[n]?

def node? (fs : FileSystem) (n : InodeNumber) : Option Node := (fs.inode? n).map Inode.node

def setInode (fs : FileSystem) (n : InodeNumber) (i : Inode) : FileSystem :=
  { fs with inodes := fs.inodes.setIfInBounds n i }

/-- The file system in which a number stands for another node, changed now. -/
def setNode (fs : FileSystem) (n : InodeNumber) (node : Node) : FileSystem :=
  match fs.inode? n with
  | some i => fs.setInode n { i with node, modified := fs.clock }
  | none => fs

/-- A new inode without a name, and its number. -/
def create (fs : FileSystem) (node : Node) (mode : Nat) : InodeNumber × FileSystem :=
  (fs.inodes.size, { fs with inodes := fs.inodes.push ⟨node, mode, fs.clock⟩ })

/-! ## Directories -/

def entries (fs : FileSystem) (dir : InodeNumber) : List (Name × InodeNumber) :=
  ((fs.node? dir).map Node.entries).getD []

/-- The number a directory has under a name. -/
def child? (fs : FileSystem) (dir : InodeNumber) (name : Name) : Option InodeNumber :=
  (fs.entries dir).lookup name

/-- The entries with a number under a name: in the place of the entry that has the name, or
behind the others. -/
def putEntry (name : Name) (n : InodeNumber) :
    List (Name × InodeNumber) → List (Name × InodeNumber)
  | [] => [(name, n)]
  | (other, m) :: rest =>
    if other == name then (name, n) :: rest else (other, m) :: putEntry name n rest

/-- The file system in which a directory has a number under a name. -/
def attach (fs : FileSystem) (dir : InodeNumber) (name : Name) (n : InodeNumber) : FileSystem :=
  match fs.node? dir with
  | some (.dir parent entries removed) =>
    fs.setNode dir (.dir parent (putEntry name n entries) removed)
  | _ => fs

/-- The file system in which a directory has nothing under a name. -/
def detach (fs : FileSystem) (dir : InodeNumber) (name : Name) : FileSystem :=
  match fs.node? dir with
  | some (.dir parent entries removed) =>
    fs.setNode dir (.dir parent (entries.filter (·.1 != name)) removed)
  | _ => fs

/-- The file system in which a directory lies below another one. -/
def reparent (fs : FileSystem) (n parent : InodeNumber) : FileSystem :=
  match fs.node? n with
  | some (.dir _ entries removed) => fs.setNode n (.dir parent entries removed)
  | _ => fs

/-- The file system in which a directory has lost its name. -/
def markRemoved (fs : FileSystem) (n : InodeNumber) : FileSystem :=
  match fs.node? n with
  | some (.dir parent entries _) => fs.setNode n (.dir parent entries true)
  | _ => fs

/-- The names from the root down to a directory; `none` for one that was removed.  A way up
cannot be longer than there are inodes. -/
def ascend (fs : FileSystem) : (fuel : Nat) → InodeNumber → List Name → Option (List Name)
  | 0, _, _ => none
  | fuel + 1, n, below =>
    if n = root then some below
    else
      match fs.node? n with
      | some (.dir parent _ false) =>
        match (fs.entries parent).find? (·.2 == n) with
        | some (name, _) => fs.ascend fuel parent (name :: below)
        | none => none
      | _ => none

def namesOf (fs : FileSystem) (n : InodeNumber) : Option (List Name) :=
  fs.ascend (fs.inodes.size + 1) n []

/-- The directory lies in another one or is that one. -/
def isBelow (fs : FileSystem) (above : InodeNumber) : (fuel : Nat) → InodeNumber → Bool
  | 0, _ => false
  | fuel + 1, n =>
    if n = above then true
    else if n = root then false
    else
      match fs.node? n with
      | some (.dir parent _ _) => fs.isBelow above fuel parent
      | _ => false

/-- The directory `n` is `above` or lies in it. -/
def contains (fs : FileSystem) (above n : InodeNumber) : Bool :=
  fs.isBelow above (fs.inodes.size + 1) n

/-- How many names an inode has; a directory also counts as its own `.` and as the `..` of those
in it. -/
def nameCount (fs : FileSystem) (n : InodeNumber) : Nat :=
  match fs.node? n with
  | some (.dir _ entries _) =>
    2 + (entries.filter fun (_, m) => (fs.node? m).any Node.isDirectory).length
  | _ => fs.inodes.foldl (fun count i => count + (i.node.entries.filter (·.2 == n)).length) 0

/-! ## What is found after a change -/

theorem lookup_putEntry_self (name : Name) (n : InodeNumber)
    (entries : List (Name × InodeNumber)) : (putEntry name n entries).lookup name = some n := by
  induction entries with
  | nil => simp [putEntry]
  | cons head rest ih =>
    obtain ⟨other, m⟩ := head
    by_cases h : other = name
    · simp [putEntry, h]
    · have h' : (name == other) = false := by simpa using fun e => h e.symm
      simp [putEntry, h, List.lookup_cons, h', ih]

theorem lookup_putEntry_other {name other : Name} (h : other ≠ name) (n : InodeNumber)
    (entries : List (Name × InodeNumber)) :
    (putEntry name n entries).lookup other = entries.lookup other := by
  induction entries with
  | nil =>
    have h' : (other == name) = false := by simpa using h
    simp [putEntry, List.lookup_cons, h']
  | cons head rest ih =>
    obtain ⟨first, m⟩ := head
    by_cases hf : first = name
    · subst hf
      have h' : (other == first) = false := by simpa using h
      simp [putEntry, List.lookup_cons, h']
    · simp [putEntry, hf, List.lookup_cons, ih]

theorem lookup_filter_ne (name other : Name) (entries : List (Name × InodeNumber)) :
    (entries.filter (·.1 != name)).lookup other =
      if other = name then none else entries.lookup other := by
  induction entries with
  | nil => simp
  | cons head rest ih =>
    obtain ⟨first, m⟩ := head
    by_cases hf : first = name
    · subst hf
      rw [List.filter_cons_of_neg (by simp), ih, List.lookup_cons]
      by_cases h : other = first
      · simp [h]
      · simp [h, beq_false_of_ne h]
    · rw [List.filter_cons_of_pos (by simpa using hf), List.lookup_cons, ih, List.lookup_cons]
      by_cases h : other = first
      · simp [h, hf]
      · rw [beq_false_of_ne h]

theorem inode?_setInode (fs : FileSystem) (n m : InodeNumber) (i : Inode) :
    (fs.setInode n i).inode? m = if n = m ∧ n < fs.inodes.size then some i else fs.inode? m := by
  simp only [inode?, setInode, Array.getElem?_setIfInBounds]
  by_cases h : n = m
  · subst h; by_cases hn : n < fs.inodes.size <;> simp [hn]
  · simp [h]

theorem inode?_create (fs : FileSystem) (node : Node) (mode : Nat) (m : InodeNumber) :
    (fs.create node mode).2.inode? m =
      if m = fs.inodes.size then some ⟨node, mode, fs.clock⟩ else fs.inode? m := by
  simp [inode?, create, Array.getElem?_push]

end FileSystem
end WasmPackager
