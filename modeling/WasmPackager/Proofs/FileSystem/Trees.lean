/-
# `Proofs.FileSystem.Trees` — what lies in a file system, and where

An array of inodes can be anything.  `FileSystem.IsTree` says what a system
keeps true of one: the root is a directory, names are proper and distinct,
every entry leads to an inode, no directory lies below itself, and one that
lost its name is empty.

A `Location` is the one way to a thing that has no links and no dots in it;
`at?` goes down along it.  Two locations can still lead to one file, because a
file can have several names.  `nameCount` counts them, and a file for which it
counts one is found under a single entry (`entry_unique`), so at a single
location.
-/
import WasmPackager.Proofs.FileSystem.Walking

namespace WasmPackager

namespace FileSystem

variable {fs : FileSystem} {d n : InodeNumber} {name : Name}

/-- What the system keeps true of a file system. -/
structure IsTree (fs : FileSystem) : Prop where
  rooted : fs.IsDirectory root
  distinct : ∀ d, ((fs.entries d).map Prod.fst).Nodup
  named : ∀ d, ∀ entry ∈ fs.entries d, Path.IsName entry.1
  leads : ∀ d, ∀ entry ∈ fs.entries d, ∃ i, fs.inode? entry.2 = some i
  /-- Going down from a directory to one that lies in it makes the rank grow. -/
  ranked : ∃ rank : InodeNumber → Nat,
    ∀ d, ∀ entry ∈ fs.entries d, fs.IsDirectory entry.2 → rank d < rank entry.2
  emptied : ∀ {d parent entries}, fs.node? d = some (.dir parent entries true) → entries = []

inductive Below (fs : FileSystem) (top : InodeNumber) : InodeNumber → Prop
  | here : Below fs top top
  | child {d n : InodeNumber} {name : Name} :
      Below fs top d → fs.child? d name = some n → Below fs top n

/-! ## Entries -/

theorem isDirectory_iff : fs.IsDirectory n ↔ (fs.node? n).any Node.isDirectory = true := by
  rw [IsDirectory]
  cases hnode : fs.node? n with
  | none => simp
  | some node => cases node <;> simp [Node.isDirectory]

theorem node?_of_inode? {i : Inode} (h : fs.inode? n = some i) : fs.node? n = some i.node := by
  rw [node?, h]
  rfl

theorem mem_of_lookup {entries : List (Name × InodeNumber)} (h : entries.lookup name = some n) :
    (name, n) ∈ entries := by
  obtain ⟨front, back, rfl, -⟩ := List.lookup_eq_some_iff.mp h
  exact List.mem_append_right front List.mem_cons_self

theorem lookup_of_mem {entries : List (Name × InodeNumber)}
    (hdistinct : (entries.map Prod.fst).Nodup) (h : (name, n) ∈ entries) :
    entries.lookup name = some n := by
  induction entries with
  | nil => simp at h
  | cons head rest ih =>
      obtain ⟨other, m⟩ := head
      rw [List.map_cons, List.nodup_cons] at hdistinct
      rw [List.lookup_cons]
      rcases List.mem_cons.mp h with heq | hmem
      · cases heq
        simp
      · have hne : name ≠ other := fun heq =>
          hdistinct.1 (heq ▸ List.mem_map.mpr ⟨(name, n), hmem, rfl⟩)
        rw [beq_false_of_ne hne]
        exact ih hdistinct.2 hmem

theorem mem_entries_of_child? (h : fs.child? d name = some n) : (name, n) ∈ fs.entries d :=
  mem_of_lookup h

theorem isDirectory_of_child? (h : fs.child? d name = some n) : fs.IsDirectory d := by
  rw [isDirectory_iff]
  rw [child?, entries] at h
  cases hnode : fs.node? d with
  | none => simp [hnode] at h
  | some node => cases node <;> simp [hnode, Node.entries, Node.isDirectory] at h ⊢

theorem child?_congr {fs' : FileSystem} (h : fs'.inode? d = fs.inode? d) (name : Name) :
    fs'.child? d name = fs.child? d name := by
  simp only [child?, entries, node?, h]

/-! ## Names of an inode -/

/-- Where the pieces of a list have one item in all, it stands in one piece only. -/
theorem unique_of_flatMap {α β : Type} {f : α → List β} {xs : List α}
    (hlength : (xs.flatMap f).length ≤ 1) {k l : Nat} {a b : α} {x y : β} (ha : xs[k]? = some a)
    (hb : xs[l]? = some b) (hx : x ∈ f a) (hy : y ∈ f b) : k = l ∧ x = y := by
  induction xs generalizing k l with
  | nil => simp at ha
  | cons first rest ih =>
      rw [List.flatMap_cons, List.length_append] at hlength
      have later : ∀ {j c z}, rest[j]? = some c → z ∈ f c → 0 < (rest.flatMap f).length :=
        fun hc hz => List.length_pos_of_mem (List.mem_flatMap.mpr ⟨_, List.mem_of_getElem? hc, hz⟩)
      cases k with
      | zero =>
          obtain rfl : first = a := by simpa using ha
          have hfirst := List.length_pos_of_mem hx
          cases l with
          | zero =>
              obtain rfl : first = b := by simpa using hb
              obtain ⟨z, hz⟩ := List.length_eq_one_iff.mp (by omega : (f first).length = 1)
              rw [hz, List.mem_singleton] at hx hy
              exact ⟨rfl, hx.trans hy.symm⟩
          | succ l => have := later (by simpa using hb) hy; omega
      | succ k =>
          have hrest := later (by simpa using ha) hx
          cases l with
          | zero =>
              obtain rfl : first = b := by simpa using hb
              have := List.length_pos_of_mem hy
              omega
          | succ l =>
              obtain ⟨rfl, hxy⟩ := ih (by omega) (by simpa using ha) (by simpa using hb)
              exact ⟨rfl, hxy⟩

/-- How many entries have the number is how long the list of all such entries is. -/
theorem nameCount_eq_length (h : ¬ fs.IsDirectory n) :
    fs.nameCount n =
      (fs.inodes.toList.flatMap fun i => i.node.entries.filter (·.2 == n)).length := by
  have counted : ∀ (xs : List Inode) (start : Nat),
      xs.foldl (fun count i => count + (i.node.entries.filter (·.2 == n)).length) start =
        start + (xs.flatMap fun i => i.node.entries.filter (·.2 == n)).length := by
    intro xs
    induction xs with
    | nil => intro start; rfl
    | cons i rest ih =>
        intro start
        rw [List.foldl_cons, ih, List.flatMap_cons, List.length_append, Nat.add_assoc]
  rw [nameCount]
  split
  · next hnode => exact absurd ⟨_, _, _, hnode⟩ h
  · rw [← Array.foldl_toList, counted, Nat.zero_add]

theorem entry_unique (h : ¬ fs.IsDirectory n) (hcount : fs.nameCount n ≤ 1) {d' : InodeNumber}
    {name' : Name} (hchild : fs.child? d name = some n) (hchild' : fs.child? d' name' = some n) :
    d' = d ∧ name' = name := by
  rw [nameCount_eq_length h] at hcount
  have listed : ∀ {d name}, fs.child? d name = some n → ∃ i, fs.inodes.toList[d]? = some i ∧
      (name, n) ∈ i.node.entries.filter (·.2 == n) := by
    intro d name hchild
    obtain ⟨parent, entries, removed, hnode⟩ := isDirectory_of_child? hchild
    have hmem := mem_entries_of_child? hchild
    rw [FileSystem.entries, hnode] at hmem
    cases hi : fs.inode? d with
    | none => simp [node?, hi] at hnode
    | some i =>
        have heq : i.node = .dir parent entries removed := by simpa [node?, hi] using hnode
        exact ⟨i, by simpa [inode?] using hi, by simpa [heq] using hmem⟩
  obtain ⟨i, hi, hmem⟩ := listed hchild
  obtain ⟨i', hi', hmem'⟩ := listed hchild'
  obtain ⟨hd, hentry⟩ := unique_of_flatMap hcount hi' hi hmem' hmem
  exact ⟨hd, congrArg Prod.fst hentry⟩

/-! ## Locations -/

/-- The inode that names lead to from another one, going down only. -/
def descend (fs : FileSystem) : InodeNumber → Location → Option InodeNumber
  | n, [] => some n
  | n, name :: rest => (fs.child? n name).bind (fs.descend · rest)

def at? (fs : FileSystem) (loc : Location) : Option InodeNumber := fs.descend root loc

/-- What an inode shows of itself: the entries of a directory show below it, and when they last
changed is when the directory did. -/
def shown (i : Inode) : Inode :=
  match i.node with
  | .dir parent _ removed => ⟨.dir parent [] removed, i.mode, 0⟩
  | .file _ | .link _ | .device _ | .fifo _ => i

/-- What there is to see at a location. -/
def seen (fs : FileSystem) (loc : Location) : Option Inode :=
  (fs.at? loc).bind fun n => (fs.inode? n).map shown

/-- What kind of thing a node is, and what it holds itself. -/
def kind : Node → Node
  | .dir .. => .dir root [] false
  | .file contents => .file contents
  | .link target => .link target
  | .device device => .device device
  | .fifo pending => .fifo pending

/-- What kind of thing names lead to from a directory, and what it holds. -/
def viewFrom (fs : FileSystem) (d : InodeNumber) (loc : Location) : Option Node :=
  ((fs.descend d loc).bind fs.node?).map kind

/-- What kind of thing is at a location, and what it holds. -/
def view (fs : FileSystem) (loc : Location) : Option Node := fs.viewFrom root loc

def modeAt (fs : FileSystem) (loc : Location) : Option Nat :=
  ((fs.at? loc).bind fs.inode?).map Inode.mode

theorem view_of_at? {loc : Location} {contents : Contents} (hat : fs.at? loc = some n)
    (hfile : fs.IsFile n contents) : fs.view loc = some (.file contents) := by
  rw [at?] at hat
  rw [view, viewFrom, hat, Option.bind_some, show fs.node? n = _ from hfile]
  rfl

theorem map_seen {α : Type} (about : Inode → α) (habout : ∀ i, about (shown i) = about i)
    (fs : FileSystem) (loc : Location) :
    (fs.seen loc).map about = ((fs.at? loc).bind fs.inode?).map about := by
  rw [seen]
  cases fs.at? loc with
  | none => rfl
  | some n =>
      rw [Option.bind_some, Option.bind_some, Option.map_map]
      exact congrArg (Option.map · _) (funext habout)

theorem view_of_seen {fs fs' : FileSystem} {loc : Location} (h : fs'.seen loc = fs.seen loc) :
    fs'.view loc = fs.view loc ∧ fs'.modeAt loc = fs.modeAt loc := by
  have viewed : ∀ gs : FileSystem, gs.view loc = (gs.seen loc).map fun i => kind i.node := by
    intro gs
    have habout : ∀ i, kind (shown i).node = kind i.node := fun i => by
      cases hnode : i.node <;> simp [shown, kind, hnode]
    rw [map_seen _ habout, view, viewFrom, at?]
    cases gs.descend root loc with
    | none => rfl
    | some n => rw [Option.bind_some, Option.bind_some, node?, Option.map_map]; rfl
  have permitted : ∀ gs : FileSystem, gs.modeAt loc = (gs.seen loc).map Inode.mode := by
    intro gs
    have habout : ∀ i, (shown i).mode = i.mode := fun i => by
      cases hnode : i.node <;> simp [shown, hnode]
    rw [map_seen _ habout, modeAt]
  exact ⟨by rw [viewed, viewed, h], by rw [permitted, permitted, h]⟩

theorem descend_append (front back : Location) (n : InodeNumber) :
    fs.descend n (front ++ back) = (fs.descend n front).bind (fs.descend · back) := by
  induction front generalizing n with
  | nil => rfl
  | cons name front ih =>
      rw [List.cons_append, descend, descend, Option.bind_assoc]
      exact congrArg _ (funext ih)

theorem descend_concat (front : Location) (name : Name) (n : InodeNumber) :
    fs.descend n (front ++ [name]) = (fs.descend n front).bind (fs.child? · name) := by
  rw [descend_append]
  refine congrArg _ (funext fun d => ?_)
  rw [descend]
  cases fs.child? d name <;> rfl

theorem viewFrom_name : fs.viewFrom d [name] = ((fs.child? d name).bind fs.node?).map kind := by
  rw [viewFrom, ← List.nil_append [name], descend_concat]
  rfl

end FileSystem

namespace Host

/-- No links lie at or below where the names of a path lead. -/
def LinkFree (h : Host) (path : Bytes) : Prop :=
  ∀ top, h.Reaches path top → ∀ n, h.files.Below top n → ¬ h.files.IsLink n

end Host

/-! ## Checking a file system -/

namespace FileSystem

/-- A file system in which every directory has a greater number than the one it lies in can be
checked to be a tree inode by inode. -/
theorem isTree_of_forall {fs : FileSystem} (hroot : (fs.node? root).any Node.isDirectory = true)
    (h : ∀ d < fs.inodes.size, ((fs.entries d).map Prod.fst).Nodup ∧
      (∀ entry ∈ fs.entries d, Path.IsName entry.1 ∧ entry.2 < fs.inodes.size ∧
        ((fs.node? entry.2).any Node.isDirectory = true → d < entry.2)) ∧
      ((fs.node? d).all fun node => match node with
        | .dir _ entries true => entries.isEmpty
        | _ => true) = true) :
    fs.IsTree := by
  have outside : ∀ d, ¬ d < fs.inodes.size → fs.node? d = none := fun d hd => by
    simp [node?, inode?, Array.getElem?_eq_none (Nat.le_of_not_lt hd)]
  have inside : ∀ d, ∀ entry ∈ fs.entries d, d < fs.inodes.size := by
    intro d entry hmem
    refine Decidable.byContradiction fun hd => ?_
    simp [entries, outside d hd] at hmem
  have entryOf := fun d entry (hmem : entry ∈ fs.entries d) =>
    (h d (inside d entry hmem)).2.1 entry hmem
  refine ⟨isDirectory_iff.mpr hroot, fun d => ?_, fun d entry hmem => (entryOf d entry hmem).1,
    fun d entry hmem => ?_,
    ⟨id, fun d entry hmem hdir => (entryOf d entry hmem).2.2 (isDirectory_iff.mp hdir)⟩, ?_⟩
  · by_cases hd : d < fs.inodes.size
    · exact (h d hd).1
    · simp [entries, outside d hd]
  · exact ⟨_, Array.getElem?_eq_getElem (entryOf d entry hmem).2.1⟩
  · intro d parent entries hnode
    have hd : d < fs.inodes.size := Decidable.byContradiction fun hd => by
      simp [outside d hd] at hnode
    simpa [hnode] using (h d hd).2.2

theorem linkFree_of_forall {h : Host}
    (hnodes : ∀ n < h.files.inodes.size, ((h.files.node? n).any Node.isLink) = false)
    (path : Bytes) : h.LinkFree path := by
  rintro top - n - ⟨target, hnode⟩
  have hn : n < h.files.inodes.size := Decidable.byContradiction fun hn => by
    simp [node?, inode?, Array.getElem?_eq_none (Nat.le_of_not_lt hn)] at hnode
  have := hnodes n hn
  simp [hnode, Node.isLink] at this

end FileSystem
end WasmPackager
