/-
# `Shell.Tools.Listing` — programs that tell what is in directories

Names, in order, with what is known of the files; and searches that go down a
tree and ask of every file whether it is wanted.
-/
import WasmPackager.Shell.Tools.Paths
import WasmPackager.Shell.Tools.Running

namespace WasmPackager.Tools

/-! ## What is known of a file -/

def sizeOf (node : Node) : Nat :=
  match node with
  | .file contents => contents.size
  | .dir .. => 4096
  | .link target => target.length
  | .device _ | .fifo _ => 0

def kindLetter (node : Node) : UInt8 :=
  match node with
  | .file _ => 45
  | .dir .. => 100
  | .link _ => 108
  | .device _ => 99
  | .fifo _ => 112

def kindName (node : Node) : Bytes :=
  match node with
  | .file contents => if contents.size = 0 then ascii "regular empty file" else ascii "regular file"
  | .dir .. => ascii "directory"
  | .link _ => ascii "symbolic link"
  | .device _ => ascii "character special file"
  | .fifo _ => ascii "fifo"

/-- The mark behind a name that tells the kind of the file. -/
def kindMark (i : Inode) : Bytes :=
  match i.node with
  | .dir .. => [47]
  | .link _ => [64]
  | .fifo _ => [124]
  | .file _ => if i.mode &&& 0o111 != 0 then [42] else []
  | .device _ => []

/-! ## ls -/

/-- A file that is listed. -/
structure Listed where
  name : Bytes
  number : InodeNumber
  inode : Inode

/-- The files in the order that was asked for. -/
def ordered (found : Arguments) (files : List Listed) : List Listed :=
  if found.has 'U' || found.has 'f' then files
  else
    let byName := Bytes.sortBy Listed.name files
    let key (value : Nat) : Bytes := [UInt8.ofNat (Bytes.ofNat value).length] ++ Bytes.ofNat value
    let invert (s : Bytes) : Bytes := s.map (255 - ·)
    let sorted := match found.last? ['t', 'S'] with
      | some 't' => Bytes.sortBy (fun f => invert (key f.inode.modified)) byName
      | some _ => Bytes.sortBy (fun f => invert (key (sizeOf f.inode.node))) byName
      | none => byName
    if found.has 'r' then sorted.reverse else sorted

/-- The number at the right of its column. -/
def rightAligned (width : Nat) (s : Bytes) : Bytes := List.replicate (width - s.length) 32 ++ s

def blocksOf (node : Node) : Nat :=
  if node matches .file _ | .dir .. then (sizeOf node + 4095) / 4096 * 4 else 0

def describeFiles (fs : FileSystem) (found : Arguments) (files : List Listed) : Bytes :=
  let long := found.has 'l' || found.has 'n' || found.has 'g' || found.has 'o'
  let widest (text : Listed → Bytes) : Nat := files.foldl (fun w f => max w (text f).length) 0
  let links (f : Listed) : Bytes := Bytes.ofNat (fs.nameCount f.number)
  let size (f : Listed) : Bytes := Bytes.ofNat (sizeOf f.inode.node)
  let number (f : Listed) : Bytes := Bytes.ofNat (f.number + 2)
  let blocks (f : Listed) : Bytes := Bytes.ofNat (blocksOf f.inode.node)
  let owner := ascii (if found.has 'n' then "0" else "root")
  let lines := files.map fun f =>
    let front := (if found.has 'i' then rightAligned (widest number) (number f) ++ [32] else []) ++
      (if found.has 's' then rightAligned (widest blocks) (blocks f) ++ [32] else [])
    let mark := if found.has 'F' then kindMark f.inode
      else if found.has 'p' && f.inode.node.isDirectory then [47] else []
    let name := if found.has 'Q' then 34 :: (f.name ++ [34]) else f.name
    if long then
      let mark := if f.inode.node.isLink then [] else mark
      let arrow := match f.inode.node with
        | .link target => ascii " -> " ++ target
        | _ => []
      front ++ kindLetter f.inode.node :: Permissions.columns f.inode.mode ++ [32] ++
        rightAligned (widest links) (links f) ++ [32] ++
        (if found.has 'g' then [] else owner ++ [32]) ++
        (if found.has 'o' || found.has 'G' then [] else owner ++ [32]) ++
        rightAligned (widest size) (size f) ++ ascii " Jan  1 00:00 " ++ name ++ mark ++ arrow
    else front ++ name ++ mark
  if found.has 'm' then Bytes.joinWith (ascii ", ") lines ++ (if lines.isEmpty then [] else [10])
  else lines.flatMap (· ++ [if found.has 'z' then 0 else 10])

/-- The files in a directory that are listed. -/
def listedIn (m : Machine) (found : Arguments) (n : InodeNumber) : List Listed :=
  let parent := match m.files.node? n with
    | some (.dir parent ..) => parent
    | _ => n
  let own := if found.has 'a' || found.has 'f' then [(Path.dot, n), (Path.dotDot, parent)] else []
  let entries := own ++ (m.files.entries n).filter fun (name, _) =>
    name.head? != some 46 || found.has 'a' || found.has 'A' || found.has 'f'
  entries.filterMap fun (name, n) => (m.files.inode? n).map fun i => ⟨name, n, i⟩

/-- Lists a directory, and those in it if that was asked for. -/
def listDirectory (c : Call) (found : Arguments) : (fuel : Nat) → (headed first top : Bool) →
    Bytes → Act Bool
  | 0, _, _, _, _ => return false
  | fuel + 1, headed, first, _, path => do
    let m ← get
    match m.host.openDirectory path with
    | .error cause =>
      c.complainOf (ascii "cannot open directory " ++ Quote.always path) cause
      return false
    | .ok n =>
      let files := ordered found (listedIn m found n)
      let long := found.has 'l' || found.has 'n' || found.has 'g' || found.has 'o' || found.has 's'
      let sum := total (files.map fun f => blocksOf f.inode.node)
      c.say ((if first then [] else [10]) ++
        (if headed then Quote.ifNeeded path ++ [58, 10] else []) ++
        (if long then ascii "total " ++ Bytes.ofNat sum ++ [10] else []) ++
        describeFiles m.files found files)
      if found.has 'R' then
        let dirs := files.filter fun f =>
          f.inode.node.isDirectory && f.name != Path.dot && f.name != Path.dotDot
        let results ← dirs.mapM fun f =>
          listDirectory c found fuel true false false (Path.join path f.name)
        return results.all id
      else return true

def ls : Tool := fun c => do
  let found ← c.arguments ⟨"aAbBcCdDfFgGhHiI:klLmnNopqQrRsStT:uUvw:xXZ1",
    [⟨"all", .nothing, 'a'⟩, ⟨"almost-all", .nothing, 'A'⟩, ⟨"directory", .nothing, 'd'⟩,
      ⟨"classify", .maybe, 'F'⟩, ⟨"recursive", .nothing, 'R'⟩, ⟨"reverse", .nothing, 'r'⟩,
      ⟨"color", .maybe, '='⟩, ⟨"size", .nothing, 's'⟩, ⟨"inode", .nothing, 'i'⟩,
      ⟨"quote-name", .nothing, 'Q'⟩, ⟨"zero", .nothing, 'z'⟩,
      ⟨"numeric-uid-gid", .nothing, 'n'⟩, ⟨"human-readable", .nothing, 'h'⟩,
      ⟨"group-directories-first", .nothing, '+'⟩], false, 2⟩
  let paths := if found.operands.isEmpty then [Path.dot] else found.operands
  let m ← get
  let long := found.has 'l' || found.has 'n' || found.has 'g' || found.has 'o'
  let keepLinks := (long || found.has 'F' || found.has 'd') && !found.has 'L' && !found.has 'H'
  let looked ← paths.mapM fun path => do
    let linkToDirectory := !found.has 'd' && m.host.isDirectory path && !long && !found.has 'F'
    let n := match m.host.locate path (!keepLinks || linkToDirectory) with
      | .ok n => Except.ok n
      | .error cause => if keepLinks then .error cause else m.host.locate path false
    match n with
    | .ok n => return (m.files.inode? n).map fun i => (⟨path, n, i⟩ : Listed)
    | .error cause =>
      c.complainOf (ascii "cannot access " ++ Quote.always path) cause
      return none
  let known := looked.filterMap id
  let isDir (f : Listed) : Bool := f.inode.node.isDirectory && !found.has 'd'
  let files := ordered found (known.filter (!isDir ·))
  let dirs := ordered found (known.filter isDir)
  if !files.isEmpty then c.say (describeFiles m.files found files)
  let headed := paths.length > 1 || found.has 'R'
  let go (first : Bool × List Bool) (f : Listed) : Act (Bool × List Bool) := do
    let done ← listDirectory c found 1000 headed first.1 true f.name
    return (false, done :: first.2)
  let (_, results) ← dirs.foldlM go (files.isEmpty, [])
  return if looked.all Option.isSome && results.all id then 0 else 2

/-! ## stat -/

/-- What a letter of a format stands for. -/
def statField (fs : FileSystem) (path : Bytes) (n : InodeNumber) (i : Inode) (letter : UInt8) :
    Bytes :=
  if letter == 110 then path
  else if letter == 78 then
    match i.node with
    | .link target => Quote.always path ++ ascii " -> " ++ Quote.always target
    | _ => Quote.always path
  else if letter == 115 then Bytes.ofNat (sizeOf i.node)
  else if letter == 70 then kindName i.node
  else if letter == 97 then Permissions.octal 1 i.mode
  else if letter == 65 then kindLetter i.node :: Permissions.columns i.mode
  else if letter == 104 then Bytes.ofNat (fs.nameCount n)
  else if letter == 105 then Bytes.ofNat (n + 2)
  else if letter == 85 || letter == 71 then ascii "root"
  else if letter == 117 || letter == 103 then ascii "0"
  else if letter == 89 || letter == 88 || letter == 90 then
    Bytes.ofNat (i.modified / Machine.second)
  else if letter == 98 then Bytes.ofNat (2 * blocksOf i.node)
  else if letter == 66 then ascii "512"
  else if letter == 111 then ascii "4096"
  else if letter == 102 then
    let kind := match i.node with
      | .file _ => 0o100000
      | .dir .. => 0o040000
      | .link _ => 0o120000
      | .device _ => 0o020000
      | .fifo _ => 0o010000
    (Nat.toDigits 16 (kind + i.mode)).map fun c => UInt8.ofNat c.toNat
  else [63]

/-- A format with what its letters stand for. -/
def statText (field : UInt8 → Bytes) : Bytes → Bytes
  | [] => []
  | 37 :: 37 :: rest => 37 :: statText field rest
  | 37 :: letter :: rest => field letter ++ statText field rest
  | b :: rest => b :: statText field rest

def stat : Tool := fun c => do
  let found ← c.arguments (.usual "Lfc:t" [⟨"dereference", .nothing, 'L'⟩,
    ⟨"file-system", .nothing, 'f'⟩, ⟨"format", .value, 'c'⟩, ⟨"printf", .value, 'p'⟩,
    ⟨"terse", .nothing, 't'⟩])
  c.demandOperand found.operands
  forAll found.operands fun path => do
    let m ← get
    match m.host.locate path (found.has 'L') with
    | .error cause =>
      c.complainOf (ascii "cannot statx " ++ Quote.always path) cause
      return false
    | .ok n =>
      match m.files.inode? n with
      | none => return false
      | some i =>
        let field := statField m.files path n i
        match found.value? 'c', found.value? 'p' with
        | some format, _ => c.say (statText field format ++ [10])
        | none, some format => c.say (statText field (Escape.expand true format).1)
        | none, none =>
          c.say (ascii "  File: " ++ path ++ ascii "\n  Size: " ++ Bytes.ofNat (sizeOf i.node) ++
            ascii "\t" ++ kindName i.node ++ ascii "\n")
        return true

/-! ## Trees -/

def du : Tool := fun c => do
  let found ← c.arguments (.usual "abchkmsd:" [⟨"all", .nothing, 'a'⟩, ⟨"bytes", .nothing, 'b'⟩,
    ⟨"total", .nothing, 'c'⟩, ⟨"summarize", .nothing, 's'⟩, ⟨"max-depth", .value, 'd'⟩,
    ⟨"apparent-size", .nothing, 'A'⟩])
  let paths := if found.operands.isEmpty then [Path.dot] else found.operands
  forAll paths fun path => do
    let m ← get
    match m.host.locate path false with
    | .error cause =>
      c.complainOf (ascii "cannot access " ++ Quote.always path) cause
      return false
    | .ok n =>
      let fuel := m.files.inodes.size + 1
      let all := treeOf m.files fuel path n
      let size (path : Bytes) (n : InodeNumber) : Nat :=
        total ((treeOf m.files fuel path n).map fun (_, n) =>
          match m.files.node? n with
          | some node => if found.has 'b' then sizeOf node else blocksOf node
          | none => 0)
      let shown := all.filter fun (p, n) =>
        p == path || (!found.has 's' &&
          (found.has 'a' || (m.files.node? n).any Node.isDirectory))
      c.say (shown.reverse.flatMap fun (p, n) => Bytes.ofNat (size p n) ++ 9 :: (p ++ [10]))
      return true

end WasmPackager.Tools
