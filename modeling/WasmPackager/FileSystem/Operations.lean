/-
# `FileSystem.Operations` — reading and changing a file system

The operations the packager and its children make on a host.  An operation
that changes something gives the host it leaves, also when it fails half-way:
creating a directory may have created those above it.
-/
import WasmPackager.FileSystem.Host

namespace WasmPackager.Host

/-! ## Reading -/

/-- The names in a directory, in the order in which the system lists them. -/
def children (h : Host) (dir : InodeNumber) : List Name := (h.files.entries dir).map Prod.fst

/-- An inode may be used in a way its permissions grant. -/
def demand (i : Inode) (access : Access) : Except SystemError Unit :=
  if i.allows access then .ok () else .error .accessDenied

/-- The directory a path leads to, to be listed. -/
def openDirectory (h : Host) (path : Bytes) : Except SystemError InodeNumber := do
  let n ← h.locateDirectory path
  demand (← h.inodeAt n) .read
  return n

/-- The names in the directory a path leads to. -/
def list (h : Host) (path : Bytes) : Except SystemError (List Name) := do
  return h.children (← h.openDirectory path)

def entriesOf (h : Host) (dir : InodeNumber) : Except SystemError (List (Name × InodeNumber)) :=
  match h.files.node? dir with
  | some (.dir _ entries _) => .ok entries
  | _ => .error .badDescriptor

/-- The path leads to a device that goes on giving bytes. -/
def isEndless (h : Host) (path : Bytes) : Bool :=
  match h.stat path with
  | .ok ⟨.device .zero, _, _⟩ | .ok ⟨.device .full, _, _⟩ => true
  | _ => false

/-- What reading a path to its end gives.  A directory can be opened but has no bytes. -/
def read (h : Host) (path : Bytes) : Except SystemError Contents := do
  let i ← h.stat path
  demand i .read
  match i.node with
  | .file contents => .ok contents
  | .fifo pending => .ok (.ofBytes pending.reverse.flatten)
  | .dir .. | .link _ | .device _ => .ok .empty

/-- The nodes below a directory with their paths relative to it, in the order of a walk that
visits a directory before what it holds.  No way down is longer than there are inodes. -/
def descendants (fs : FileSystem) : (fuel : Nat) → InodeNumber → List (Bytes × Node)
  | 0, _ => []
  | fuel + 1, dir =>
    (fs.entries dir).flatMap fun (name, n) =>
      match fs.node? n with
      | none => []
      | some node =>
        (name, node) ::
          (descendants fs fuel n).map fun (path, node) => (Path.join name path, node)

/-- Everything below the directory a path leads to, in byte order of the relative paths. -/
def listing (h : Host) (path : Bytes) : List (Bytes × Node) :=
  match h.locateDirectory path with
  | .error _ => []
  | .ok n => Bytes.sortBy Prod.fst (descendants h.files (h.files.inodes.size + 1) n)

/-! ## Entries -/

/-- Entries can be made in a directory that still has a name and may be written and passed. -/
def mayAdd (h : Host) (dir : InodeNumber) : Except SystemError Unit := do
  let i ← h.inodeAt dir
  match i.node with
  | .dir _ _ true => .error .notFound
  | _ =>
    demand i .write
    demand i .execute

/-- Entries can be taken out of a directory that may be written and passed. -/
def mayTake (h : Host) (dir : InodeNumber) : Except SystemError Unit := do
  let i ← h.inodeAt dir
  demand i .write
  demand i .execute

/-- A new inode as an entry of a directory. -/
def addEntry (h : Host) (dir : InodeNumber) (name : Name) (node : Node) (mode : Nat) :
    Except SystemError (InodeNumber × Host) := do
  h.mayAdd dir
  let (n, files) := h.files.create node mode
  return (n, h.withFiles (files.attach dir name n))

/-! ## Directories -/

def makeDirectory (h : Host) (path : Bytes) (mode : Nat) : Except SystemError Host := do
  let s ← h.slot path
  match s.last with
  | .dot | .dotDot | .root => .error .alreadyExists
  | .entry name =>
    match ← h.entryOf s.dir name with
    | some _ => .error .alreadyExists
    | none => return (← h.addEntry s.dir name (.dir s.dir [] false) mode).2

/-- Makes one directory; one that is there already will do. -/
def ensureDirectory (h : Host) (path : Bytes) : Except SystemError Host :=
  match h.makeDirectory path Inode.directoryMode with
  | .error .alreadyExists => if h.isDirectory path then .ok h else .error .alreadyExists
  | result => result

/-- How many missing directories one request may ask for. -/
def missingLimit : Nat := 1000

/-- The paths that have to be made directories, outermost first, so that the path of the
given names is one.  The names are given last one first; `pending` are those already found
missing.  The search goes up until it meets something that exists. -/
def missingPaths (h : Host) (absolute : Bool) :
    (pending : List Bytes) → (reversedNames : List Name) → Except SystemError (List Bytes)
  | pending, [] => .ok pending
  | pending, name :: above =>
    let pending :=
      if name == Path.dot || name == Path.dotDot then pending
      else Path.ofNames absolute (name :: above).reverse :: pending
    if missingLimit < pending.length then .error .nameTooLong
    else if above.isEmpty && !absolute then .ok pending
    else
      match h.stat (Path.ofNames absolute above.reverse) with
      | .ok i => if i.node.isDirectory then .ok pending else .error .notDirectory
      | .error .notFound => missingPaths h absolute pending above
      | .error cause => .error cause

/-- Makes the directories one after the other, until one cannot be made. -/
def ensureAll : Host → List Bytes → Except SystemError Unit × Host
  | h, [] => (.ok (), h)
  | h, path :: rest =>
    match h.ensureDirectory path with
    | .ok h => ensureAll h rest
    | .error cause => (.error cause, h)

def createDirectories (h : Host) (path : Bytes) : Except SystemError Unit × Host :=
  if path.isEmpty then (.error .invalidArgument, h)
  else
    match h.stat path with
    | .ok i => if i.node.isDirectory then (.ok (), h) else (.error .notDirectory, h)
    | .error .notFound | .error .notDirectory =>
      match h.missingPaths (Path.isAbsolute path) [] (Path.names path).reverse with
      | .error cause => (.error cause, h)
      | .ok paths => h.ensureAll paths
    | .error cause => (.error cause, h)

/-! ## Files -/

/-- Opens a path for writing, which makes a file of it if nothing is there and empties the file
that is there if `truncate` says so; gives the inode that will be written. -/
def openForWriting (h : Host) (path : Bytes) (truncate : Bool) (mode : Nat) :
    Except SystemError (InodeNumber × Host) := do
  match ← h.resolve path true with
  | .vacant dir name asDirectory =>
    if asDirectory then .error .isDirectory
    else h.addEntry dir name (.file .empty) mode
  | .existing n =>
    let i ← h.inodeAt n
    match i.node with
    | .dir .. => .error .isDirectory
    | .file _ =>
      demand i .write
      return (n, if truncate then h.withFiles (h.files.setNode n (.file .empty)) else h)
    | .device _ | .fifo _ =>
      demand i .write
      return (n, h)
    | .link _ => .error .linkLoop

def openTruncated (h : Host) (path : Bytes) : Except SystemError (InodeNumber × Host) :=
  h.openForWriting path true Inode.fileMode

/-- Writes bytes behind what an inode holds.  What a file has no room for is not written, but the
bytes in front of it are. -/
def appendAt (h : Host) (n : InodeNumber) (bytes : Bytes) : Except SystemError Unit × Host :=
  match h.files.node? n with
  | some (.file contents) =>
    let room := Contents.limit - contents.size
    let holding (s : Bytes) := h.withFiles (h.files.setNode n (.file (contents.append s)))
    if bytes.length ≤ room then (.ok (), holding bytes)
    else (.error .fileTooLarge, holding (bytes.take room))
  | some (.fifo pending) => (.ok (), h.withFiles (h.files.setNode n (.fifo (bytes :: pending))))
  | some (.device .full) => (if bytes.isEmpty then .ok () else .error .noSpace, h)
  | some (.device _) => (.ok (), h)
  | _ => (.error .notFound, h)

/-- Makes a path hold the given bytes, following links.  The file is emptied before it is
written, so a write that fails leaves part of what it should. -/
def writeFile (h : Host) (path bytes : Bytes) : Except SystemError Unit × Host :=
  match h.openTruncated path with
  | .error cause => (.error cause, h)
  | .ok (n, opened) => opened.appendAt n bytes

def setMode (h : Host) (path : Bytes) (mode : Nat) : Except SystemError Host := do
  let n ← h.locate path true
  return h.withFiles (h.files.setInode n { ← h.inodeAt n with mode })

/-- Puts a file at a path, with the directories above it; `executable` marks it as a program,
otherwise it keeps the permissions it has.  Where no file can be written nothing is. -/
def place (h : Host) (path bytes : Bytes) (executable : Bool) : Except SystemError Unit × Host :=
  let above := Path.parent path
  match if above.isEmpty then (.ok (), h) else h.createDirectories above with
  | (.error cause, h) => (.error cause, h)
  | (.ok (), h) =>
    let h := (h.writeFile path bytes).2
    if executable then
      match h.setMode path Inode.programMode with
      | .ok h => (.ok (), h)
      | .error cause => (.error cause, h)
    else (.ok (), h)

/-- Makes something other than a directory or a file at a path where nothing is. -/
def makeNode (h : Host) (path : Bytes) (node : Node) (mode : Nat) : Except SystemError Host := do
  let s ← h.slot path
  match s.last with
  | .dot | .dotDot | .root => .error .alreadyExists
  | .entry name =>
    match ← h.entryOf s.dir name with
    | some _ => .error .alreadyExists
    | none =>
      if s.asDirectory then .error .notFound
      else return (← h.addEntry s.dir name node mode).2

def makeLink (h : Host) (path target : Bytes) : Except SystemError Host :=
  let target := readable target
  if target.isEmpty then .error .notFound
  else if FileSystem.pathLimit ≤ target.length then .error .nameTooLong
  else h.makeNode path (.link target) Inode.linkMode

/-- Gives what a path names another name; a link is not followed, and a directory cannot have
two names. -/
def addName (h : Host) (source path : Bytes) : Except SystemError Host := do
  let n ← h.locate source false
  let s ← h.slot path
  match s.last with
  | .dot | .dotDot | .root => .error .alreadyExists
  | .entry name =>
    match ← h.entryOf s.dir name with
    | some _ => .error .alreadyExists
    | none =>
      if s.asDirectory then .error .notFound
      else
        h.mayAdd s.dir
        if (← h.inodeAt n).node.isDirectory then .error .notPermitted
        else return h.withFiles (h.files.attach s.dir name n)

/-! ## Removing and renaming -/

/-- Takes away a name of a file or link. -/
def unlink (h : Host) (path : Bytes) : Except SystemError Host := do
  let s ← h.slot path
  match s.last with
  | .dot | .dotDot | .root => .error .isDirectory
  | .entry name =>
    match ← h.entryOf s.dir name with
    | none => .error .notFound
    | some n =>
      let isDirectory := (← h.inodeAt n).node.isDirectory
      if s.asDirectory then .error (if isDirectory then .isDirectory else .notDirectory)
      else
        h.mayTake s.dir
        if isDirectory then .error .isDirectory
        else return h.withFiles (h.files.detach s.dir name)

def removeDirectory (h : Host) (path : Bytes) : Except SystemError Host := do
  let s ← h.slot path
  match s.last with
  | .root => .error .busy
  | .dot => .error .invalidArgument
  | .dotDot => .error .notEmpty
  | .entry name =>
    match ← h.entryOf s.dir name with
    | none => .error .notFound
    | some n =>
      h.mayTake s.dir
      match (← h.inodeAt n).node with
      | .dir _ [] _ => return h.withFiles ((h.files.detach s.dir name).markRemoved n)
      | .dir .. => .error .notEmpty
      | _ => .error .notDirectory

/-- Removes a file, a link or an empty directory; links are not followed. -/
def remove (h : Host) (path : Bytes) : Except SystemError Host :=
  match h.unlink path with
  | .error .isDirectory => h.removeDirectory path
  | result => result

/-- The file system without what a directory holds, and without what that holds. -/
def clear (fs : FileSystem) : (fuel : Nat) → (dir : InodeNumber) → FileSystem
  | 0, _ => fs
  | fuel + 1, dir =>
    (fs.entries dir).foldl (fun fs (name, n) =>
      match fs.node? n with
      | some (.dir ..) => ((clear fs fuel n).detach dir name).markRemoved n
      | _ => fs.detach dir name) fs

/-- Removes what a path names with everything below it; links are not followed. -/
def removeAll (h : Host) (path : Bytes) : Except SystemError Host := do
  let s ← h.slot path
  match s.last with
  | .dot | .dotDot | .root => .error .invalidArgument
  | .entry name =>
    match ← h.entryOf s.dir name with
    | none => .error .notFound
    | some n =>
      match (← h.inodeAt n).node with
      | .dir .. =>
        let files := clear h.files (h.files.inodes.size + 1) n
        return h.withFiles ((files.detach s.dir name).markRemoved n)
      | _ => return h.withFiles (h.files.detach s.dir name)

/-- Gives the entry `sourceName` of one directory the name `targetName` in another one, in the
place of what may have that name. -/
def moveEntry (fs : FileSystem) (n : InodeNumber) (sourceDir : InodeNumber) (sourceName : Name)
    (targetDir : InodeNumber) (targetName : Name) (replaced : Option InodeNumber) : FileSystem :=
  let fs := match replaced with
    | some old => (fs.detach targetDir targetName).markRemoved old
    | none => fs
  ((fs.detach sourceDir sourceName).attach targetDir targetName n).reparent n targetDir

/-- Gives what `source` names the name `target`, in the place of what had it.  Neither link is
followed.  A directory takes the place of an empty directory only and cannot go below itself;
nothing else takes the place of a directory; of two names of one file both stay. -/
def rename (h : Host) (source target : Bytes) : Except SystemError Host := do
  let s ← h.slot source
  let t ← h.slot target
  match s.last, t.last with
  | .entry sourceName, .entry targetName =>
    match ← h.entryOf s.dir sourceName with
    | none => .error .notFound
    | some n =>
      let replaced ← h.entryOf t.dir targetName
      let isDirectory := (← h.inodeAt n).node.isDirectory
      if !isDirectory && (s.asDirectory || t.asDirectory) then .error .notDirectory
      else if isDirectory && h.files.contains n t.dir then .error .invalidArgument
      else
        match replaced with
        | none =>
          h.mayTake s.dir
          h.mayAdd t.dir
          if isDirectory && s.dir != t.dir then demand (← h.inodeAt n) .write
          return h.withFiles (moveEntry h.files n s.dir sourceName t.dir targetName none)
        | some old =>
          let oldNode := (← h.inodeAt old).node
          if oldNode.isDirectory && h.files.contains old s.dir then .error .notEmpty
          else if n == old then .ok h
          else
            h.mayTake s.dir
            h.mayTake t.dir
            if isDirectory && !oldNode.isDirectory then .error .notDirectory
            else if !isDirectory && oldNode.isDirectory then .error .isDirectory
            else if !oldNode.entries.isEmpty then .error .notEmpty
            else
              return h.withFiles
                (moveEntry h.files n s.dir sourceName t.dir targetName (some old))
  | _, _ => .error .busy

end WasmPackager.Host
