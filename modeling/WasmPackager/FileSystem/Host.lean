/-
# `FileSystem.Host` — a file system seen from a working directory, and how paths are followed

A host is a file system together with a working directory.  Paths are followed
name by name: `.` stays, `..` goes up, a link is replaced by the path it holds.
A path may pass at most forty links, so following one always comes to an end;
the recursion below is on the number of links left and, between two links, on
the names left.

A working directory can be removed from under the host.  It is then a directory
without a path: `.` still leads to it and `..` to where it was, but nothing can
be put there.

An operation on the entry that a path names, such as renaming, follows the path
up to its last name only; `Host.slot` says what that leaves.
-/
import WasmPackager.FileSystem.Store
import WasmPackager.FileSystem.SystemError

namespace WasmPackager

/-- A file system and the directory relative paths begin at. -/
structure Host where
  files : FileSystem
  cwd : InodeNumber
deriving DecidableEq

/-- Where following a path ends. -/
inductive Place
  | existing (n : InodeNumber)
  /-- The directory exists and has no entry of the name; `asDirectory` tells that the path
  insists on a directory. -/
  | vacant (dir : InodeNumber) (name : Name) (asDirectory : Bool)
deriving DecidableEq

def Place.inode : Place → Except SystemError InodeNumber
  | existing n => .ok n
  | vacant .. => .error .notFound

/-- The last name of a path. -/
inductive LastName
  | entry (name : Name)
  | dot
  | dotDot
  /-- The path has no names: it is that of the root. -/
  | root
deriving DecidableEq

/-- The directory that the names of a path before the last one lead to, and the last one. -/
structure Slot where
  dir : InodeNumber
  last : LastName
  /-- The path ends in a slash. -/
  asDirectory : Bool
deriving DecidableEq

namespace FileSystem

/-! ## Following paths -/

def nameLimit : Nat := 255

/-- The length a path has to stay below. -/
def pathLimit : Nat := 4096

def linkLimit : Nat := 40

/-- Names may be looked up in a directory only with the permission to pass through it. -/
def mayPass (fs : FileSystem) (n : InodeNumber) : Except SystemError Unit :=
  match fs.inode? n with
  | some i => if i.allows .execute then .ok () else .error .accessDenied
  | none => .error .notFound

/-- Goes down from `here` along `names`.  `pass` is asked at every directory in which a name is
looked up.  `onLink` takes over at a link that has to be followed: it is given the directory the
link is in, its target, the names behind it, and whether the path insists on a directory. -/
def walk (fs : FileSystem) (pass : InodeNumber → Except SystemError Unit) (follow : Bool)
    (onLink : InodeNumber → Bytes → List Name → Bool → Except SystemError Place)
    (asDirectory : Bool) : (here : InodeNumber) → (names : List Name) → Except SystemError Place
  | here, [] =>
    match fs.node? here with
    | none => .error .notFound
    | some node =>
      if asDirectory && !node.isDirectory then .error .notDirectory else .ok (.existing here)
  | here, name :: rest =>
    match fs.node? here with
    | none => .error .notFound
    | some (.dir parent entries _) =>
      match pass here with
      | .error cause => .error cause
      | .ok () =>
        if name == Path.dot then walk fs pass follow onLink asDirectory here rest
        else if name == Path.dotDot then walk fs pass follow onLink asDirectory parent rest
        else if nameLimit < name.length then .error .nameTooLong
        else
          match entries.lookup name with
          | none => if rest.isEmpty then .ok (.vacant here name asDirectory) else .error .notFound
          | some n =>
            match fs.node? n with
            | some (.link target) =>
              if rest.isEmpty && !follow && !asDirectory then .ok (.existing n)
              else onLink here target rest asDirectory
            | _ => walk fs pass follow onLink asDirectory n rest
    | some _ => .error .notDirectory

/-- Follows the names from `here`, passing at most `links` links. -/
def walkLinks (fs : FileSystem) (pass : InodeNumber → Except SystemError Unit) (follow : Bool) :
    (links : Nat) → (asDirectory : Bool) → InodeNumber → List Name → Except SystemError Place
  | 0, asDirectory, here, names =>
    walk fs pass follow (fun _ _ _ _ => .error .linkLoop) asDirectory here names
  | links + 1, asDirectory, here, names =>
    walk fs pass follow
      (fun dir target rest asDirectory =>
        walkLinks fs pass follow links
          (asDirectory || (rest.isEmpty && Path.hasTrailingSlash target))
          (if Path.isAbsolute target then root else dir) (Path.names target ++ rest))
      asDirectory here names

end FileSystem

namespace Host

def withFiles (h : Host) (files : FileSystem) : Host := { h with files }

/-- The part of a path that the system reads: up to the first zero byte. -/
def readable (path : Bytes) : Bytes := path.takeWhile (· != 0)

def origin (h : Host) (path : Bytes) : InodeNumber :=
  if Path.isAbsolute path then FileSystem.root else h.cwd

/-- A path must not be empty and not too long. -/
def checked (path : Bytes) : Except SystemError Bytes :=
  let path := readable path
  if path.isEmpty then .error .notFound
  else if FileSystem.pathLimit ≤ path.length then .error .nameTooLong
  else .ok path

/-- Where a path leads.  With `follow` a link at its end is followed too; a path that insists
on a directory always follows it. -/
def resolve (h : Host) (path : Bytes) (follow : Bool) : Except SystemError Place :=
  match checked path with
  | .error cause => .error cause
  | .ok path =>
    h.files.walkLinks h.files.mayPass follow FileSystem.linkLimit (Path.hasTrailingSlash path)
      (h.origin path) (Path.names path)

def lastName : List Name → LastName
  | [] => .root
  | names =>
    let name := names.getLastD []
    if name == Path.dot then .dot else if name == Path.dotDot then .dotDot else .entry name

/-- What a path names, followed up to its last name. -/
def slot (h : Host) (path : Bytes) : Except SystemError Slot := do
  let path ← checked path
  let names := Path.names path
  match ← h.files.walkLinks h.files.mayPass true FileSystem.linkLimit true (h.origin path)
      names.dropLast with
  | .vacant .. => .error .notFound
  | .existing dir =>
    h.files.mayPass dir
    return ⟨dir, lastName names, Path.hasTrailingSlash path⟩

/-- The number of the entry of a slot that has a proper name, if there is one. -/
def entryOf (h : Host) (dir : InodeNumber) (name : Name) :
    Except SystemError (Option InodeNumber) :=
  if FileSystem.nameLimit < name.length then .error .nameTooLong
  else .ok (h.files.child? dir name)

def locate (h : Host) (path : Bytes) (follow : Bool) : Except SystemError InodeNumber := do
  match ← h.resolve path follow with
  | .existing n => .ok n
  | .vacant .. => .error .notFound

/-- The inode of a number that following a path gave. -/
def inodeAt (h : Host) (n : InodeNumber) : Except SystemError Inode :=
  match h.files.inode? n with
  | some i => .ok i
  | none => .error .notFound

/-- The inode a path leads to. -/
def stat (h : Host) (path : Bytes) : Except SystemError Inode := do
  h.inodeAt (← h.locate path true)

/-- The inode a path leads to, which can be a link. -/
def statLink (h : Host) (path : Bytes) : Except SystemError Inode := do
  h.inodeAt (← h.locate path false)

/-- The path of the working directory, which has none if it was removed. -/
def currentPath (h : Host) : Except SystemError Bytes :=
  match h.files.namesOf h.cwd with
  | some names => .ok (Path.ofNames true names)
  | none => .error .notFound

/-- The path a directory is found again under, if it has one that is not too long and leads
through directories that may be passed. -/
def retraced (h : Host) (n : InodeNumber) : Except SystemError Bytes :=
  match h.files.namesOf n with
  | some names =>
    let path := Path.ofNames true names
    (h.locate path true).map fun _ => path
  | none => .error .notFound

/-- A name is looked up under the path of the directory, which has to be found again for that. -/
def mayLookUp (h : Host) (n : InodeNumber) : Except SystemError Unit := do
  let _ ← h.retraced n
  h.files.mayPass n

/-- The path without links of the directory a path leads to.  It is found name by name from the
root, so a relative path has none when the working directory was removed, and every directory on
the way must have a path that is not too long. -/
def canonical (h : Host) (path : Bytes) : Except SystemError Bytes := do
  if !Path.isAbsolute path then
    let _ ← h.retraced h.cwd
  let path := readable path
  let place ← h.files.walkLinks h.mayLookUp true FileSystem.linkLimit true (h.origin path)
    (Path.names path)
  h.retraced (← place.inode)

def isDirectory (h : Host) (path : Bytes) : Bool :=
  match h.stat path with
  | .ok i => i.node.isDirectory
  | .error _ => false

def pathExists (h : Host) (path : Bytes) : Bool := (h.stat path).toBool

def isRegularFile (h : Host) (path : Bytes) : Bool :=
  match h.stat path with
  | .ok i => i.node.isRegular
  | .error _ => false

/-- The directory a path leads to. -/
def locateDirectory (h : Host) (path : Bytes) : Except SystemError InodeNumber := do
  let n ← h.locate path true
  if (← h.inodeAt n).node.isDirectory then .ok n else .error .notDirectory

def enter (h : Host) (path : Bytes) : Except SystemError Host := do
  let n ← h.locateDirectory path
  h.files.mayPass n
  return { h with cwd := n }

end Host
end WasmPackager
