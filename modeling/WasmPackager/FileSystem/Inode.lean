/-
# `FileSystem.Inode` — what a file system keeps

A file system keeps inodes under numbers.  A directory knows the number of the
directory above it and gives names to the numbers of its entries, so one inode
can have several names, or none; a link holds the path it stands for and is
not followed here.  Every inode has permissions and a time of its last change.
-/
import WasmPackager.FileSystem.Path

namespace WasmPackager

/-! ## Contents -/

/-- The contents of a file: bytes, and after them a stretch of zero bytes that takes no
space, as a file has that was enlarged without being written. -/
structure Contents where
  written : Bytes
  hole : Nat
deriving DecidableEq

namespace Contents

/-- Contents that were written byte for byte. -/
def ofBytes (s : Bytes) : Contents := ⟨s, 0⟩

def empty : Contents := ofBytes []

def size (c : Contents) : Nat := c.written.length + c.hole

/-- How many bytes a file can hold: no offset in a file is larger. -/
def limit : Nat := Nat.pow 2 63 - 1

def bytes (c : Contents) : Bytes :=
  if c.hole = 0 then c.written else c.written ++ List.replicate c.hole 0

/-- The contents cut off or filled up to the given size. -/
def resize (c : Contents) (size : Nat) : Contents :=
  if size ≤ c.written.length then ⟨c.written.take size, 0⟩
  else ⟨c.written, size - c.written.length⟩

def append (c : Contents) (s : Bytes) : Contents :=
  if s.isEmpty then c else ofBytes (c.bytes ++ s)

/-- The contents with bytes in the place of what was from `offset` on; a gap before them is
filled with zero bytes. -/
def overwrite (c : Contents) (offset : Nat) (s : Bytes) : Contents :=
  if s.isEmpty then c
  else if offset = c.size then c.append s
  else
    let all := c.bytes
    ofBytes (all.take offset ++ List.replicate (offset - all.length) 0 ++ s ++
      all.drop (offset + s.length))

def startingAt (c : Contents) (offset : Nat) : Bytes :=
  if c.hole = 0 then c.written.drop offset
  else c.written.drop offset ++ List.replicate (c.hole - (offset - c.written.length)) 0

end Contents

/-! ## Nodes -/

inductive Device
  /-- Swallows what is written and is always at its end when read. -/
  | null
  /-- Has no room for anything that is written, and gives zero bytes. -/
  | full
  /-- Gives zero bytes without end. -/
  | zero
  /-- Stands for an open stream of the process that opens it. -/
  | stream (number : Nat)
deriving DecidableEq

/-- Identifies an inode of a file system. -/
abbrev InodeNumber := Nat

/-- What an inode is. -/
inductive Node
  | file (contents : Contents)
  /-- A directory that was `removed` has no name any more; whoever is in it still is. -/
  | dir (parent : InodeNumber) (entries : List (Name × InodeNumber)) (removed : Bool)
  | link (target : Bytes)
  | device (device : Device)
  /-- A queue between processes, with what was written and not yet read, the last first. -/
  | fifo (pending : List Bytes)
deriving DecidableEq

namespace Node

def isDirectory : Node → Bool
  | dir .. => true
  | file _ | link _ | device _ | fifo _ => false

/-- The node is a file that can be read to its end. -/
def isRegular : Node → Bool
  | file _ => true
  | dir .. | link _ | device _ | fifo _ => false

def isLink : Node → Bool
  | link _ => true
  | file _ | dir .. | device _ | fifo _ => false

/-- The entries of a directory; nothing else has any. -/
def entries : Node → List (Name × InodeNumber)
  | dir _ entries _ => entries
  | file _ | link _ | device _ | fifo _ => []

end Node

/-! ## Inodes -/

/-- What a process may want to do with an inode. -/
inductive Access
  | read
  | write
  /-- Execute a file, or pass through a directory. -/
  | execute
deriving DecidableEq

/-- The bit of a mode that grants an access to the owner. -/
def Access.bit : Access → Nat
  | read => 8
  | write => 7
  | execute => 6

/-- A node with its permissions, as the usual twelve bits, and the time of its last change. -/
structure Inode where
  node : Node
  mode : Nat
  modified : Nat
deriving DecidableEq

namespace Inode

/-- The owner of all files, who acts here, is granted the access. -/
def allows (i : Inode) (access : Access) : Bool := i.mode.testBit access.bit

/-- The permissions of a file that nobody has set. -/
def fileMode : Nat := 0o644

def programMode : Nat := 0o755

def directoryMode : Nat := 0o755

/-- The permissions of a link, which nobody asks for. -/
def linkMode : Nat := 0o777

end Inode
end WasmPackager
