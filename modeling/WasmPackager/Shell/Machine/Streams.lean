/-
# `Shell.Machine.Streams` — opening, reading and writing

A process reads and writes through numbered streams.  A stream stands for an
entry of the table of open files, and several streams, also of several
processes, can stand for the same one: they share the place at which the next
byte is read or written.

The two ends of a pipe are open files of one queue.  Nobody ever waits for a
queue: the process that writes to it has ended before the one that reads from
it begins.  A process that writes without end is stopped after
`Machine.queueLimit` writes, as one is whose reader has gone.
-/
import WasmPackager.Shell.Machine.Signal

namespace WasmPackager

/-- What a file is opened for. -/
inductive Opening
  | read
  /-- What the file held is lost. -/
  | write
  /-- As `write`, but a regular file must not be there. -/
  | writeFresh
  | append
  | readWrite
deriving DecidableEq

namespace Opening

def creates : Opening → Bool
  | read => false
  | write | writeFresh | append | readWrite => true

def truncates : Opening → Bool
  | write | writeFresh => true
  | read | append | readWrite => false

def reads : Opening → Bool
  | read | readWrite => true
  | write | writeFresh | append => false

end Opening

namespace Machine

/-- The stream that a process reads from. -/
def input : Nat := 0

/-- The stream that a process writes its results to. -/
def output : Nat := 1

/-- The stream that a process complains to. -/
def complaints : Nat := 2

/-- How often a queue can be written to before it is read. -/
def queueLimit : Nat := 50000

/-- How many bytes are taken from a device that never ends. -/
def endlessAmount : Nat := 131072

/-! ## Opening and closing -/

/-- The place in the table of open files that a stream stands for. -/
def place? (m : Machine) (stream : Nat) : Option Nat := m.acting.streams.lookup stream

/-- The open file that a stream stands for. -/
def openFile? (m : Machine) (stream : Nat) : Option OpenFile := do m.opened[← m.place? stream]?

/-- The machine with one more open file, and its place in the table. -/
def enroll (m : Machine) (file : OpenFile) : Nat × Machine :=
  (m.opened.size, { m with opened := m.opened.push file })

/-- The machine in which a stream of the acting process stands for a place in the table. -/
def redirect (m : Machine) (stream place : Nat) : Machine :=
  { m with acting.streams := (stream, place) :: m.acting.streams.filter (·.1 != stream) }

/-- The machine in which the acting process does not have a stream. -/
def close (m : Machine) (stream : Nat) : Machine :=
  { m with acting.streams := m.acting.streams.filter (·.1 != stream) }

/-- The inode that opening an inode leads to: a device that stands for a stream leads to the
inode that the stream is of. -/
def behind (m : Machine) (n : InodeNumber) : Except SystemError InodeNumber :=
  match m.files.node? n with
  | some (.device (.stream number)) =>
    match m.openFile? number with
    | some file => .ok file.inode
    | none => .error .notFound
  | _ => .ok n

def openInode (m : Machine) (n : InodeNumber) (how : Opening) :
    Except SystemError (Nat × Machine) :=
  match m.host.inodeAt n with
  | .error cause => .error cause
  | .ok i => do
    if how.reads then Host.demand i .read
    if how != Opening.read then Host.demand i .write
    let files := match i.node with
      | .file _ => if how.truncates then m.files.setNode n (.file .empty) else m.files
      | _ => m.files
    return { m with files }.enroll ⟨n, 0, how.reads, how != Opening.read, how == Opening.append⟩

/-- The inode a path leads to, which is made if it is missing and may be made. -/
def openPathInode (m : Machine) (path : Bytes) (how : Opening) :
    Except SystemError (InodeNumber × Machine) := do
  if how.creates then
    if how == Opening.writeFresh && m.host.isRegularFile path then throw .alreadyExists
    let (n, h) ← m.host.openForWriting path false (m.masked 0o666)
    return (n, m.withHost h)
  else return (← m.host.locate path true, m)

/-- Opens a path; gives the place in the table of open files. -/
def openPath (m : Machine) (path : Bytes) (how : Opening) : Except SystemError (Nat × Machine) := do
  let (n, m) ← m.openPathInode path how
  m.openInode (← m.behind n) how

/-- Two open files of a new queue, the one to read from and the one to write to. -/
def pipe (m : Machine) : (Nat × Nat) × Machine :=
  let (n, files) := m.files.create (.fifo []) 0o600
  let (reading, m) := { m with files }.enroll ⟨n, 0, true, false, false⟩
  let (writing, m) := m.enroll ⟨n, 0, false, true, false⟩
  ((reading, writing), m)

/-- An open file without a name that holds the given bytes, to be read. -/
def document (m : Machine) (bytes : Bytes) : Nat × Machine :=
  let (n, files) := m.files.create (.file (.ofBytes bytes)) 0o600
  { m with files }.enroll ⟨n, 0, true, false, false⟩

/-! ## Reading and writing open files -/

/-- What can be read from an open file now. -/
def ahead (m : Machine) (file : OpenFile) : Except SystemError Bytes :=
  if !file.reads then .error .badDescriptor
  else
    match m.files.node? file.inode with
    | some (.file contents) => .ok (contents.startingAt file.position)
    | some (.fifo pending) => .ok pending.reverse.flatten
    | some (.device .zero) | some (.device .full) => .ok (List.replicate endlessAmount 0)
    | some (.device _) => .ok []
    | some (.dir ..) => .error .isDirectory
    | some (.link _) | none => .error .badDescriptor

/-- The machine with the place of an open file moved on behind what was read. -/
def advance (m : Machine) (place : Nat) (file : OpenFile) (count : Nat) : Machine :=
  match m.files.node? file.inode with
  | some (.fifo pending) =>
    let rest := pending.reverse.flatten.drop count
    { m with files := m.files.setNode file.inode (.fifo (if rest.isEmpty then [] else [rest])) }
  | some (.file _) =>
    { m with
      opened := m.opened.setIfInBounds place { file with position := file.position + count } }
  | _ => m

def writeOpen (m : Machine) (place : Nat) (file : OpenFile) (bytes : Bytes) :
    Except SystemError Machine :=
  if !file.writes then .error .badDescriptor
  else
    match m.files.node? file.inode with
    | some (.file contents) =>
      let start := if file.appends then contents.size else file.position
      if Contents.limit < start + bytes.length then .error .fileTooLarge
      else
        .ok { m with
          files := if bytes.isEmpty then m.files
            else m.files.setNode file.inode (.file (contents.overwrite start bytes))
          opened := m.opened.setIfInBounds place { file with position := start + bytes.length } }
    | some (.fifo pending) =>
      if queueLimit ≤ file.position then .error .brokenPipe
      else
        .ok { m with
          files := if bytes.isEmpty then m.files
            else m.files.setNode file.inode (.fifo (bytes :: pending))
          opened := m.opened.setIfInBounds place { file with position := file.position + 1 } }
    | some (.device .full) => if bytes.isEmpty then .ok m else .error .noSpace
    | some (.device _) => .ok m
    | some (.dir ..) | some (.link _) | none => .error .badDescriptor

end Machine

/-! ## Reading and writing streams -/

namespace Act

/-- The open file a stream stands for, and its place in the table. -/
def openFile (stream : Nat) : Act (Except SystemError (Nat × OpenFile)) := do
  let m ← get
  match m.place? stream, m.openFile? stream with
  | some place, some file => return .ok (place, file)
  | _, _ => return .error .badDescriptor

/-- Takes bytes from a stream: as many of those that can be read as `amount` says. -/
def take (stream : Nat) (amount : Bytes → Nat) : Act (Except SystemError Bytes) := do
  match ← openFile stream with
  | .error cause => return .error cause
  | .ok (place, file) =>
    match (← get).ahead file with
    | .error cause => return .error cause
    | .ok bytes =>
      let count := amount bytes
      modify (·.advance place file count)
      return .ok (bytes.take count)

/-- Takes everything there is from a stream. -/
def readAll (stream : Nat) : Act (Except SystemError Bytes) := take stream List.length

/-- Takes at most the given number of bytes from a stream. -/
def readSome (stream count : Nat) : Act (Except SystemError Bytes) :=
  take stream fun bytes => min count bytes.length

/-- Takes the bytes up to the next line feed, and with it, from a stream. -/
def readLine (stream : Nat) : Act (Except SystemError Bytes) :=
  take stream fun bytes =>
    let line := bytes.takeWhile (· != 10)
    if (bytes.drop line.length).isEmpty then line.length else line.length + 1

/-- Writes to a stream.  A process that writes where nobody reads is stopped by a signal, unless
it ignores that. -/
def write (stream : Nat) (bytes : Bytes) : Act (Except SystemError Unit) := do
  match ← openFile stream with
  | .error cause => return .error cause
  | .ok (place, file) =>
    let m ← get
    match m.writeOpen place file bytes with
    | .ok m => set m; return .ok ()
    | .error .brokenPipe =>
      if m.acting.ignored.contains Signal.brokenPipe then return .error .brokenPipe
      else throw (.killed Signal.brokenPipe)
    | .error cause => return .error cause

/-- Opens a path for a new stream of the acting process, with the lowest free number from
`lowest` on. -/
def openStream (path : Bytes) (how : Opening) (lowest : Nat) :
    Act (Except SystemError Nat) := do
  let m ← get
  match m.openPath path how with
  | .error cause => return .error cause
  | .ok (place, m) =>
    let taken := m.acting.streams.map Prod.fst
    let free := ((List.range (taken.length + 1)).map (· + lowest)).find? (!taken.contains ·)
    let stream := free.getD lowest
    set (m.redirect stream place)
    return .ok stream

/-- What reading a path to its end gives. -/
def readPath (path : Bytes) : Act (Except SystemError Bytes) := do
  match ← openStream path .read 3 with
  | .error cause => return .error cause
  | .ok stream =>
    let result ← readAll stream
    modify (·.close stream)
    return result

end Act
end WasmPackager
