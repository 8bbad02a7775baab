/-
# `Artifact.Scan` — one file of each required kind

A scan sorts the regular files of one directory by kind and asks that there
be exactly one file of each kind the extension map requires.  Files are looked
at in byte order of their names, so the order in which the system lists a
directory does not show.
-/
import WasmPackager.Session

namespace WasmPackager

/-- A regular file of a scanned directory. -/
structure Candidate where
  name : Name
  /-- The directory as it was given, and the name. -/
  path : Bytes
  kind : ArtifactKind
deriving DecidableEq

/-- The files found, by kind. -/
abbrev ArtifactSet := List (ArtifactKind × Bytes)

namespace Artifact

def candidates (dir : Bytes) (extensions : ExtensionMap) (names : List Name) : List Candidate :=
  (Bytes.sort names).map fun name =>
    ⟨name, Path.join dir name, extensions.kindOf (Path.extension name)⟩

/-- An entry of a directory is a regular file, or a link to one.  `dir` is the path of the
directory. -/
def isRegular (h : Host) (dir : Bytes) (entry : Name × InodeNumber) : Bool :=
  match h.files.node? entry.2 with
  | some (.link _) => h.isRegularFile (Path.join dir entry.1)
  | some node => node.isRegular
  | none => false

/-- The regular files of a directory, links to such files included, with their kinds. -/
def classify (h : Host) (dir : Bytes) (extensions : ExtensionMap) :
    Except Failure (List Candidate) :=
  match h.openDirectory dir with
  | .error cause => .error (.directoryUnreadable dir cause)
  | .ok n =>
    match h.entriesOf n with
    | .error cause => .error (.listingBroken dir cause)
    | .ok entries =>
      .ok (candidates dir extensions ((entries.filter (isRegular h dir)).map Prod.fst))

/-- The one file of each of the given kinds.  The first kind with no file or with several
decides the failure. -/
def select (dir : Bytes) (files : List Candidate) : List ArtifactKind → Except Failure ArtifactSet
  | [] => .ok []
  | kind :: rest =>
    match files.filter (·.kind == kind) with
    | [] => .error (.artifactMissing kind dir)
    | [file] => do return (kind, file.path) :: (← select dir files rest)
    | several => .error (.artifactAmbiguous kind dir (several.map Candidate.name))

/-- The files of a directory that are required and unique.  A path that leads to no directory
holds no files. -/
def scan (dir : Bytes) (extensions : ExtensionMap) : Step ArtifactSet := do
  if !(← get).host.isDirectory dir then
    Step.ofExcept (select dir [] extensions.required)
  else
    let files ← Step.looking (classify · dir extensions)
    (files.filter (·.kind == .ignored)).forM fun file => Step.note (ascii "ignoring " ++ file.path)
    Step.ofExcept (select dir files extensions.required)

end Artifact
end WasmPackager
