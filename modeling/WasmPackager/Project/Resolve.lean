/-
# `Project.Resolve` — from a directory to a configuration

The project root is given by any path that leads to a directory, or left
empty for the working directory.  It is replaced by its path without links,
and the manifest in it, if there is one, is read.
-/
import WasmPackager.FileSystem.Operations
import WasmPackager.Project.Manifest

namespace WasmPackager.Project

def manifestName : Name := ascii "screeps.project"

def readManifest (h : Host) (path : Bytes) (base : Config) : Except Failure Config :=
  match h.read path with
  | .error _ => .error (.manifestUnopenable path)
  | .ok contents => Manifest.parse path contents.bytes base

/-- The configuration of the project in a directory, given by its path without links. -/
def configure (h : Host) (path : Bytes) : Except Failure Config :=
  let config := Config.standard path
  let manifest := Path.join config.root manifestName
  if h.pathExists manifest then readManifest h manifest config else .ok config

def rootPath (h : Host) (root : Bytes) : Except SystemError Bytes :=
  if root.isEmpty then h.currentPath else .ok root

def resolve (h : Host) (root : Bytes) : Except Failure Config :=
  match rootPath h root with
  | .error _ => .error (.rootNotDirectory root)
  | .ok dir =>
    if !h.isDirectory dir then .error (.rootNotDirectory root)
    else
      match h.canonical dir with
      | .error cause => .error (.rootUnresolvable dir cause)
      | .ok path => configure h path

end WasmPackager.Project
