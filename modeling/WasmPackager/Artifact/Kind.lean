/-
# `Artifact.Kind` — what a file of the toolchain's output is for

A file's kind is decided by its extension through an extension map.  The
packager needs one binary module and one loader script; other files are
ignored.
-/
import WasmPackager.Loader.Contract

namespace WasmPackager

/-- What a file in the toolchain's output directory is for. -/
inductive ArtifactKind
  /-- The compiled WebAssembly module. -/
  | binaryModule
  /-- The script that loads the module. -/
  | loaderScript
  /-- Anything else. -/
  | ignored
deriving DecidableEq

namespace ArtifactKind

/-- The short name of a kind, as messages give it. -/
def name : ArtifactKind → Bytes
  | binaryModule => ascii "wasm"
  | loaderScript => ascii "js"
  | ignored => ascii "ignored"

/-- The kinds a scan can be asked for, in the order in which they are reported. -/
def scannable : List ArtifactKind := [binaryModule, loaderScript]

end ArtifactKind

/-- Which kind a file extension (with its dot; empty for none) stands for. -/
abbrev ExtensionMap := List (Bytes × ArtifactKind)

namespace ExtensionMap

/-- The kind of a file with the given extension: ignored unless the map says otherwise. -/
def kindOf (extensions : ExtensionMap) (extension : Bytes) : ArtifactKind :=
  (extensions.lookup extension).getD .ignored

/-- The kinds other than `ignored` that some extension stands for, in reporting order. -/
def required (extensions : ExtensionMap) : List ArtifactKind :=
  ArtifactKind.scannable.filter fun kind => extensions.any (·.2 == kind)

/-- The map for the toolchain's output: `.wasm` is the module, `.js` the script. -/
def standard : ExtensionMap :=
  [(Loader.scriptExtension, .loaderScript), (Loader.binaryExtension, .binaryModule)]

end ExtensionMap
end WasmPackager
