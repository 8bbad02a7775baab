/-
# `Project.Config` — what is to be built, and with what commands

A configuration says where a project lies, which program plays the part of
`cargo`, and whether a release or a debug build is wanted.  The commands the
packager runs and the directories it reads and writes follow from it; the
release switch decides both the build's arguments and the directory its
output is looked for in.
-/
import WasmPackager.Command.Basic
import WasmPackager.FileSystem.Path
import WasmPackager.Loader.Contract

namespace WasmPackager

structure Config where
  root : Bytes
  cargo : Bytes
  release : Bool
deriving DecidableEq

namespace Config

/-- The configuration of a project without a manifest. -/
def standard (root : Bytes) : Config := ⟨root, ascii "cargo", true⟩

/-- The argument that names the target compiled for. -/
def targetFlag : Bytes := ascii "--target=" ++ Loader.targetTriple

def releaseFlag : Bytes := ascii "--release"

def checkCommand (c : Config) : Command := ⟨c.cargo, [ascii "check", targetFlag], c.root⟩

def buildCommand (c : Config) : Command :=
  ⟨c.cargo,
    [ascii "web", ascii "build", targetFlag] ++ (if c.release then [releaseFlag] else []),
    c.root⟩

/-- The directory the packager publishes in. -/
def outputDir (c : Config) : Bytes := Path.join c.root Loader.targetDir

/-- The directory the toolchain leaves its output in. -/
def buildDir (c : Config) : Bytes :=
  Path.join (Path.join c.outputDir Loader.targetTriple)
    (if c.release then ascii "release" else ascii "debug")

end Config
end WasmPackager
