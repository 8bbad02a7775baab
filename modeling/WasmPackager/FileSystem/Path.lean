/-
# `FileSystem.Path` — paths as texts

Operations on paths that look at their text only and never at a file system.
Nothing is normalised: a path keeps the spelling it was given.
-/
import WasmPackager.Bytes

namespace WasmPackager

abbrev Name := Bytes

/-- The path of a directory with no links in it, as the names passed on the way down from the
root of the file system. -/
abbrev Location := List Name

namespace Path

/-- The byte that separates the names of a path. -/
def slash : UInt8 := 47

/-- `dir` followed by `name`, with one slash between them unless `dir` is empty or has one
at its end. -/
def join (dir name : Bytes) : Bytes :=
  if dir.isEmpty || dir.getLast? == some slash then dir ++ name else dir ++ slash :: name

def isAbsolute (path : Bytes) : Bool := path.head? == some slash

/-- The path insists that it names a directory. -/
def hasTrailingSlash (path : Bytes) : Bool := path.getLast? == some slash

/-- The names of a path, in order; repeated slashes count once. -/
def names (path : Bytes) : List Name := (Bytes.splitOn slash path).filter (!·.isEmpty)

/-- The path of the given names, from the root or relative. -/
def ofNames (absolute : Bool) (names : List Name) : Bytes :=
  (if absolute then [slash] else []) ++ Bytes.joinWith [slash] names

/-- The path without its last name; empty if nothing is left of it. -/
def parent (path : Bytes) : Bytes := ofNames (isAbsolute path) (names path).dropLast

def ofLocation (loc : Location) : Bytes := ofNames true loc

/-- The extension of a file name: from its last dot on, or empty if there is no dot or only
one at the very beginning. -/
def extension (name : Name) : Bytes :=
  let afterDot := (name.reverse.takeWhile (· != 46)).reverse
  let stem := name.length - afterDot.length
  if stem ≤ 1 then [] else 46 :: afterDot

def dot : Name := [46]

def dotDot : Name := [46, 46]

end Path
end WasmPackager
