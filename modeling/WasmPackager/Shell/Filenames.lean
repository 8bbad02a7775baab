/-
# `Shell.Filenames` — the names of files that have a form

A field in which something is selective stands for the paths that have its
form, in byte order, or for itself if there is none.  Between two slashes a
form is compared with the names in one directory; names that begin with a dot
have to be asked for with a dot.
-/
import WasmPackager.Shell.Pattern
import WasmPackager.FileSystem.Operations

namespace WasmPackager.Shell.Filenames

/-- A set in brackets begins behind an opening one. -/
def closes (inside : List Letter) : Bool :=
  let inside := match inside with
    | (false, 33) :: rest => rest
    | _ => inside
  (inside.drop 1).contains (false, 93)

def isSelective : List Letter → Bool
  | [] => false
  | (quoted, b) :: rest =>
    (!quoted && (b == 42 || b == 63 || (b == 91 && closes rest))) || isSelective rest

/-- A field cut at the first selective name. -/
structure Cut where
  /-- What is in front of the name, with the slash. -/
  above : Bytes
  name : List Letter
  /-- What is behind the slash that follows the name, if one does. -/
  below : Option (List Letter)

/-- Cuts a field, read on behind what is in front. -/
def cut? : (fuel : Nat) → (above : Bytes) → List Letter → Option Cut
  | 0, _, _ => none
  | fuel + 1, above, letters =>
    let name := letters.takeWhile (·.2 != Path.slash)
    let below := match letters.drop name.length with
      | _ :: rest => some rest
      | [] => none
    if isSelective name then some ⟨above, name, below⟩
    else
      match below with
      | some rest => cut? fuel (above ++ name.map Prod.snd ++ [Path.slash]) rest
      | none => none

/-- The names in a directory that have a form. -/
def named (h : Host) (dir : Bytes) (form : List Letter) : List Name :=
  match h.list (if dir.isEmpty then Path.dot else dir) with
  | .error _ => []
  | .ok names =>
    let pattern := Pattern.ofLetters form
    let hidden := (form.head?.map Prod.snd) == some 46
    (Path.dot :: Path.dotDot :: names).filter fun name =>
      (hidden || name.head? != some 46) && pattern.accepts name

/-- The paths that have a form, below a directory. -/
def paths (h : Host) : (fuel : Nat) → (dir : Bytes) → List Letter → List Bytes
  | 0, _, _ => []
  | fuel + 1, dir, letters =>
    match cut? (letters.length + 1) dir letters with
    | none =>
      let path := dir ++ letters.map Prod.snd
      if dir.isEmpty then [] else if (h.statLink path).toBool then [path] else []
    | some c =>
      (named h c.above c.name).flatMap fun name =>
        match c.below with
        | none => [c.above ++ name]
        | some below => paths h fuel (c.above ++ name ++ [Path.slash]) below

def ofField (h : Host) (letters : List Letter) : List Bytes :=
  let itself := letters.map Prod.snd
  if !Pattern.isSelective letters then [itself]
  else
    match paths h (letters.length + 1) [] (Pattern.protect letters) with
    | [] => [itself]
    | found => Bytes.sort found

end WasmPackager.Shell.Filenames
