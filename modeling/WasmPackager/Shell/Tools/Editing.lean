/-
# `Shell.Tools.Editing` — the editor that follows a script

The script is put together from the options, the texts to be edited and the
files that the script reads are fetched, and what the run has written is then
brought where it belongs.
-/
import WasmPackager.Shell.Tools.Editing.Cycle
import WasmPackager.Shell.Tools.Copying

namespace WasmPackager.Tools.Edit

/-! ## The script -/

/-- A part of a script: the file it is from, or none for one that was given as an argument. -/
structure Part where
  file : Option Bytes
  text : Bytes

/-- Where in the parts a place of the whole script is: the words for it. -/
def placeText (parts : List Part) (at_ : Nat) : Bytes :=
  let rec go : (number start : Nat) → List Part → Bytes
    | _, _, [] => []
    | number, start, part :: rest =>
      let isArgument := part.file.isNone
      let stop := start + part.text.length
      if at_ ≤ stop || rest.isEmpty then
        match part.file with
        | none =>
          ascii "-e expression #" ++ Bytes.ofNat number ++ ascii ", char " ++
            Bytes.ofNat (at_ - start)
        | some name =>
          let lines := ((part.text.take (at_ - start)).filter (· == 10)).length
          ascii "file " ++ name ++ ascii " line " ++ Bytes.ofNat (lines + 1)
      else go (if isArgument then number + 1 else number) (stop + 1) rest
  go 1 0 parts

/-- Reads a script, or says why it cannot be read. -/
def readScript (c : Call) (extended : Bool) (parts : List Part) : Act (List Instruction) := do
  let text := Bytes.joinWith [10] (parts.map Part.text)
  match readInstructions extended (2 * text.length + 2) [] [] [] text with
  | .error f =>
    let place := match f.rest with
      | some rest => placeText parts (text.length - rest.length)
      | none => ascii "-e expression #1, char 0"
    c.abort (place ++ ascii ": " ++ f.message) 1
  | .ok (all, ends) =>
    match withPlaces all ends with
    | .ok script => return script
    | .error name => c.abort (ascii "can't find label for jump to \x60" ++ name ++ [39]) 4

/-- The files that instructions read from. -/
def documentPaths (script : List Instruction) : List Bytes :=
  script.filterMap fun i => match i.action with
    | .read path | .readLine path => some path
    | _ => none

/-- The files that instructions write to. -/
def writtenPaths (script : List Instruction) : List Bytes :=
  script.filterMap fun i => match i.action with
    | .write path | .writeFirst path => some path
    | .substitute sub => sub.file
    | _ => none

/-! ## What was written -/

/-- What was written, with what goes to the same place one after the other taken together. -/
def together : List (Target × Bytes) → List (Target × Bytes)
  | all =>
    let (reversed, last) := all.foldl (fun (reversed, last) (target, bytes) =>
      match last with
      | some (t, pieces) =>
        if t == target then (reversed, some (t, bytes :: pieces))
        else ((t, pieces.reverse.flatten) :: reversed, some (target, [bytes]))
      | none => (reversed, some (target, [bytes])))
      (([] : List (Target × Bytes)), (none : Option (Target × List Bytes)))
    (match last with
      | some (t, pieces) => (t, pieces.reverse.flatten) :: reversed
      | none => reversed).reverse

/-- The name that a file keeps its old contents under. -/
def backupName (suffix path : Bytes) : Bytes :=
  let base := lastName path
  let name := if suffix.contains 42 then suffix.flatMap fun b => if b == 42 then base else [b]
    else base ++ suffix
  if name.contains Path.slash then name
  else (path.take (path.length - base.length)) ++ name

def replaceFile (c : Call) (suffix path text : Bytes) : Act Bool := do
  let mode := match (← get).host.stat path with
    | .ok i => i.mode
    | .error _ => Inode.fileMode
  if !suffix.isEmpty then
    let _ ← Act.changing (·.rename path (backupName suffix path))
  else
    let _ ← Act.changing (·.unlink path)
  let result ← Act.changing fun h =>
    match h.writeFile path text with
    | (.ok (), h) => h.setMode path mode
    | (.error cause, _) => .error cause
  match result with
  | .ok () => return true
  | .error cause =>
    refuse c (ascii "couldn't open temporary file: " ++ cause.message)

/-- Writes bytes behind what a file holds. -/
def appendTo (path bytes : Bytes) : Act Unit := do
  match ← Act.openStream path .append 3 with
  | .error _ => return
  | .ok stream =>
    let _ ← Act.write stream bytes
    modify (·.close stream)

/-- Brings what was written where it belongs; `open_` is the file whose place the results take,
with what it has got so far. -/
def deliver (c : Call) (suffix : Bytes) : (open_ : Option (Bytes × Bytes)) →
    List (Target × Bytes) → Act Unit
  | none, [] => return
  | some (path, text), [] => do
    let _ ← replaceFile c suffix path text
  | open_, (target, bytes) :: rest => do
    match target, open_ with
    | .replacing path, none => deliver c suffix (some (path, [])) rest
    | .replacing path, some (old, text) =>
      let _ ← replaceFile c suffix old text
      deliver c suffix (some (path, [])) rest
    | .results, some (path, text) => deliver c suffix (some (path, text ++ bytes)) rest
    | .results, none | .screen, _ =>
      c.say bytes
      deliver c suffix open_ rest
    | .complaints, _ =>
      let _ ← Act.write Machine.complaints bytes
      deliver c suffix open_ rest
    | .file path, _ =>
      appendTo path bytes
      deliver c suffix open_ rest

/-! ## The program -/

/-- Says how the program is called, and gives up. -/
def usage {α : Type} (c : Call) : Act α := do
  let _ ← Act.write Machine.complaints (ascii "Usage: " ++ c.name ++
    ascii " [OPTION]... \x7bscript-only-if-no-other-script\x7d [input-file]...\n")
  Act.exit 1

def spec : Spec :=
  .usual "bsnrzuEe:f:l:i::V:" [⟨"regexp-extended", .nothing, 'E'⟩,
    ⟨"expression", .value, 'e'⟩, ⟨"file", .value, 'f'⟩, ⟨"line-length", .value, 'l'⟩,
    ⟨"in-place", .maybe, 'i'⟩, ⟨"quiet", .nothing, 'n'⟩, ⟨"silent", .nothing, 'n'⟩,
    ⟨"separate", .nothing, 's'⟩, ⟨"null-data", .nothing, 'z'⟩, ⟨"zero-terminated", .nothing, 'z'⟩,
    ⟨"unbuffered", .nothing, 'u'⟩, ⟨"posix", .nothing, 'p'⟩, ⟨"debug", .nothing, '='⟩,
    ⟨"sandbox", .nothing, '+'⟩, ⟨"follow-symlinks", .nothing, '~'⟩]

def sed : Tool := fun c => do
  let found ← c.arguments spec
  let given ← (found.options.filter fun o => o.letter == 'e' || o.letter == 'f').mapM fun o => do
    let value := o.value.getD []
    if o.letter == 'e' then return (⟨none, value⟩ : Part)
    else
      match ← Call.input value with
      | .ok text => return ⟨some value, if text.getLast? == some 10 then text.dropLast else text⟩
      | .error cause =>
        c.abort (ascii "couldn't open file " ++ value ++ ascii ": " ++ cause.message) 1
  let (parts, files) ← match given, found.operands with
    | [], [] => usage c
    | [], text :: files => pure ([(⟨none, text⟩ : Part)], files)
    | parts, files => pure (parts, files)
  let firstText := (parts.head?.map Part.text).getD []
  let silentByScript := ascii "#n\n" == firstText.take 3 || firstText == ascii "#n"
  let script ← readScript c (found.has 'E' || found.has 'r') parts
  for path in writtenPaths script do
    if path != ascii "/dev/stdout" && path != ascii "/dev/stderr" then
      match ← Act.openStream path .write 3 with
      | .ok stream => modify (·.close stream)
      | .error cause =>
        c.abort (ascii "couldn't open file " ++ path ++ ascii ": " ++ cause.message) 4
  let documents ← (documentPaths script).mapM fun path => do
    let bytes ← if path == ascii "/dev/stdin" then Act.readAll Machine.input else Act.readPath path
    match bytes with
    | .ok bytes => return (path, bytes)
    | .error _ => return (path, [])
  let inPlace := found.has 'i'
  let sources ← (if files.isEmpty then [[45]] else files).mapM fun path => do
    return (⟨path, ← if inPlace then Act.readPath path else Call.input path⟩ : Source)
  let style : Style := ⟨found.has 'n' || silentByScript, found.has 's' || inPlace, inPlace,
    if found.has 'z' then 0 else 10, ((found.value? 'l').bind Bytes.toNat?).getD 70, documents⟩
  let (written, status) := run style script sources
  deliver c ((found.value? 'i').getD []) none (together written)
  return status

end WasmPackager.Tools.Edit
