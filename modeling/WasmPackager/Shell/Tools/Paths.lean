/-
# `Shell.Tools.Paths` — programs about paths

The parts of a path, where it leads, and names that are not taken.
-/
import WasmPackager.Shell.Tools.Making

namespace WasmPackager.Tools

/-! ## Parts of paths -/

/-- The path without the slashes at its end. -/
def withoutSlashes (path : Bytes) : Bytes :=
  let trimmed := (path.reverse.dropWhile (· == Path.slash)).reverse
  if trimmed.isEmpty && !path.isEmpty then [Path.slash] else trimmed

/-- The last name of a path as it is printed. -/
def finalName (path : Bytes) : Bytes :=
  let path := withoutSlashes path
  if path == [Path.slash] then path else Call.baseName path

/-- The name without an ending, if it has that and is not nothing else. -/
def withoutEnding (ending name : Bytes) : Bytes :=
  if ending.isSuffixOf name && ending != name then name.take (name.length - ending.length) else name

def basename : Tool := fun c => do
  let found ← c.arguments ⟨"as:z", [⟨"multiple", .nothing, 'a'⟩, ⟨"suffix", .value, 's'⟩,
    ⟨"zero", .nothing, 'z'⟩], true, 1⟩
  let mark : UInt8 := if found.has 'z' then 0 else 10
  let several := found.has 'a' || found.has 's'
  match several, found.operands with
  | _, [] => c.misuse (ascii "missing operand") 1
  | true, paths =>
    c.say (paths.flatMap fun path =>
      withoutEnding ((found.value? 's').getD []) (finalName path) ++ [mark])
    return 0
  | false, [path] =>
    c.say (finalName path ++ [mark])
    return 0
  | false, [path, ending] =>
    c.say (withoutEnding ending (finalName path) ++ [mark])
    return 0
  | false, _ :: _ :: extra :: _ => c.misuse (ascii "extra operand " ++ Quote.always extra) 1

def directoryPart (path : Bytes) : Bytes :=
  let path := withoutSlashes path
  if path == [Path.slash] then path
  else
    let name := Call.baseName path
    let above := path.take (path.length - name.length)
    if above.isEmpty then Path.dot else withoutSlashes above

/-- Prints paths without their last names. -/
def dirname : Tool := fun c => do
  let found ← c.arguments ⟨"z", [⟨"zero", .nothing, 'z'⟩], true, 1⟩
  c.demandOperand found.operands
  c.say (found.operands.flatMap fun path =>
    directoryPart path ++ [if found.has 'z' then 0 else 10])
  return 0

/-! ## Where paths lead -/

/-- How much of a path has to exist. -/
inductive Presence
  | all
  | allButLast
  | nothing
deriving DecidableEq

/-- The path without links that a path stands for, found name by name; `here` are the names so
far, the last one first. -/
def resolved (h : Host) (presence : Presence) (follow : Bool) :
    (fuel : Nat) → (here : List Name) → List Name → Except SystemError Bytes
  | 0, _, _ => .error .linkLoop
  | _ + 1, here, [] => .ok (Path.ofNames true here.reverse)
  | fuel + 1, here, name :: rest =>
    if name == Path.dot then resolved h presence follow fuel here rest
    else if name == Path.dotDot then resolved h presence follow fuel (here.drop 1) rest
    else
      let path := Path.ofNames true (name :: here).reverse
      match h.statLink path with
      | .ok i =>
        match i.node with
        | .link target =>
          if follow then
            let names := Path.names target ++ rest
            resolved h presence follow fuel (if Path.isAbsolute target then [] else here) names
          else resolved h presence follow fuel (name :: here) rest
        | .dir .. => resolved h presence follow fuel (name :: here) rest
        | _ =>
          if rest.isEmpty || presence == .nothing then
            resolved h presence follow fuel (name :: here) rest
          else .error .notDirectory
      | .error cause =>
        if presence == .nothing || (presence == .allButLast && rest.isEmpty &&
            (cause matches .notFound)) then
          resolved h presence follow fuel (name :: here) rest
        else .error cause

/-- The path without links that a path stands for. -/
def fullPath (h : Host) (presence : Presence) (follow : Bool) (path : Bytes) :
    Except SystemError Bytes :=
  if path.isEmpty then .error .notFound
  else
    match if Path.isAbsolute path then .ok [] else h.currentPath with
    | .error cause => .error cause
    | .ok start =>
      let result := resolved h presence follow (8 * path.length + 1000)
        (Path.names start).reverse (Path.names path)
      match result with
      | .ok full =>
        if Path.hasTrailingSlash path && presence == .all && !h.isDirectory full then
          .error .notDirectory
        else .ok full
      | .error cause => .error cause

def readlink : Tool := fun c => do
  let found ← c.arguments (.usual "femnqsvz" [⟨"canonicalize", .nothing, 'f'⟩,
    ⟨"canonicalize-existing", .nothing, 'e'⟩, ⟨"canonicalize-missing", .nothing, 'm'⟩,
    ⟨"no-newline", .nothing, 'n'⟩, ⟨"quiet", .nothing, 'q'⟩, ⟨"silent", .nothing, 's'⟩,
    ⟨"verbose", .nothing, 'v'⟩, ⟨"zero", .nothing, 'z'⟩])
  c.demandOperand found.operands
  let mark : Bytes := if found.has 'z' then [0]
    else if found.has 'n' && found.operands.length == 1 then [] else [10]
  forAll found.operands fun path => do
    let h := (← get).host
    let result : Except SystemError Bytes := match found.last? ['f', 'e', 'm'] with
      | some 'f' => fullPath h .allButLast true path
      | some 'e' => fullPath h .all true path
      | some _ => fullPath h .nothing true path
      | none =>
        match h.statLink path with
        | .ok i => match i.node with
          | .link target => .ok target
          | _ => .error .invalidArgument
        | .error cause => .error cause
    match result with
    | .ok text =>
      c.say (text ++ mark)
      return true
    | .error cause =>
      if found.has 'v' then c.complainOf (Quote.ifNeeded path) cause
      return false

/-- Prints the paths without links that paths stand for. -/
def realpath : Tool := fun c => do
  let found ← c.arguments (.usual "eLmPqsz" [⟨"canonicalize-existing", .nothing, 'e'⟩,
    ⟨"canonicalize-missing", .nothing, 'm'⟩, ⟨"quiet", .nothing, 'q'⟩,
    ⟨"strip", .nothing, 's'⟩, ⟨"no-symlinks", .nothing, 's'⟩, ⟨"zero", .nothing, 'z'⟩,
    ⟨"relative-to", .value, 'r'⟩, ⟨"relative-base", .value, 'b'⟩])
  c.demandOperand found.operands
  let h := (← get).host
  let presence : Presence := match found.last? ['e', 'm'] with
    | some 'e' => .all
    | some _ => .nothing
    | none => .allButLast
  let base := (found.value? 'r').bind fun dir => (fullPath h presence true dir).toOption
  forAll found.operands fun path => do
    match fullPath h presence (!found.has 's') path with
    | .ok full =>
      let text := match base with
        | some base =>
          let a := Path.names base
          let b := Path.names full
          let common := ((a.zip b).takeWhile fun (x, y) => x == y).length
          let names := List.replicate (a.length - common) Path.dotDot ++ b.drop common
          if names.isEmpty then Path.dot else Path.ofNames false names
        | none => full
      c.say (text ++ [if found.has 'z' then 0 else 10])
      return true
    | .error cause =>
      if !found.has 'q' then c.complainOf (Quote.ifNeeded path) cause
      return false

def pwd : Tool := fun c => do
  let found ← c.arguments (.usual "LP" [⟨"logical", .nothing, 'L'⟩, ⟨"physical", .nothing, 'P'⟩])
  let m ← get
  let logical : Option Bytes :=
    if found.last? ['L', 'P'] == some 'L' then
      match m.environmentValue? (ascii "PWD") with
      | some path =>
        if (m.host.locate path true).toOption == some m.host.cwd then some path else none
      | none => none
    else none
  match logical, m.host.currentPath with
  | some path, _ | none, .ok path =>
    c.say (path ++ [10])
    return 0
  | none, .error _ =>
    c.abort (ascii "couldn't find directory entry in '..' with matching i-node") 1

/-! ## New names -/

/-- The letters of which new names are made. -/
def nameLetters : Bytes :=
  ascii "0123456789ABCDEFGHIJKLMNOPQRSTUVWXYZabcdefghijklmnopqrstuvwxyz"

/-- Letters that look different every time. -/
def freshLetters (seed : Nat) : (count : Nat) → Bytes
  | 0 => []
  | count + 1 =>
    let next := (seed * 6364136223846793005 + 1442695040888963407) % 2 ^ 64
    nameLetters.getD (next / 2 ^ 33 % nameLetters.length) 120 :: freshLetters next count

/-- The template with the marks at its end, in front of a suffix, replaced; `none` if there are
too few. -/
def filled (seed : Nat) (template : Bytes) : Option Bytes :=
  let suffix := (template.reverse.takeWhile (· != 88)).reverse
  let front := template.take (template.length - suffix.length)
  let marks := (front.reverse.takeWhile (· == 88)).length
  if marks < 3 || suffix.contains Path.slash then none
  else some (front.take (front.length - marks) ++ freshLetters seed marks ++ suffix)

/-- Makes a file or a directory with a new name. -/
def mktemp : Tool := fun c => do
  let found ← c.arguments (.usual "dqtup:" [⟨"directory", .nothing, 'd'⟩, ⟨"quiet", .nothing, 'q'⟩,
    ⟨"dry-run", .nothing, 'u'⟩, ⟨"tmpdir", .maybe, 'p'⟩, ⟨"suffix", .value, 's'⟩])
  let m ← get
  let temporary := (m.environmentValue? (ascii "TMPDIR")).getD (ascii "/tmp")
  let given := found.operands.head?
  let template := given.getD (ascii "tmp.XXXXXXXXXX") ++ (found.value? 's').getD []
  let within := match found.has 'p', found.has 't' || given.isNone with
    | true, _ => some ((found.value? 'p').getD temporary)
    | false, true => some temporary
    | false, false => none
  let template := match within with
    | some dir => Path.join dir template
    | none => template
  match filled (m.files.clock + m.files.inodes.size + m.acting.number) template with
  | none => c.abort (ascii "too few X's in template " ++ Quote.always (given.getD template)) 1
  | some path =>
    let isDir := found.has 'd'
    let change (h : Host) : Except SystemError Host :=
      if found.has 'u' then .ok h
      else if isDir then h.makeDirectory path 0o700
      else h.makeNode path (.file .empty) 0o600
    match ← Act.changing change with
    | .ok () =>
      c.say (path ++ [10])
      return 0
    | .error cause =>
      if !found.has 'q' then
        c.complain (ascii (if isDir then "failed to create directory via template "
          else "failed to create file via template ") ++ Quote.always template ++ ascii ": " ++
          cause.message)
      return 1

end WasmPackager.Tools
