/-
# `Shell.Tools.Making` — programs that make files and change what is known of them

Directories, queues, times, permissions and sizes.
-/
import WasmPackager.Shell.Tools.Basic

namespace WasmPackager.Tools

/-! ## Looking at files -/

def inodeOf (path : Bytes) (follow : Bool) : Act (Except SystemError Inode) := do
  let h := (← get).host
  return do h.inodeAt (← h.locate path follow)

def isDirectory (path : Bytes) : Act Bool := do return (← get).host.isDirectory path

/-- Does something with each of some values; the status tells whether all went well. -/
def forAll {α : Type} (values : List α) (body : α → Act Bool) : Act UInt8 := do
  return Call.statusOf (← values.mapM body)

/-- Makes a change of the host; complains if that is refused. -/
def orComplain (c : Call) (subject : Bytes) (change : Host → Except SystemError Host) :
    Act Bool := do
  match ← Act.changing change with
  | .ok () => return true
  | .error cause =>
    c.complainOf subject cause
    return false

/-! ## Modes -/

/-- The changes that a text describes: a number or a list of changes. -/
def modeChanges? (text : Bytes) : Option (List Permissions.Change) :=
  match Permissions.ofOctal? text with
  | some bits => some [⟨[], .replace, [], some bits⟩]
  | none => Permissions.ofSymbols? text

/-- The mode that a text makes of another one. -/
def modeFrom (c : Call) (text : Bytes) (isDirectory : Bool) (mode : Nat) : Act Nat := do
  match modeChanges? text with
  | some changes => return Permissions.apply changes isDirectory (← get).acting.umask mode
  | none => c.abort (ascii "invalid mode " ++ Quote.always text) 1

/-! ## Directories and queues -/

/-- The paths above a path and the path itself, from the outermost on. -/
def pathsTo (path : Bytes) : List Bytes :=
  let names := Path.names path
  (List.range names.length).map fun i => Path.ofNames (Path.isAbsolute path) (names.take (i + 1))

/-- Makes a directory with those above it that are missing. -/
def makeAll (c : Call) (verbose : Bool) (mode : Option Nat) (path : Bytes) : Act Bool := do
  let failing (path : Bytes) (cause : SystemError) : Act Bool := do
    c.complainOf (ascii "cannot create directory " ++ Quote.always path) cause
    return false
  let rec go : List Bytes → Act Bool
    | [] => return true
    | path :: rest => do
      let m ← get
      let mode := (if rest.isEmpty then mode else none).getD 0o777
      match m.host.makeDirectory path (m.masked mode) with
      | .ok h =>
        set (m.withHost h)
        if verbose then
          c.say (c.name ++ ascii ": created directory " ++ Quote.always path ++ [10])
        go rest
      | .error cause =>
        match ← inodeOf path true with
        | .ok i =>
          if i.node.isDirectory then go rest
          else failing path (if rest.isEmpty then .alreadyExists else .notDirectory)
        | .error _ => failing path cause
  if path.isEmpty then failing path .notFound else go (pathsTo path)

def mkdir : Tool := fun c => do
  let found ← c.arguments (.usual "pm:vZ" [⟨"parents", .nothing, 'p'⟩, ⟨"mode", .value, 'm'⟩,
    ⟨"verbose", .nothing, 'v'⟩])
  c.demandOperand found.operands
  let mode ← (found.value? 'm').mapM fun text => modeFrom c text true 0o777
  forAll found.operands fun path => do
    if found.has 'p' then makeAll c (found.has 'v') mode path
    else
      let m ← get
      let made ← orComplain c (ascii "cannot create directory " ++ Quote.always path) fun h =>
        h.makeDirectory path (mode.getD (m.masked 0o777))
      if made && found.has 'v' then
        c.say (c.name ++ ascii ": created directory " ++ Quote.always path ++ [10])
      return made

/-- The paths above a path, the innermost first. -/
def above (path : Bytes) : List Bytes := ((pathsTo path).dropLast).reverse

/-- Removes directories one after the other, until one cannot be removed. -/
def removeChain (c : Call) (lenient verbose : Bool) : List Bytes → Act Bool
  | [] => return true
  | path :: rest => do
    if verbose then c.say (c.name ++ ascii ": removing directory, " ++ Quote.always path ++ [10])
    match ← Act.changing (·.removeDirectory path) with
    | .ok () => removeChain c lenient verbose rest
    | .error cause =>
      if lenient && (cause matches .notEmpty) then return true
      c.complainOf (ascii "failed to remove " ++ Quote.always path) cause
      return false

def rmdir : Tool := fun c => do
  let found ← c.arguments (.usual "pv" [⟨"parents", .nothing, 'p'⟩, ⟨"verbose", .nothing, 'v'⟩,
    ⟨"ignore-fail-on-non-empty", .nothing, 'i'⟩])
  c.demandOperand found.operands
  forAll found.operands fun path =>
    removeChain c (found.has 'i') (found.has 'v')
      (path :: if found.has 'p' then above path else [])

def mkfifo : Tool := fun c => do
  let found ← c.arguments (.usual "m:" [⟨"mode", .value, 'm'⟩])
  c.demandOperand found.operands
  let mode ← (found.value? 'm').mapM fun text => modeFrom c text false 0o666
  forAll found.operands fun path => do
    let m ← get
    orComplain c (ascii "cannot create fifo " ++ Quote.always path) fun h =>
      h.makeNode path (.fifo []) (mode.getD (m.masked 0o666))

/-! ## Times -/

/-- The host with the time of an inode changed. -/
def withTime (h : Host) (n : InodeNumber) (time : Nat) : Except SystemError Host := do
  return h.withFiles (h.files.setInode n { ← h.inodeAt n with modified := time })

/-- The days from the first of January 1970 to a date. -/
def daysTo (year month day : Nat) : Int :=
  let y : Int := if month ≤ 2 then (year : Int) - 1 else year
  let era := y.fdiv 400
  let yearOfEra := y - era * 400
  let shifted : Int := if month > 2 then (month : Int) - 3 else (month : Int) + 9
  let dayOfYear := (153 * shifted + 2).fdiv 5 + day - 1
  era * 146097 + yearOfEra * 365 + yearOfEra.fdiv 4 - yearOfEra.fdiv 100 + dayOfYear - 719468

/-- The time of a date and a time of day, in units of the clock; none before 1970. -/
def timeOf (year month day hour minute second : Nat) : Nat :=
  ((daysTo year month day * 86400 + hour * 3600 + minute * 60 + second).toNat) * Machine.second

/-- The numbers in a text, which anything else separates. -/
def numbersIn (text : Bytes) : List Nat :=
  let isDigit (b : UInt8) : Bool := 48 ≤ b && b ≤ 57
  ((Bytes.splitOn 32 (text.map fun b => if isDigit b then b else 32)).filterMap Bytes.toNat?)

/-- The time that digits denote: month, day, hour and minute, behind the year if that is given. -/
def stampOf? (text : Bytes) : Option Nat := do
  let main := text.takeWhile (· != 46)
  let seconds := (Bytes.toNat? (text.drop (main.length + 1))).getD 0
  let two (i : Nat) : Option Nat := Bytes.toNat? ((main.drop i).take 2)
  let (year, i) ← match main.length with
    | 8 => some (2024, 0)
    | 10 => (two 0).map fun y => (if y < 69 then 2000 + y else 1900 + y, 2)
    | 12 => (Bytes.toNat? (main.take 4)).map (·, 4)
    | _ => none
  return timeOf year (← two i) (← two (i + 2)) (← two (i + 4)) (← two (i + 6)) seconds

def dateOf? (text : Bytes) : Option Nat :=
  match text with
  | 64 :: seconds => (Bytes.toNat? seconds).map (· * Machine.second)
  | _ =>
    match numbersIn text with
    | [y, m, d] => some (timeOf y m d 0 0 0)
    | [y, m, d, hour, minute] => some (timeOf y m d hour minute 0)
    | y :: m :: d :: hour :: minute :: second :: _ => some (timeOf y m d hour minute second)
    | _ => none

/-- Gives files a new time, making those that are missing. -/
def touch : Tool := fun c => do
  let found ← c.arguments (.usual "acd:fhmr:t:" [⟨"no-create", .nothing, 'c'⟩,
    ⟨"date", .value, 'd'⟩, ⟨"reference", .value, 'r'⟩, ⟨"no-dereference", .nothing, 'h'⟩,
    ⟨"time", .value, 'T'⟩])
  let time ← match found.value? 'r', found.value? 't', found.value? 'd' with
    | some path, _, _ => do
      match ← inodeOf path true with
      | .ok i => pure (some i.modified)
      | .error cause =>
        c.complainOf (ascii "failed to get attributes of " ++ Quote.always path) cause
        Act.exit 1
    | _, some text, _ =>
      match stampOf? text with
      | some time => pure (some time)
      | none => c.abort (ascii "invalid date format " ++ Quote.always text) 1
    | _, _, some text => pure (dateOf? text)
    | _, _, _ => pure none
  if found.operands.isEmpty then c.misuse (ascii "missing file operand") 1
  else
    forAll found.operands fun path => do
      if path == [45] then return true
      let m ← get
      let follow := !found.has 'h'
      let subject := ascii (if Path.hasTrailingSlash path then "setting times of "
        else "cannot touch ") ++ Quote.always path
      match m.host.locate path follow with
      | .ok n =>
        if found.last? ['a', 'm'] == some 'a' && !found.has 'm' then return true
        orComplain c subject fun h => withTime h n (time.getD m.files.clock)
      | .error .notFound =>
        if found.has 'c' || !follow then return true
        else if Path.hasTrailingSlash path then orComplain c subject fun _ => .error .notFound
        else orComplain c subject fun h => do
          let (n, h) ← h.openForWriting path false (m.masked 0o666)
          match time with
          | some time => withTime h n time
          | none => return h
      | .error cause =>
        if found.has 'c' && (cause matches .notDirectory) then return true
        orComplain c subject fun _ => .error cause

/-! ## Permissions -/

/-- The arguments of a program that takes modes: one that takes permissions away looks like an
option. -/
def modeArgument (a : Bytes) : Bool :=
  match a with
  | 45 :: b :: _ => (ascii "rwxXstugoa,+=0123456789").contains b
  | _ => false

/-- The paths below a directory, with the directory in front of what it holds. -/
def treeOf (fs : FileSystem) : (fuel : Nat) → (path : Bytes) → InodeNumber →
    List (Bytes × InodeNumber)
  | 0, _, _ => []
  | fuel + 1, path, n =>
    (path, n) :: ((Bytes.sortBy Prod.fst (fs.entries n)).flatMap fun (name, child) =>
      treeOf fs fuel (Path.join path name) child)

def changeMode (c : Call) (found : Arguments) (changes : List Permissions.Change)
    (entry : Bytes × InodeNumber) : Act Bool := do
  let m ← get
  let (path, n) := entry
  match m.host.inodeAt n with
  | .error cause =>
    c.complainOf (ascii "cannot access " ++ Quote.always path) cause
    return false
  | .ok i =>
    if i.node.isLink then return true
    let new := Permissions.apply changes i.node.isDirectory m.acting.umask i.mode
    set { m with files := m.files.setInode n { i with mode := new } }
    let shown (mode : Nat) : Bytes :=
      Permissions.octal 4 mode ++ ascii " (" ++ Permissions.columns mode ++ [41]
    if new != i.mode && (found.has 'v' || found.has 'c') then
      c.say (ascii "mode of " ++ Quote.always path ++ ascii " changed from " ++ shown i.mode ++
        ascii " to " ++ shown new ++ [10])
    else if found.has 'v' then
      c.say (ascii "mode of " ++ Quote.always path ++ ascii " retained as " ++ shown new ++ [10])
    return true

def chmod : Tool := fun c => do
  let asMode := c.args.find? modeArgument
  let before := c.args.takeWhile (· != [45, 45])
  let asMode := if before.any modeArgument then asMode else none
  let args := match asMode with
    | some a => c.args.filter (· != a)
    | none => c.args
  let found ← { c with args }.arguments (.usual "Rcfv" [⟨"recursive", .nothing, 'R'⟩,
    ⟨"changes", .nothing, 'c'⟩, ⟨"silent", .nothing, 'f'⟩, ⟨"quiet", .nothing, 'f'⟩,
    ⟨"verbose", .nothing, 'v'⟩, ⟨"reference", .value, 'r'⟩])
  let (mode, paths) ← match found.value? 'r', asMode, found.operands with
    | some reference, _, paths => do
      match ← inodeOf reference true with
      | .ok i => pure (Permissions.octal 4 i.mode, paths)
      | .error cause =>
        c.complainOf (ascii "failed to get attributes of " ++ Quote.always reference) cause
        Act.exit 1
    | none, some mode, paths => pure (mode, paths)
    | none, none, [] => c.misuse (ascii "missing operand") 1
    | none, none, mode :: paths => pure (mode, paths)
  if paths.isEmpty then c.misuse (ascii "missing operand after " ++ Quote.always mode) 1
  match modeChanges? mode with
  | none => c.misuse (ascii "invalid mode: " ++ Quote.always mode) 1
  | some changes =>
    forAll paths fun path => do
      let m ← get
      match m.host.locate path true with
      | .error cause =>
        let dangling := (m.host.statLink path).toBool && (cause matches .notFound)
        if !found.has 'f' then
          if dangling then
            c.complain (ascii "cannot operate on dangling symlink " ++ Quote.always path)
          else c.complainOf (ascii "cannot access " ++ Quote.always path) cause
        return false
      | .ok n =>
        if found.has 'R' then
          let results ← (treeOf m.files (m.files.inodes.size + 1) path n).mapM
            (changeMode c found changes)
          return results.all id
        else changeMode c found changes (path, n)

/-! ## Sizes -/

def unitSize? (unit : Bytes) : Option Nat :=
  let powers := [("K", 1), ("k", 1), ("M", 2), ("m", 2), ("G", 3), ("g", 3), ("T", 4), ("t", 4),
    ("P", 5), ("E", 6)]
  if unit.isEmpty then some 1
  else if unit == ascii "b" then some 512
  else if unit == ascii "c" then some 1
  else if unit == ascii "w" then some 2
  else
    match powers.find? fun (name, _) => ascii name == unit.take 1 with
    | some (_, power) =>
      if unit.length == 1 || unit.drop 1 == ascii "iB" then some (Nat.pow 1024 power)
      else if unit.drop 1 == ascii "B" then some (Nat.pow 1000 power)
      else none
    | none => none

/-- The number of bytes that a text with a unit denotes. -/
def sizeOf? (text : Bytes) : Option Nat :=
  let digits := text.takeWhile fun b => 48 ≤ b && b ≤ 57
  match Bytes.toNat? digits, unitSize? (text.drop digits.length) with
  | some n, some unit => some (n * unit)
  | none, some unit => if digits.isEmpty && text.length != 0 && unit != 1 then some unit else none
  | _, none => none

/-- The size that a text makes of another one. -/
def newSize? (text : Bytes) (old : Nat) : Option Nat :=
  match text.dropWhile isSpace with
  | 43 :: rest => (sizeOf? rest).map (old + ·)
  | 45 :: rest => (sizeOf? rest).map (old - ·)
  | 60 :: rest => (sizeOf? rest).map (min old)
  | 62 :: rest => (sizeOf? rest).map (max old)
  | 47 :: rest => (sizeOf? rest).bind fun n => if n = 0 then none else some (old / n * n)
  | 37 :: rest => (sizeOf? rest).bind fun n => if n = 0 then none else some ((old + n - 1) / n * n)
  | rest => sizeOf? rest

def truncate : Tool := fun c => do
  let found ← c.arguments (.usual "cor:s:" [⟨"no-create", .nothing, 'c'⟩,
    ⟨"io-blocks", .nothing, 'o'⟩, ⟨"reference", .value, 'r'⟩, ⟨"size", .value, 's'⟩])
  let base ← match found.value? 'r' with
    | some path => do
      match ← inodeOf path true with
      | .ok i =>
        match i.node with
        | .file contents => pure (some contents.size)
        | _ => pure (some 0)
      | .error cause =>
        c.complainOf (ascii "cannot stat " ++ Quote.always path) cause
        Act.exit 1
    | none => pure none
  let text := found.value? 's'
  if let some text := text then
    if (newSize? text 0).isNone then
      c.abort (ascii "Invalid number: " ++ Quote.always text) 1
  if text.isNone && base.isNone then
    c.misuse (ascii "you must specify either '--size' or '--reference'") 1
  if found.operands.isEmpty then c.misuse (ascii "missing file operand") 1
  forAll found.operands fun path => do
    let m ← get
    if found.has 'c' && !m.host.pathExists path then return true
    orComplain c (ascii "cannot open " ++ Quote.always path ++ ascii " for writing") fun h => do
      let (n, h) ← h.openForWriting path false (m.masked 0o666)
      match h.files.node? n with
      | some (.file contents) =>
        let old := base.getD contents.size
        let size := match text with
          | some text => (newSize? text old).getD old
          | none => old
        return h.withFiles (h.files.setNode n (.file (contents.resize size)))
      | _ => return h

end WasmPackager.Tools
