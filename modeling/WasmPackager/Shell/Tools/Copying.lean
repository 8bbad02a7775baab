/-
# `Shell.Tools.Copying` — programs that give files other names or copies

Copying, moving, linking and removing.  The last operand of these programs can
be a directory, into which everything goes, or the new name of one file.
-/
import WasmPackager.Shell.Tools.Making

namespace WasmPackager.Tools

/-! ## Where things go -/

/-- A file with the path it is to have. -/
structure Move where
  source : Bytes
  target : Bytes

def lastName (path : Bytes) : Bytes :=
  match (Path.names path).getLast? with
  | some name => name
  | none => if path.isEmpty then [] else [Path.slash]

/-- The directory that the last name of a path is in. -/
def directoryOf (path : Bytes) : Bytes :=
  let above := Path.parent path
  if above.isEmpty then Path.dot else above

/-- What is moved where: the options `t` and `T` and the last operand tell. -/
def moves (c : Call) (found : Arguments) : Act (List Move) := do
  let into (dir : Bytes) (sources : List Bytes) : List Move :=
    sources.map fun source => ⟨source, Path.join dir (lastName source)⟩
  let problem {α : Type} (kind dir : Bytes) : Act α := do
    let cause := match (← get).host.stat dir with
      | .error cause => cause
      | .ok _ => .notDirectory
    c.abort (kind ++ Quote.always dir ++ ascii ": " ++ cause.message) 1
  match found.value? 't', found.operands with
  | _, [] => c.misuse (ascii "missing file operand") 1
  | some dir, sources =>
    if ← isDirectory dir then return into dir sources
    else problem (ascii "target directory ") dir
  | none, [source] =>
    c.misuse (ascii "missing destination file operand after " ++ Quote.always source) 1
  | none, [source, target] =>
    if !found.has 'T' && (← isDirectory target) then return into target [source]
    else return [⟨source, target⟩]
  | none, sources =>
    let target := sources.getLastD []
    if found.has 'T' then
      c.misuse (ascii "extra operand " ++ Quote.always (sources.getD 2 [])) 1
    else if ← isDirectory target then return into target sources.dropLast
    else problem (ascii "target ") target

/-- Asks whether something should be done. -/
def isWanted (c : Call) (question : Bytes) : Act Bool := do
  let _ ← Act.write Machine.complaints (c.name ++ ascii ": " ++ question ++ ascii "? ")
  match ← Act.readLine Machine.input with
  | .ok (b :: _) => return b == 121 || b == 89
  | _ => return false

/-- Tells what was done, if that was asked for. -/
def tell (c : Call) (found : Arguments) (words : Bytes) (m : Move) (arrow : String) : Act Unit := do
  if found.has 'v' then
    c.say (words ++ Quote.always m.source ++ ascii arrow ++ Quote.always m.target ++ [10])

/-! ## Copying -/

/-- How files are copied. -/
structure CopyStyle where
  recursive : Bool
  /-- Links are followed. -/
  follow : Bool
  force : Bool
  keepMode : Bool
  keepTime : Bool
  hardLinks : Bool
  softLinks : Bool
  /-- What is there stays, or only if it is not older. -/
  skip : Bool
  update : Bool
  ask : Bool

/-- Complains that a file could not be copied. -/
def refuse (c : Call) (text : Bytes) : Act Bool := do
  c.complain text
  return false

/-- Gives a copy what is to be kept of the file. -/
def keep (style : CopyStyle) (i : Inode) (target : Bytes) : Act Unit := do
  let m ← get
  match m.host.locate target false with
  | .ok n =>
    match m.host.inodeAt n with
    | .ok j =>
      let mode := if style.keepMode && !j.node.isLink then i.mode else j.mode
      let modified := if style.keepTime then i.modified else j.modified
      set { m with files := m.files.setInode n { j with mode, modified } }
    | .error _ => return
  | .error _ => return

def writeContents (h : Host) (n : InodeNumber) (contents : Contents) : Except SystemError Host :=
  match h.files.node? n with
  | some (.file _) => .ok (h.withFiles (h.files.setNode n (.file contents)))
  | _ =>
    let (result, h) := h.appendAt n contents.bytes
    result.map fun _ => h

def copyFile (c : Call) (style : CopyStyle) (i : Inode) (m : Move) : Act Bool := do
  let reading : Act (Except SystemError Contents) := do
    match i.node with
    | .file contents => return if i.allows .read then .ok contents else .error .accessDenied
    | _ => return (← Act.readPath m.source).map Contents.ofBytes
  match ← reading with
  | .error cause =>
    refuse c (ascii "cannot open " ++ Quote.always m.source ++ ascii " for reading: " ++
      cause.message)
  | .ok contents =>
    let machine ← get
    let h := machine.host
    let mode := machine.masked (i.mode % 512)
    let dangles := (h.statLink m.target).toBool && !h.pathExists m.target
    if dangles && !style.force then
      refuse c (ascii "not writing through dangling symlink " ++ Quote.always m.target)
    else
      let opened := match h.openForWriting m.target true mode with
        | .error cause =>
          if style.force && (h.statLink m.target).toBool then
            match h.unlink m.target with
            | .ok h => h.openForWriting m.target true mode
            | .error _ => .error cause
          else .error cause
        | result => result
      match opened with
      | .error cause =>
        let cause := if Path.hasTrailingSlash m.target && (cause matches .isDirectory)
          then .notDirectory else cause
        refuse c (ascii "cannot create regular file " ++ Quote.always m.target ++ ascii ": " ++
          cause.message)
      | .ok (n, h) =>
        match writeContents h n contents with
        | .ok h =>
          set (machine.withHost h)
          keep style i m.target
          return true
        | .error cause =>
          set (machine.withHost h)
          refuse c (ascii "error writing " ++ Quote.always m.target ++ ascii ": " ++ cause.message)

/-- Makes something in the place of a name that may be taken. -/
def replacing (taken : Bool) (path : Bytes) (make : Host → Except SystemError Host) :
    Act (Except SystemError Unit) :=
  Act.changing fun h => do
    let h ← if taken then h.unlink path else .ok h
    make h

/-- The names in the directory of a path, in the order in which they are worked on. -/
def entriesOf (path : Bytes) : Act (Except SystemError (List Name)) := do
  return (← get).host.list path

/-- Copies a file, or a directory with what it holds.  `within` are the directories that were
made on the way, which are not copied themselves. -/
def copy (c : Call) (found : Arguments) (style : CopyStyle) : (fuel : Nat) →
    (within : List InodeNumber) → Move → Act Bool
  | 0, _, _ => return false
  | fuel + 1, within, m => do
    match ← inodeOf m.source style.follow with
    | .error cause =>
      refuse c (ascii "cannot stat " ++ Quote.always m.source ++ ascii ": " ++ cause.message)
    | .ok i =>
      let isDir := i.node.isDirectory
      if isDir && !style.recursive then
        refuse c (ascii "-r not specified; omitting directory " ++ Quote.always m.source)
      else
        let h := (← get).host
        let sourceNumber := (h.locate m.source style.follow).toOption
        let followTarget := i.node.isRegular && !style.hardLinks && !style.softLinks
        let there := (h.locate m.target followTarget).toOption
        let old := there.bind h.files.node?
        let oldIsDir := old.any Node.isDirectory
        if there.isSome && there == sourceNumber && !isDir then
          if style.hardLinks then return true
          refuse c (Quote.always m.source ++ ascii " and " ++ Quote.always m.target ++
            ascii " are the same file")
        else if there.isSome && style.skip && !isDir then return true
        else if there.isSome && style.update && !isDir && (there.bind h.files.inode?).any
            (fun j => i.modified ≤ j.modified) then return true
        else
        let wanted ← if there.isSome && style.ask && !isDir then
            isWanted c (ascii "overwrite " ++ Quote.always m.target)
          else pure true
        if !wanted then return false
        else if oldIsDir && !isDir then
          refuse c (ascii "cannot overwrite directory " ++ Quote.always m.target ++
            ascii " with non-directory")
        else if there.isSome && isDir && !oldIsDir then
          refuse c (ascii "cannot overwrite non-directory " ++ Quote.always m.target ++
            ascii " with directory " ++ Quote.always m.source)
        else
          let linked (kind : String) (make : Host → Except SystemError Host) : Act Bool := do
            match ← replacing (there.isSome && (style.force || i.node.isLink)) m.target make with
            | .ok () =>
              tell c found [] m " -> "
              return true
            | .error cause =>
              refuse c (ascii ("cannot create " ++ kind) ++ Quote.always m.target ++ ascii ": " ++
                cause.message)
          match i.node with
          | .dir .. => do
            let machine ← get
            let made ← if there.isSome then pure (Except.ok ()) else
              Act.changing fun h =>
                h.makeDirectory m.target (machine.masked (i.mode % 512) ||| 0o700)
            match made with
            | .error cause =>
              refuse c (ascii "cannot create directory " ++ Quote.always m.target ++ ascii ": " ++
                cause.message)
            | .ok () =>
              if there.isNone then tell c found [] m " -> "
              let h := (← get).host
              let target := (h.locate m.target true).toOption.toList
              let within := target ++ within
              match ← entriesOf m.source with
              | .error cause =>
                refuse c (ascii "cannot access " ++ Quote.always m.source ++ ascii ": " ++
                  cause.message)
              | .ok names =>
                let results ← (Bytes.sort names).mapM fun name => do
                  let inner : Move := ⟨Path.join m.source name, Path.join m.target name⟩
                  let number := (((← get).host).locate inner.source false).toOption
                  if number.any within.contains then
                    refuse c (ascii "cannot copy a directory, " ++ Quote.always m.source ++
                      ascii ", into itself, " ++ Quote.always m.target)
                  else copy c found style fuel within inner
                if there.isNone then
                  let _ ← Act.changing fun h =>
                    h.setMode m.target (if style.keepMode then i.mode else machine.masked i.mode)
                  keep style i m.target
                return results.all id
          | .link target =>
            if style.hardLinks then linked "hard link " fun h => h.addName m.source m.target
            else
              let done ← linked "symbolic link " fun h => h.makeLink m.target target
              keep style i m.target
              return done
          | .fifo _ =>
            if style.recursive then
              linked "fifo " fun h => h.makeNode m.target (.fifo []) i.mode
            else copyFile c style i m
          | .file _ | .device _ =>
            if style.hardLinks then linked "hard link " fun h => h.addName m.source m.target
            else if style.softLinks then
              linked "symbolic link " fun h => h.makeLink m.target m.source
            else
              let done ← copyFile c style i m
              if done then tell c found [] m " -> "
              return done

/-- The deepest nesting of directories that is worked on. -/
def treeDepth : Nat := 1000

def cp : Tool := fun c => do
  let found ← c.arguments (.usual "abdfHilLnprst:uvxPRT" [⟨"archive", .nothing, 'a'⟩,
    ⟨"force", .nothing, 'f'⟩, ⟨"interactive", .nothing, 'i'⟩, ⟨"link", .nothing, 'l'⟩,
    ⟨"dereference", .nothing, 'L'⟩, ⟨"no-clobber", .nothing, 'n'⟩,
    ⟨"no-dereference", .nothing, 'P'⟩, ⟨"preserve", .maybe, 'p'⟩, ⟨"parents", .nothing, 'M'⟩,
    ⟨"recursive", .nothing, 'R'⟩, ⟨"symbolic-link", .nothing, 's'⟩,
    ⟨"target-directory", .value, 't'⟩, ⟨"no-target-directory", .nothing, 'T'⟩,
    ⟨"update", .maybe, 'u'⟩, ⟨"verbose", .nothing, 'v'⟩, ⟨"reflink", .maybe, 'Z'⟩])
  let isArchive := found.has 'a'
  let recursive := found.has 'r' || found.has 'R' || isArchive
  let follow := match found.last? ['L', 'P', 'H', 'd', 'a'] with
    | some 'L' => true
    | some 'H' => !recursive
    | some _ => false
    | none => !recursive
  let skip := found.has 'n'
  if skip then
    c.complain (ascii
      "warning: behavior of -n is non-portable and may change in future; use --update=none instead")
  let style : CopyStyle :=
    ⟨recursive, follow, found.has 'f', found.has 'p' || isArchive, found.has 'p' || isArchive,
      found.has 'l', found.has 's', skip, found.has 'u', found.has 'i'⟩
  let all ← moves c found
  let all ← if found.has 'M' then
      all.mapM fun m => do
        let dir := (found.value? 't').getD (found.operands.getLastD [])
        let target := Path.join dir m.source
        let _ ← Act.changing fun h =>
          match h.createDirectories (Path.parent target) with
          | (.ok (), h) => .ok h
          | (.error cause, _) => .error cause
        return (⟨m.source, target⟩ : Move)
    else pure all
  let once (seen : List Bytes × List Bool) (m : Move) : Act (List Bytes × List Bool) := do
    if seen.1.contains m.source && !(← isDirectory m.source) then
      c.complain (ascii "warning: source file " ++ Quote.always m.source ++
        ascii " specified more than once")
      return seen
    else
      let done ← copy c found style treeDepth [] m
      return (m.source :: seen.1, done :: seen.2)
  let (_, results) ← all.foldlM once ([], [])
  return Call.statusOf results

/-! ## Moving -/

def moveOne (c : Call) (found : Arguments) (m : Move) : Act Bool := do
  let h := (← get).host
  match ← inodeOf m.source false with
  | .error cause =>
    refuse c (ascii "cannot stat " ++ Quote.always m.source ++ ascii ": " ++ cause.message)
  | .ok i =>
    let isDir := i.node.isDirectory
    let there := (h.locate m.target false).toOption
    let oldIsDir := (there.bind h.files.node?).any Node.isDirectory
    let older := (there.bind h.files.inode?).any fun j => i.modified ≤ j.modified
    if there.isSome && there == (h.locate m.source false).toOption then
      refuse c (Quote.always m.source ++ ascii " and " ++ Quote.always m.target ++
        ascii " are the same file")
    else if there.isSome && found.last? ['f', 'i', 'n'] == some 'n' then
      refuse c (ascii "not replacing " ++ Quote.always m.target)
    else if there.isSome && found.has 'u' && older then return true
    else
    let wanted ← if there.isSome && found.last? ['f', 'i', 'n'] == some 'i' then
        isWanted c (ascii "overwrite " ++ Quote.always m.target)
      else pure true
    if !wanted then return false
    else if oldIsDir && !isDir then
      refuse c (ascii "cannot overwrite directory " ++ Quote.always m.target ++
        ascii " with non-directory")
    else if there.isSome && isDir && !oldIsDir then
      refuse c (ascii "cannot overwrite non-directory " ++ Quote.always m.target ++
        ascii " with directory " ++ Quote.always m.source)
    else
      match ← Act.changing (·.rename m.source m.target) with
      | .ok () =>
        tell c found (ascii "renamed ") m " -> "
        return true
      | .error .invalidArgument =>
        refuse c (ascii "cannot move " ++ Quote.always m.source ++
          ascii " to a subdirectory of itself, " ++ Quote.always m.target)
      | .error cause =>
        if there.isSome && (cause matches .notEmpty) then
          refuse c (ascii "cannot overwrite " ++ Quote.always m.target ++ ascii ": " ++
            cause.message)
        else
          refuse c (ascii "cannot move " ++ Quote.always m.source ++ ascii " to " ++
            Quote.always m.target ++ ascii ": " ++ cause.message)

def mv : Tool := fun c => do
  let found ← c.arguments (.usual "bfint:uvTZ" [⟨"force", .nothing, 'f'⟩,
    ⟨"interactive", .nothing, 'i'⟩, ⟨"no-clobber", .nothing, 'n'⟩,
    ⟨"target-directory", .value, 't'⟩, ⟨"no-target-directory", .nothing, 'T'⟩,
    ⟨"update", .maybe, 'u'⟩, ⟨"verbose", .nothing, 'v'⟩])
  forAll (← moves c found) (moveOne c found)

/-! ## Linking -/

/-- What is linked where; a single operand is linked into the working directory. -/
def linkMoves (c : Call) (found : Arguments) : Act (List Move) := do
  match found.value? 't', found.operands with
  | none, [source] =>
    if found.has 'T' then
      c.misuse (ascii "missing destination file operand after " ++ Quote.always source) 1
    else return [⟨source, Path.join Path.dot (lastName source)⟩]
  | none, [source, target] =>
    let isLinkKept := found.has 'n' && ((← inodeOf target false).toOption.any (·.node.isLink))
    if isLinkKept then return [⟨source, target⟩] else moves c found
  | _, _ => moves c found

/-- The path that leads from the directory of a link to a path. -/
def relativePath (fromNames toNames : List Name) : Bytes :=
  let common := ((fromNames.zip toNames).takeWhile fun (a, b) => a == b).length
  let up := List.replicate (fromNames.length - common) Path.dotDot
  let names := up ++ toNames.drop common
  if names.isEmpty then Path.dot else Path.ofNames false names

/-- Two paths end in the same name of the same directory. -/
def isSameName (h : Host) (a b : Bytes) : Bool :=
  lastName a == lastName b &&
    (h.locate (directoryOf a) true).toOption == (h.locate (directoryOf b) true).toOption

/-- What is linked is the file in whose place the link would be put: there is no other name, or
it is the very name. -/
def isSelfLink (h : Host) (soft : Bool) (source : Option InodeNumber) (there : InodeNumber)
    (m : Move) : Bool :=
  let source := if soft then (h.locate m.source true).toOption else source
  source == some there && (h.files.nameCount there == 1 || isSameName h m.source m.target)

def linkOne (c : Call) (found : Arguments) (m : Move) : Act Bool := do
  let h := (← get).host
  let soft := found.has 's'
  let there := (h.locate m.target false).toOption
  let oldIsDir := (there.bind h.files.node?).any Node.isDirectory
  let follow := found.last? ['L', 'P'] == some 'L'
  let source : Except SystemError InodeNumber := h.locate m.source follow
  let kind := ascii (if soft then "symbolic link " else "hard link ")
  let failed (cause : SystemError) : Act Bool :=
    refuse c (ascii "failed to create " ++ kind ++ Quote.always m.target ++
      (if soft || (cause matches .alreadyExists) then []
        else ascii " => " ++ Quote.always m.source) ++
      ascii ": " ++ cause.message)
  match soft, source with
  | false, .error cause =>
    refuse c (ascii "failed to access " ++ Quote.always m.source ++ ascii ": " ++ cause.message)
  | _, _ =>
    let isDir := ((source.toOption).bind h.files.node?).any Node.isDirectory
    if !soft && isDir then
      refuse c (Quote.ifNeeded m.source ++ ascii ": hard link not allowed for directory")
    else
      let replaces := there.isSome && found.has 'f'
      if replaces && oldIsDir then
        refuse c (Quote.ifNeeded m.target ++ ascii ": cannot overwrite directory")
      else if replaces && there.any (isSelfLink h soft source.toOption · m) then
        refuse c (Quote.always m.source ++ ascii " and " ++ Quote.always m.target ++
          ascii " are the same file")
      else
        let target := if found.has 'r' then
            match h.canonical (directoryOf m.target) with
            | .ok dir => relativePath (Path.names dir)
                (Path.names (match h.canonical (directoryOf m.source) with
                  | .ok above => Path.join above (lastName m.source)
                  | .error _ => m.source))
            | .error _ => m.source
          else m.source
        match ← replacing replaces m.target fun h =>
            if soft then h.makeLink m.target target else
              match source with
              | .ok n => do
                if follow then
                  let s ← h.slot m.target
                  match s.last with
                  | .entry name => return h.withFiles (h.files.attach s.dir name n)
                  | _ => .error .alreadyExists
                else h.addName m.source m.target
              | .error cause => .error cause with
        | .ok () =>
          if found.has 'v' then
            c.say (Quote.always m.target ++ ascii (if soft then " -> " else " => ") ++
              Quote.always target ++ [10])
          return true
        | .error cause => failed cause

def ln : Tool := fun c => do
  let found ← c.arguments (.usual "bdfinrst:vLPFST" [⟨"force", .nothing, 'f'⟩,
    ⟨"interactive", .nothing, 'i'⟩, ⟨"logical", .nothing, 'L'⟩, ⟨"physical", .nothing, 'P'⟩,
    ⟨"no-dereference", .nothing, 'n'⟩, ⟨"relative", .nothing, 'r'⟩,
    ⟨"symbolic", .nothing, 's'⟩, ⟨"target-directory", .value, 't'⟩,
    ⟨"no-target-directory", .nothing, 'T'⟩, ⟨"verbose", .nothing, 'v'⟩])
  forAll (← linkMoves c found) (linkOne c found)

/-! ## Removing -/

/-- The cause tells that there is nothing to remove. -/
def isAbsence (cause : SystemError) : Bool :=
  cause matches .notFound | .notDirectory | .invalidArgument

/-- Removes what a path names; directories with what they hold, if that is asked for. -/
def removeTree (c : Call) (found : Arguments) : (fuel : Nat) → (top : Bool) → Bytes → Act Bool
  | 0, _, _ => return false
  | fuel + 1, top, path => do
    let force := found.last? ['f', 'i', 'I'] == some 'f'
    let asks := found.last? ['f', 'i', 'I'] == some 'i'
    let recursive := found.has 'r' || found.has 'R'
    let refused (cause : SystemError) : Act Bool := do
      c.complainOf (ascii "cannot remove " ++ Quote.always path) cause
      return false
    match ← inodeOf path false with
    | .error cause =>
      if force && isAbsence cause then return true else refused cause
    | .ok i =>
      let isDir := i.node.isDirectory
      let name := lastName path
      if isDir && !recursive && !found.has 'd' then refused .isDirectory
      else if isDir && top && (name == Path.dot || name == Path.dotDot) then
        refuse c (ascii "refusing to remove '.' or '..' directory: skipping " ++ Quote.always path)
      else if isDir && top && (Path.names path).isEmpty then
        c.complain (ascii "it is dangerous to operate recursively on '/'")
        refuse c (ascii "use --no-preserve-root to override this failsafe")
      else
        let wanted ← if !asks then pure true
          else isWanted c (ascii (if isDir then "remove directory " else "remove regular file ") ++
            Quote.always path)
        if !wanted then return true
        else if isDir then
          let names ← if recursive then entriesOf path else pure (.ok [])
          match names with
          | .error cause =>
            match ← Act.changing (·.removeDirectory path) with
            | .ok () => return true
            | .error other => if force && isAbsence other then return true else refused cause
          | .ok names =>
            let results ← (Bytes.sort names).mapM fun name =>
              removeTree c found fuel false (Path.join path name)
            if !results.all id then return false
            match ← Act.changing (·.removeDirectory path) with
            | .ok () =>
              if found.has 'v' then
                c.say (ascii "removed directory " ++ Quote.always path ++ [10])
              return true
            | .error cause => if force && isAbsence cause then return true else refused cause
        else
          match ← Act.changing (·.unlink path) with
          | .ok () =>
            if found.has 'v' then c.say (ascii "removed " ++ Quote.always path ++ [10])
            return true
          | .error cause => if force && isAbsence cause then return true else refused cause

def rm : Tool := fun c => do
  let found ← c.arguments (.usual "dfirvIR" [⟨"force", .nothing, 'f'⟩, ⟨"dir", .nothing, 'd'⟩,
    ⟨"interactive", .maybe, 'i'⟩, ⟨"recursive", .nothing, 'r'⟩, ⟨"verbose", .nothing, 'v'⟩,
    ⟨"one-file-system", .nothing, 'x'⟩, ⟨"no-preserve-root", .nothing, 'n'⟩,
    ⟨"preserve-root", .maybe, 'p'⟩])
  if found.operands.isEmpty && !found.has 'f' then c.demandOperand []
  forAll found.operands (removeTree c found treeDepth true)

def unlink : Tool := fun c => do
  let found ← c.arguments (.usual "" [])
  match found.operands with
  | [] => c.misuse (ascii "missing operand") 1
  | [path] =>
    return Call.statusOf
      [← orComplain c (ascii "cannot unlink " ++ Quote.always path) (·.unlink path)]
  | _ :: extra :: _ => c.misuse (ascii "extra operand " ++ Quote.always extra) 1

def link : Tool := fun c => do
  let found ← c.arguments (.usual "" [])
  match found.operands with
  | [source, target] =>
    return Call.statusOf
      [← orComplain c (ascii "cannot create link " ++ Quote.always target ++ ascii " to " ++
        Quote.always source) (·.addName source target)]
  | _ => c.misuse (ascii "missing operand") 1

/-! ## Installing -/

/-- Copies files and gives them permissions. -/
def install : Tool := fun c => do
  let found ← c.arguments (.usual "bcCdDg:m:o:pst:Tv" [⟨"directory", .nothing, 'd'⟩,
    ⟨"mode", .value, 'm'⟩, ⟨"target-directory", .value, 't'⟩,
    ⟨"no-target-directory", .nothing, 'T'⟩, ⟨"verbose", .nothing, 'v'⟩,
    ⟨"preserve-timestamps", .nothing, 'p'⟩])
  let mode ← match found.value? 'm' with
    | some text => modeFrom c text false 0
    | none => pure 0o755
  if found.has 'd' then
    c.demandOperand found.operands
    forAll found.operands fun path => makeAll c (found.has 'v') (some mode) path
  else
    if found.has 'D' then
      let target := (found.value? 't').getD (Path.parent (found.operands.getLastD []))
      let _ ← Act.changing fun h =>
        match h.createDirectories target with
        | (.ok (), h) => .ok h
        | (.error cause, _) => .error cause
    let style : CopyStyle :=
      ⟨false, true, true, false, found.has 'p', false, false, false, false, false⟩
    forAll (← moves c found) fun m => do
      if ← isDirectory m.source then
        refuse c (ascii "omitting directory " ++ Quote.always m.source)
      else
        let h := (← get).host
        if (h.statLink m.target).toBool && (h.locate m.target true).toOption !=
            (h.locate m.source true).toOption then
          let _ ← Act.changing (·.unlink m.target)
        let done ← copy c found style treeDepth [] m
        if done then let _ ← Act.changing (·.setMode m.target mode)
        return done

end WasmPackager.Tools
