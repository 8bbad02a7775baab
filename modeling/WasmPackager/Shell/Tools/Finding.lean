/-
# `Shell.Tools.Finding` — searching a tree for files

A search goes down from each of some paths and asks a question about every
file.  The question is put together of criteria; some of them do something when
they are asked, and whether the next one is asked depends on the answer.
-/
import WasmPackager.Shell.Tools.Listing
import WasmPackager.Shell.Text.Regex

namespace WasmPackager.Tools.Find

/-- How a number is compared. -/
inductive Bound
  | exactly (n : Nat)
  | moreThan (n : Nat)
  | lessThan (n : Nat)

def Bound.holds (n : Nat) : Bound → Bool
  | exactly m => n == m
  | moreThan m => m < n
  | lessThan m => n < m

/-- A question about a file. -/
inductive Question
  | always (holds : Bool)
  /-- The last name, or the whole path, has a form. -/
  | named (whole ignoreCase : Bool) (form : Bytes)
  | kind (letters : Bytes)
  | empty
  | newer (time : Nat)
  | older (days : Bool) (age : Bound)
  | size (unit : Nat) (bound : Bound)
  | links (bound : Bound)
  | granted (access : Access)
  | mode (all any : Bool) (bits : Nat)
  | sameAs (n : InodeNumber)
  | print (mark : UInt8)
  | printf (format : Bytes)
  | delete
  /-- Runs a program, for each file or once for all of them. -/
  | run (argv : List Bytes) (together within : Bool)
  | prune
  | quit
  | negation (q : Question)
  | conjunction (a b : Question)
  | disjunction (a b : Question)
  | inOrder (a b : Question)

def Question.acts : Question → Bool
  | print _ | printf _ | delete | run .. => true
  | negation q => acts q
  | conjunction a b | disjunction a b | inOrder a b => acts a || acts b
  | _ => false

/-- The question removes what it is asked about. -/
def Question.deletes : Question → Bool
  | delete => true
  | negation q => deletes q
  | conjunction a b | disjunction a b | inOrder a b => deletes a || deletes b
  | _ => false

/-- How far a search goes. -/
structure Scope where
  least : Nat
  most : Option Nat
  /-- A directory is asked about behind what it holds. -/
  depthFirst : Bool
  follow : Bool

/-! ## Reading the question -/

/-- The bound that a text denotes, with a unit behind the number. -/
def boundOf? (text : Bytes) : Option (Bound × Bytes) :=
  let (make, rest) : (Nat → Bound) × Bytes := match text with
    | 43 :: rest => (.moreThan, rest)
    | 45 :: rest => (.lessThan, rest)
    | rest => (.exactly, rest)
  let digits := rest.takeWhile fun b => 48 ≤ b && b ≤ 57
  (Bytes.toNat? digits).map fun n => (make n, rest.drop digits.length)

def unitOf (letters : Bytes) : Nat :=
  if letters == ascii "c" then 1
  else if letters == ascii "w" then 2
  else if letters == ascii "k" then 1024
  else if letters == ascii "M" then 1024 * 1024
  else if letters == ascii "G" then 1024 * 1024 * 1024
  else 512

def simpleNames : List (Bytes × Question) :=
  [("-true", .always true), ("-false", .always false), ("-empty", .empty), ("-print", .print 10),
   ("-print0", .print 0), ("-delete", .delete), ("-prune", .prune), ("-quit", .quit),
   ("-readable", .granted .read), ("-writable", .granted .write),
   ("-executable", .granted .execute), ("-depth", .always true), ("-xdev", .always true),
   ("-mount", .always true), ("-noleaf", .always true)].map fun (name, q) => (ascii name, q)

/-- The criteria that are followed by a value. -/
def valuedNames : List Bytes :=
  ["-name", "-iname", "-path", "-wholename", "-ipath", "-type", "-newer", "-size", "-links",
   "-perm", "-samefile", "-printf", "-maxdepth", "-mindepth", "-mtime", "-mmin", "-inum",
   "-user", "-group"].map ascii

/-- The criterion of a name with a value. -/
def valued (c : Call) (name value : Bytes) : Act Question := do
  let wrong {α : Type} : Act α :=
    c.abort (ascii "invalid argument " ++ Quote.always value ++ ascii " to " ++
      Quote.always name) 1
  let reference : Act (InodeNumber × Inode) := do
    let h := (← get).host
    match h.locate value true with
    | .ok n =>
      match h.inodeAt n with
      | .ok i => return (n, i)
      | .error cause => c.abort (Quote.always value ++ ascii ": " ++ cause.message) 1
    | .error cause => c.abort (Quote.always value ++ ascii ": " ++ cause.message) 1
  let text := name.drop 1
  if text == ascii "name" then return .named false false value
  else if text == ascii "iname" then return .named false true value
  else if text == ascii "path" || text == ascii "wholename" then return .named true false value
  else if text == ascii "ipath" then return .named true true value
  else if text == ascii "type" then
    if value.all fun b => (ascii "fdlpcbs,").contains b then return .kind value
    else c.abort (ascii "Unknown argument to -type: " ++ value) 1
  else if text == ascii "newer" then return .newer (← reference).2.modified
  else if text == ascii "samefile" then return .sameAs (← reference).1
  else if text == ascii "printf" then return .printf value
  else if text == ascii "perm" then
    let (all, any, mode) := match value with
      | 45 :: rest => (true, false, rest)
      | 47 :: rest => (false, true, rest)
      | rest => (false, false, rest)
    match modeChanges? mode with
    | some changes => return .mode all any (Permissions.apply changes false 0 0)
    | none => c.abort (ascii "invalid mode " ++ Quote.always value) 1
  else if text == ascii "maxdepth" || text == ascii "mindepth" || text == ascii "user" ||
      text == ascii "group" then return .always true
  else
    match boundOf? value with
    | none => wrong
    | some (bound, unit) =>
      if text == ascii "size" then return .size (unitOf unit) bound
      else if text == ascii "links" then return .links bound
      else if text == ascii "mtime" then return .older true bound
      else if text == ascii "mmin" then return .older false bound
      else return .always true

/-- The words of a program up to the one that ends them, and whether it is run once for all. -/
def programWords : (reversed : List Bytes) → List Bytes → Option (List Bytes × Bool × List Bytes)
  | _, [] => none
  | reversed, word :: rest =>
    if word == [59] then some (reversed.reverse, false, rest)
    else if word == [43] && reversed.head? == some (ascii r"{}") then
      some ((reversed.drop 1).reverse, true, rest)
    else programWords (word :: reversed) rest

/-- What the recursion reads. -/
inductive Stage
  | inOrder
  | disjunction
  | conjunction
  | primary

def read (c : Call) : (fuel : Nat) → Stage → List Bytes → Act (Question × List Bytes)
  | 0, _, _ => c.abort (ascii "the expression is too long") 1
  | fuel + 1, .inOrder, words => do
    let (a, words) ← read c fuel .disjunction words
    match words with
    | [44] :: rest =>
      let (b, rest) ← read c fuel .inOrder rest
      return (.inOrder a b, rest)
    | words => return (a, words)
  | fuel + 1, .disjunction, words => do
    let (a, words) ← read c fuel .conjunction words
    match words with
    | word :: rest =>
      if word == ascii "-o" || word == ascii "-or" then
        let (b, rest) ← read c fuel .disjunction rest
        return (.disjunction a b, rest)
      else return (a, words)
    | [] => return (a, [])
  | fuel + 1, .conjunction, words => do
    let (a, words) ← read c fuel .primary words
    match words with
    | [] => return (a, [])
    | word :: rest =>
      if word == ascii "-o" || word == ascii "-or" || word == [41] || word == [44] then
        return (a, words)
      else
        let rest := if word == ascii "-a" || word == ascii "-and" then rest else words
        let (b, rest) ← read c fuel .conjunction rest
        return (.conjunction a b, rest)
  | fuel + 1, .primary, words => do
    match words with
    | [] => c.abort (ascii "expected an expression after the operator") 1
    | word :: rest =>
      if word == [33] || word == ascii "-not" then
        let (a, rest) ← read c fuel .primary rest
        return (.negation a, rest)
      else if word == [40] then
        let (a, rest) ← read c fuel .inOrder rest
        match rest with
        | [41] :: rest => return (a, rest)
        | _ =>
          c.abort (ascii "invalid expression; I was expecting to find a ')' " ++
            ascii "somewhere but did not see one.") 1
      else if let some q := simpleNames.lookup word then return (q, rest)
      else if valuedNames.contains word then
        match rest with
        | value :: rest => return (← valued c word value, rest)
        | [] => c.abort (ascii "missing argument to \x60" ++ word ++ [39]) 1
      else if word == ascii "-exec" || word == ascii "-execdir" || word == ascii "-ok" then
        match programWords [] rest with
        | some (argv, together, rest) =>
          return (.run argv together (word == ascii "-execdir"), rest)
        | none => c.abort (ascii "missing argument to \x60" ++ word ++ [39]) 1
      else if word.head? == some 45 then
        c.abort (ascii "unknown predicate \x60" ++ word ++ [39]) 1
      else c.abort (ascii "paths must precede expression: \x60" ++ word ++ [39]) 1

/-! ## Answering -/

/-- A file that was met. -/
structure Met where
  path : Bytes
  /-- The path the search began at. -/
  start : Bytes
  depth : Nat
  number : InodeNumber
  inode : Inode

/-- What a search has found out. -/
structure Progress where
  ok : Bool
  /-- Nothing more is asked. -/
  finished : Bool
  /-- The directory at hand is not gone into. -/
  pruned : Bool
  /-- The files that programs are to be run for at the end, with the programs. -/
  pending : List (List Bytes × List Bytes)

def hasForm (form : Bytes) (ignoreCase : Bool) (text : Bytes) : Bool :=
  let lower (s : Bytes) : Bytes := if ignoreCase then s.map Regex.small else s
  let rec negated : Bytes → Bytes
    | 91 :: 94 :: rest => 91 :: 33 :: negated rest
    | b :: rest => b :: negated rest
    | [] => []
  (Shell.Pattern.ofLetters ((negated (lower form)).map (false, ·))).accepts (lower text)

def formatted (m : Machine) (file : Met) (format : Bytes) : Bytes :=
  let field (letter : UInt8) : Bytes :=
    if letter == 112 then file.path
    else if letter == 102 then finalName file.path
    else if letter == 104 then directoryPart file.path
    else if letter == 80 then (file.path.drop file.start.length).dropWhile (· == Path.slash)
    else if letter == 72 then file.start
    else if letter == 100 then Bytes.ofNat file.depth
    else if letter == 109 then Permissions.octal 1 file.inode.mode
    else if letter == 77 then kindLetter file.inode.node :: Permissions.columns file.inode.mode
    else if letter == 121 then
      match file.inode.node with
      | .file _ => [102]
      | node => [kindLetter node]
    else if letter == 108 then
      match file.inode.node with
      | .link target => target
      | _ => []
    else statField m.files file.path file.number file.inode letter
  statText field (Escape.expand true format).1

def answer (c : Call) (file : Met) : Question → Progress → Act (Bool × Progress)
  | .always holds, p => return (holds, p)
  | .named whole ignoreCase form, p =>
    return (hasForm form ignoreCase (if whole then file.path else finalName file.path), p)
  | .kind letters, p =>
    let own : UInt8 := match file.inode.node with
      | .file _ => 102
      | node => kindLetter node
    return (letters.contains own, p)
  | .empty, p =>
    return (match file.inode.node with
      | .file contents => contents.size == 0
      | .dir _ entries _ => entries.isEmpty
      | _ => false, p)
  | .newer time, p => return (time < file.inode.modified, p)
  | .older days bound, p => do
    let age := ((← get).files.clock - file.inode.modified) / Machine.second
    return (bound.holds (age / if days then 86400 else 60), p)
  | .size unit bound, p =>
    return (bound.holds ((sizeOf file.inode.node + unit - 1) / unit), p)
  | .links bound, p => do return (bound.holds ((← get).files.nameCount file.number), p)
  | .granted access, p => do
    let i := (← get).host.stat file.path
    return (i.toOption.any (·.allows access), p)
  | .mode all any bits, p =>
    let common := file.inode.mode &&& bits
    return (if all then common == bits else if any then bits == 0 || common != 0
      else file.inode.mode == bits, p)
  | .sameAs n, p => return (file.number == n, p)
  | .print mark, p => do
    c.say (file.path ++ [mark])
    return (true, p)
  | .printf format, p => do
    c.say (formatted (← get) file format)
    return (true, p)
  | .delete, p => do
    if file.path == Path.dot then return (true, p)
    else
      match ← Act.changing (·.remove file.path) with
      | .ok () => return (true, p)
      | .error cause =>
        c.complainOf (ascii "cannot delete " ++ Quote.always file.path) cause
        return (false, { p with ok := false })
  | .run argv together within, p => do
    if together then
      let pending := if p.pending.any (·.1 == argv) then
          p.pending.map fun (a, files) =>
            if a == argv then (a, files ++ [file.path]) else (a, files)
        else p.pending ++ [(argv, [file.path])]
      return (true, { p with pending })
    else
      let name := if within then Path.join Path.dot (finalName file.path) else file.path
      let token := ascii r"{}"
      let words := argv.map fun a => replaceAll token name (a.length + 1) a
      let dir := directoryPart file.path
      let prepare (m : Machine) : Machine :=
        if within then
          match m.host.enter dir with
          | .ok h => m.withHost h
          | .error _ => m
        else m
      match ← c.runChild words prepare with
      | .ok (.exited 0) => return (true, p)
      | .ok _ => return (false, p)
      | .error cause =>
        c.complainOf (Quote.always (words.headD [])) cause
        return (false, p)
  | .prune, p => return (true, { p with pruned := true })
  | .quit, p => return (true, { p with finished := true })
  | .negation q, p => do
    let (holds, p) ← answer c file q p
    return (!holds, p)
  | .conjunction a b, p => do
    let (holds, p) ← answer c file a p
    if holds && !p.finished then answer c file b p else return (holds && p.finished, p)
  | .disjunction a b, p => do
    let (holds, p) ← answer c file a p
    if holds || p.finished then return (holds, p) else answer c file b p
  | .inOrder a b, p => do
    let (_, p) ← answer c file a p
    if p.finished then return (true, p) else answer c file b p

/-- Goes through a file and what is below it. -/
def visit (c : Call) (scope : Scope) (q : Question) (start : Bytes) : (fuel : Nat) →
    (depth : Nat) → (path : Bytes) → Progress → Act Progress
  | 0, _, _, p => return p
  | fuel + 1, depth, path, p => do
    if p.finished then return p
    else
      let h := (← get).host
      let located := match h.locate path scope.follow with
        | .ok n => Except.ok n
        | .error cause => if scope.follow then h.locate path false else .error cause
      match located with
      | .error cause =>
        c.complainOf (Quote.always path) cause
        return { p with ok := false }
      | .ok n =>
        match h.files.inode? n with
        | none => return p
        | some i =>
          let file : Met := ⟨path, start, depth, n, i⟩
          let asked (p : Progress) : Act Progress := do
            if depth < scope.least || p.finished then return p
            else return (← answer c file q p).2
          let below (p : Progress) : Act Progress := do
            let deeper := match scope.most with
              | some most => depth < most
              | none => true
            if !i.node.isDirectory || !deeper || p.finished then return p
            else
              match h.list path with
              | .error cause =>
                c.complainOf (Quote.always path) cause
                return { p with ok := false }
              | .ok names =>
                names.foldlM (fun p name =>
                  visit c scope q start fuel (depth + 1) (Path.join path name) p) p
          if scope.depthFirst then asked (← below p)
          else
            let p ← asked { p with pruned := false }
            if p.pruned then return { p with pruned := false } else below p

/-- Runs the programs that are run once for all files. -/
def finish (c : Call) (p : Progress) : Act UInt8 := do
  let results ← p.pending.mapM fun (argv, files) => do
    match ← c.runChild (argv ++ files) id with
    | .ok (.exited 0) => return true
    | .ok _ => return false
    | .error cause =>
      c.complainOf (Quote.always (argv.headD [])) cause
      return false
  return if p.ok && results.all id then 0 else 1

def limitOf (name : String) (words : List Bytes) : Option Nat :=
  match words.dropWhile (· != ascii name) with
  | _ :: value :: _ => Bytes.toNat? value
  | _ => none

def find : Tool := fun c => do
  let leading := c.args.takeWhile fun a => a == ascii "-L" || a == ascii "-H" || a == ascii "-P"
  let args := c.args.drop leading.length
  let paths := args.takeWhile fun a =>
    !(a.head? == some 45 && a.length > 1) && a != [33] && a != [40]
  let words := args.drop paths.length
  let q ← if words.isEmpty then pure (Question.always true) else do
    let (q, rest) ← read c (8 * words.length + 16) .inOrder words
    match rest with
    | [] => pure q
    | word :: _ =>
      if word == [41] then
        c.abort (ascii "invalid expression; you have too many ')'") 1
      else c.abort (ascii "paths must precede expression: \x60" ++ word ++ [39]) 1
  let q := if q.acts then q else .conjunction q (.print 10)
  let scope : Scope :=
    ⟨(limitOf "-mindepth" words).getD 0, limitOf "-maxdepth" words,
      q.deletes || words.contains (ascii "-depth"), leading.contains (ascii "-L")⟩
  let paths := if paths.isEmpty then [Path.dot] else paths
  let p ← paths.foldlM (fun p path => visit c scope q path 1000 0 path p) ⟨true, false, false, []⟩
  finish c p

end WasmPackager.Tools.Find
