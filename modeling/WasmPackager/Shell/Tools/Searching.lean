/-
# `Shell.Tools.Searching` — looking for lines that match

A line is selected if some piece of it matches one of the patterns; what is
shown of the selected lines, and of those around them, is up to the options.
-/
import WasmPackager.Shell.Tools.Columns
import WasmPackager.Shell.Tools.Listing

namespace WasmPackager.Tools.Grep

/-- What is looked for. -/
structure Query where
  patterns : List Regex
  ignoreCase : Bool
  wholeLine : Bool
  wholeWord : Bool
  inverse : Bool

/-- The match ends where words may end and begins where they may begin. -/
def isWordMatch (s : Regex.Subject) (first last : Nat) : Bool :=
  !(0 < first && s.isWordAt (first - 1)) && !s.isWordAt last

/-- The longest match of a pattern at a place that the query accepts. -/
def acceptedAt (q : Query) (s : Regex.Subject) (i : Nat) (r : Regex) : Option Nat :=
  if r.refersBack then
    match r.matchAt? s i with
    | some m =>
      let ok := (!q.wholeLine || (i == 0 && m.last == s.text.size)) &&
        (!q.wholeWord || isWordMatch s i m.last)
      if ok then some m.last else none
    | none => none
  else
    let ends := (r.ends s [i]).filter fun j =>
      (!q.wholeLine || (i == 0 && j == s.text.size)) && (!q.wholeWord || isWordMatch s i j)
    match ends with
    | [] => none
    | j :: others => some (others.foldl max j)

/-- The first match from a place on that the query accepts. -/
def nextMatch (q : Query) (s : Regex.Subject) : (fuel : Nat) → Nat → Option (Nat × Nat)
  | 0, _ => none
  | fuel + 1, i =>
    match q.patterns.filterMap (acceptedAt q s i) with
    | j :: others => some (i, others.foldl max j)
    | [] => if i < s.text.size then nextMatch q s fuel (i + 1) else none

def subject (q : Query) (line : Bytes) : Regex.Subject := ⟨line.toArray, q.ignoreCase, false⟩

def selects (q : Query) (line : Bytes) : Bool :=
  let s := subject q line
  (nextMatch q s (s.text.size + 1) 0).isSome != q.inverse

/-- The pieces of a line that match, none of them empty. -/
def pieces (q : Query) (line : Bytes) : List Bytes :=
  let s := subject q line
  let rec go : (fuel : Nat) → Nat → List Bytes
    | 0, _ => []
    | fuel + 1, i =>
      match nextMatch q s (s.text.size + 1 - i) i with
      | none => []
      | some (a, b) =>
        if a == b then (if a < s.text.size then go fuel (a + 1) else [])
        else (s.text.extract a b).toList :: go fuel b
  go (s.text.size + 1) 0

/-- How the findings are shown. -/
structure Show where
  names : Bool
  numbers : Bool
  offsets : Bool
  onlyPieces : Bool
  count : Bool
  listWith : Bool
  listWithout : Bool
  quiet : Bool
  before : Nat
  after : Nat
  most : Option Nat
  asText : Bool
  mark : UInt8

/-- A line with its number, the place where it begins, and whether it is selected. -/
structure Found where
  line : Bytes
  number : Nat
  offset : Nat
  selected : Bool

/-- The lines of a text, looked at in order until enough are selected. -/
def look (q : Query) (most : Option Nat) (mark : UInt8) (text : Bytes) : List Found :=
  let step (state : List Found × Nat × Nat × Nat) (raw : Bytes) : List Found × Nat × Nat × Nat :=
    let (found, number, offset, selected) := state
    let line := withoutMark mark raw
    let isOver := match most with
      | some n => n ≤ selected
      | none => false
    let hit := !isOver && selects q line
    (⟨line, number, offset, hit⟩ :: found, number + 1, offset + raw.length,
      if hit then selected + 1 else selected)
  ((linesOf mark text).foldl step ([], 1, 0, 0)).1.reverse

/-- The lines that are shown: the selected ones and those close to them. -/
def shownLines (s : Show) (found : List Found) : List Found :=
  if s.before == 0 && s.after == 0 then found.filter (·.selected)
  else
    let places := (found.filter (·.selected)).map Found.number
    let last := match s.most with
      | some _ => places.getLastD 0 + s.after
      | none => found.length
    found.filter fun f => f.number ≤ last && places.any fun n =>
      f.number ≤ n + s.after && n ≤ f.number + s.before

def frontOf (s : Show) (name : Bytes) (f : Found) (offset : Nat) : Bytes :=
  let mark : UInt8 := if f.selected then 58 else 45
  (if s.names then name ++ [mark] else []) ++
    (if s.numbers then Bytes.ofNat f.number ++ [mark] else []) ++
    (if s.offsets then Bytes.ofNat offset ++ [mark] else [])

/-- The text that tells what was found in a file; `started` tells that something was told before. -/
def report (q : Query) (s : Show) (name : Bytes) (binary started : Bool) (found : List Found) :
    Bytes :=
  let count := (found.filter (·.selected)).length
  if s.quiet then []
  else if s.listWith then (if 0 < count then name ++ [10] else [])
  else if s.listWithout then (if count == 0 then name ++ [10] else [])
  else if s.count then
    (if s.names then name ++ [58] else []) ++ Bytes.ofNat count ++ [10]
  else if binary && !s.asText then
    if 0 < count then ascii "Binary file " ++ name ++ ascii " matches\n" else []
  else
    let shown := shownLines s found
    let withContext := s.before != 0 || s.after != 0
    let (texts, _) := shown.foldl (fun (texts, previous) f =>
      let gap := withContext && (match previous with
        | some n => n + 1 < f.number
        | none => started)
      let body :=
        if s.onlyPieces then
          if f.selected && !q.inverse then
            (pieces q f.line).flatMap fun piece => frontOf s name f f.offset ++ piece ++ [10]
          else []
        else frontOf s name f f.offset ++ f.line ++ [s.mark]
      (((if gap then ascii "--\n" else []) ++ body) :: texts, some f.number))
      (([] : List Bytes), (none : Option Nat))
    texts.reverse.flatten

/-- The patterns that options give, one in every line. -/
def patternsOf (c : Call) (found : Arguments) : Act (Option (List Bytes) × List Bytes) := do
  let fromFiles ← (found.values 'f').mapM fun path => do
    match ← Call.input path with
    | .ok bytes => return plainLines bytes
    | .error cause =>
      c.complainOf (Quote.ifNeeded path) cause
      Act.exit 2
  let given := (found.values 'e').flatMap (Bytes.splitOn 10)
  if found.has 'e' || found.has 'f' then return (some (given ++ fromFiles.flatten), found.operands)
  else
    match found.operands with
    | pattern :: rest => return (some (Bytes.splitOn 10 pattern), rest)
    | [] => return (none, [])

/-- The name of a file has one of some forms. -/
def hasOneForm (forms : List Bytes) (name : Bytes) : Bool :=
  forms.any fun form => (Shell.Pattern.ofLetters (form.map (false, ·))).accepts name

def filesBelow (m : Machine) (found : Arguments) (path : Bytes) : List Bytes :=
  match m.host.locate path true with
  | .error _ => [path]
  | .ok n =>
    let rec go : (fuel : Nat) → Bytes → InodeNumber → List Bytes
      | 0, _, _ => []
      | fuel + 1, path, n =>
        match m.files.node? n with
        | some (.dir _ entries _) =>
          entries.flatMap fun (name, child) =>
            if hasOneForm (found.values '>') name &&
              (m.files.node? child).any Node.isDirectory then []
            else go fuel (Path.join path name) child
        | some (.file _) =>
          let name := lastNameOf path
          let wanted := ((found.values '+').isEmpty || hasOneForm (found.values '+') name) &&
            !hasOneForm (found.values '-') name
          if wanted then [path] else []
        | some (.link _) => if found.has 'R' then [path] else []
        | _ => []
    go (m.files.inodes.size + 1) path n
where
  /-- The last name of a path. -/
  lastNameOf (path : Bytes) : Bytes := (Path.names path).getLastD []

def spec : Spec :=
  ⟨"EFGPe:f:ivwxyzcLlm:oqsbHhnTaIA:B:C:rRU", [⟨"extended-regexp", .nothing, 'E'⟩,
    ⟨"fixed-strings", .nothing, 'F'⟩, ⟨"basic-regexp", .nothing, 'G'⟩,
    ⟨"perl-regexp", .nothing, 'P'⟩, ⟨"regexp", .value, 'e'⟩, ⟨"file", .value, 'f'⟩,
    ⟨"ignore-case", .nothing, 'i'⟩, ⟨"no-ignore-case", .nothing, '~'⟩,
    ⟨"invert-match", .nothing, 'v'⟩, ⟨"word-regexp", .nothing, 'w'⟩,
    ⟨"line-regexp", .nothing, 'x'⟩, ⟨"count", .nothing, 'c'⟩,
    ⟨"color", .maybe, '='⟩, ⟨"colour", .maybe, '='⟩, ⟨"files-without-match", .nothing, 'L'⟩,
    ⟨"files-with-matches", .nothing, 'l'⟩, ⟨"max-count", .value, 'm'⟩,
    ⟨"only-matching", .nothing, 'o'⟩, ⟨"quiet", .nothing, 'q'⟩, ⟨"silent", .nothing, 'q'⟩,
    ⟨"no-messages", .nothing, 's'⟩, ⟨"byte-offset", .nothing, 'b'⟩,
    ⟨"with-filename", .nothing, 'H'⟩, ⟨"no-filename", .nothing, 'h'⟩,
    ⟨"line-number", .nothing, 'n'⟩, ⟨"text", .nothing, 'a'⟩, ⟨"after-context", .value, 'A'⟩,
    ⟨"before-context", .value, 'B'⟩, ⟨"context", .value, 'C'⟩, ⟨"recursive", .nothing, 'r'⟩,
    ⟨"dereference-recursive", .nothing, 'R'⟩, ⟨"include", .value, '+'⟩,
    ⟨"exclude", .value, '-'⟩, ⟨"exclude-dir", .value, '>'⟩, ⟨"null-data", .nothing, 'z'⟩],
    false, 2⟩

/-- The program's help for those who call it wrongly. -/
def usage {α : Type} (c : Call) : Act α := do
  let _ ← Act.write Machine.complaints
    (ascii "Usage: " ++ c.name ++ ascii " [OPTION]... PATTERNS [FILE]...\n")
  c.tryHelp 2

/-- The numeric options for context written as options of their own. -/
def spelled (args : List Bytes) : List Bytes :=
  args.flatMap fun a =>
    match a with
    | 45 :: digits => if (Bytes.toNat? digits).isSome then [ascii "-C", digits] else [a]
    | a => [a]

/-- Looks for lines that match; `extended` and `fixed` tell how patterns are written if no option
does. -/
def run (extended fixed : Bool) : Tool := fun c => do
  let found ← { c with args := spelled c.args }.arguments spec
  let (given, operands) ← patternsOf c found
  match given with
  | none => usage c
  | some texts =>
    let fixed := match found.last? ['E', 'F', 'G', 'P'] with
      | some letter => letter == 'F'
      | none => fixed
    let extended := match found.last? ['E', 'F', 'G', 'P'] with
      | some letter => letter == 'E' || letter == 'P'
      | none => extended
    let patterns ← texts.mapM fun text => do
      if fixed then return Regex.ofBytes text
      else
        match Regex.ofText ⟨extended, false⟩ text with
        | .ok r => return r
        | .error problem => c.abort problem.message 2
    let q : Query := ⟨patterns, found.has 'i' || found.has 'y', found.has 'x', found.has 'w',
      found.has 'v'⟩
    let recursive := found.has 'r' || found.has 'R'
    let number (letter : Char) : Act (Option Nat) := do
      match found.value? letter with
      | none => return none
      | some text =>
        match Bytes.toNat? text with
        | some n => return some n
        | none =>
          c.abort (if letter == 'm' then ascii "invalid max count"
            else text ++ ascii ": invalid context length argument") 2
    let around := (← number 'C').getD 0
    let before := (← number 'B').getD around
    let after := (← number 'A').getD around
    let most ← number 'm'
    let m ← get
    let files := if operands.isEmpty then (if recursive then [Path.dot] else [[45]]) else operands
    let many :=
      files.length > 1 || (recursive && (operands.isEmpty || files.any m.host.isDirectory))
    let names := match found.last? ['H', 'h'] with
      | some 'H' => true
      | some _ => false
      | none => many
    let mark : UInt8 := if found.has 'z' then 0 else 10
    let shown : Show := ⟨names, found.has 'n', found.has 'b', found.has 'o', found.has 'c',
      found.has 'l', found.has 'L', found.has 'q', before, after, most, found.has 'a', mark⟩
    let files := if recursive then files.flatMap fun path =>
        if path != [45] && m.host.isDirectory path then
          (filesBelow m found path).map fun p =>
            if operands.isEmpty then p.drop 2 else p
        else [path]
      else files
    let one (seen : Bool × Bool × Bool) (path : Bytes) : Act (Bool × Bool × Bool) := do
      let (hit, failed, started) := seen
      if shown.quiet && hit then return seen
      else
        let name := if path == [45] then ascii "(standard input)" else path
        match ← Call.input path with
        | .error cause =>
          if !found.has 's' then
            c.complain (path ++ ascii ": " ++ cause.message)
          return (hit, true, started)
        | .ok bytes =>
          let lines := look q most mark bytes
          let binary := mark == 10 && bytes.contains 0
          let text := report q shown name binary started lines
          let text := if binary && !shown.asText && !text.isEmpty && !shown.quiet && !shown.count &&
              !shown.listWith && !shown.listWithout
            then c.name ++ ascii ": " ++ name ++ ascii ": binary file matches\n" else text
          c.say text
          let any := lines.any (·.selected)
          let any := if shown.listWithout then !any else any
          return (hit || any, failed, started || !text.isEmpty)
    let (hit, failed, _) ← files.foldlM one (false, false, false)
    return if failed && !(shown.quiet && hit) then 2 else if hit then 0 else 1

def grep : Tool := run false false

/-- Looks for lines that match patterns with plain operators. -/
def egrep : Tool := run true false

/-- Looks for lines that have texts in them. -/
def fgrep : Tool := run false true

end WasmPackager.Tools.Grep
