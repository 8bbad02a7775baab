/-
# `Shell.Tools.Reading` — programs that pass on what they read

Whole files, their beginnings and ends, their sizes, and the first place where
two of them differ.
-/
import WasmPackager.Shell.Tools.Making
import WasmPackager.Shell.Text.Decimal

namespace WasmPackager.Tools

/-! ## Reading operands -/

/-- The operands of a program that reads what it is given where there are none. -/
def orInput (operands : List Bytes) : List Bytes := if operands.isEmpty then [[45]] else operands

/-- Does something with the bytes of an operand; complains if they cannot be read. -/
def withInput (c : Call) (operand : Bytes) (body : Bytes → Act Bool) : Act Bool := do
  match ← Call.input operand with
  | .ok bytes => body bytes
  | .error cause =>
    c.complainOf (Quote.ifNeeded operand) cause
    return false

/-- Does something with the bytes of an operand, with the complaints of a program that tells
opening from reading. -/
def withOpened (c : Call) (operand : Bytes) (body : Bytes → Act Bool) : Act Bool := do
  match ← Call.input operand with
  | .ok bytes => body bytes
  | .error .isDirectory =>
    c.complainOf (ascii "error reading " ++ Quote.always operand) .isDirectory
    return false
  | .error cause =>
    c.complainOf (ascii "cannot open " ++ Quote.always operand ++ ascii " for reading") cause
    return false

/-! ## cat -/

/-- How files are shown. -/
structure CatStyle where
  numberAll : Bool
  numberFull : Bool
  squeeze : Bool
  ends : Bool
  tabs : Bool
  visible : Bool

def visibleByte (style : CatStyle) (b : UInt8) : Bytes :=
  if b == 9 then (if style.tabs then ascii "^I" else [9])
  else if b == 10 || !style.visible then [b]
  else
    let low (b : UInt8) : Bytes :=
      if b < 32 then [94, b + 64] else if b == 127 then ascii "^?" else [b]
    if b < 128 then low b else ascii "M-" ++ low (b - 128)

def lineNumber (n : Nat) : Bytes :=
  let digits := Bytes.ofNat n
  List.replicate (6 - digits.length) 32 ++ digits ++ [9]

/-- The lines as they are shown; `number` is that of the line before, and `blanks` counts the empty
lines just before. -/
def shownLines (style : CatStyle) : (number blanks : Nat) → List Bytes → List Bytes
  | _, _, [] => []
  | number, blanks, line :: rest =>
    let isBlank := line == [10]
    if style.squeeze && isBlank && 0 < blanks then shownLines style number (blanks + 1) rest
    else
      let numbered := if style.numberFull then !isBlank else style.numberAll
      let number := if numbered then number + 1 else number
      let ended := line.getLast? == some 10
      let text := (if ended then line.dropLast else line).flatMap (visibleByte style)
      let shown := (if numbered then lineNumber number else []) ++ text ++
        (if ended then (if style.ends then [36, 10] else [10]) else [])
      shown :: shownLines style number (if isBlank then blanks + 1 else 0) rest

/-- The file that a program writes its results to, and where it writes next. -/
def outputPlace (m : Machine) : Option (InodeNumber × Nat) := do
  let file ← m.openFile? Machine.output
  match m.files.node? file.inode with
  | some (.file contents) =>
    some (file.inode, if file.appends then contents.size else file.position)
  | _ => none

/-- Copies what it reads to what it writes. -/
def cat : Tool := fun c => do
  let found ← c.arguments (.usual "AbeEnstTuv" [⟨"show-all", .nothing, 'A'⟩,
    ⟨"number-nonblank", .nothing, 'b'⟩, ⟨"show-ends", .nothing, 'E'⟩, ⟨"number", .nothing, 'n'⟩,
    ⟨"squeeze-blank", .nothing, 's'⟩, ⟨"show-tabs", .nothing, 'T'⟩,
    ⟨"show-nonprinting", .nothing, 'v'⟩])
  let has (letters : List Char) : Bool := letters.any found.has
  let style : CatStyle :=
    ⟨has ['n'], has ['b'], has ['s'], has ['A', 'e', 'E'], has ['A', 't', 'T'],
    has ['A', 'e', 't', 'v']⟩
  let plain := !(has ['n', 'b', 's', 'A', 'e', 'E', 't', 'T', 'v'])
  let readOne (operand : Bytes) : Act (Option Bytes) := do
    let m ← get
    let inode? := if operand == [45] then (m.openFile? Machine.input).map OpenFile.inode
      else (m.host.locate operand true).toOption
    let start := if operand == [45] then ((m.openFile? Machine.input).map OpenFile.position).getD 0
      else 0
    let itself := match outputPlace m with
      | some (n, position) => inode? == some n && start < position
      | none => false
    if itself then
      c.complain (Quote.ifNeeded operand ++ ascii ": input file is output file")
      return none
    else
      match ← Call.input operand with
      | .ok bytes =>
        if plain then c.say bytes
        return some bytes
      | .error cause =>
        c.complainOf (Quote.ifNeeded operand) cause
        return none
  if ((← get).openFile? Machine.output).isNone then
    c.complainOf (ascii "standard output") .badDescriptor
    Act.exit 1
  let results ← (orInput found.operands).mapM readOne
  if !plain then
    let all := (results.filterMap id).flatten
    c.say (shownLines style 0 0 (linesOf 10 all)).flatten
  return Call.statusOf (results.map Option.isSome)

/-! ## head and tail -/

/-- How much of a file is wanted. -/
structure Portion where
  inLines : Bool
  /-- Counted from the other end. -/
  inverse : Bool
  amount : Nat
  mark : UInt8

/-- How many bytes a portion has from the beginning. -/
def Portion.headLength (p : Portion) (text : Bytes) : Nat :=
  if p.inLines then
    let lines := linesOf p.mark text
    let lines := if p.inverse then lines.take (lines.length - p.amount) else lines.take p.amount
    total (lines.map List.length)
  else if p.inverse then text.length - p.amount
  else min p.amount text.length

def Portion.tail (p : Portion) (text : Bytes) : Bytes :=
  if p.inLines then
    let lines := linesOf p.mark text
    (if p.inverse then lines.drop (p.amount - 1) else lines.drop (lines.length - p.amount)).flatten
  else if p.inverse then text.drop (p.amount - 1)
  else text.drop (text.length - p.amount)

def amountOf (c : Call) (inLines : Bool) (sign : UInt8) (text : Bytes) : Act (Bool × Nat) := do
  let (inverse, digits) : Bool × Bytes := match text with
    | b :: rest => if b == sign then (true, rest) else if b == 43 || b == 45 then (false, rest)
      else (false, text)
    | [] => (false, [])
  match sizeOf? digits with
  | some n => return (inverse, n)
  | none =>
    c.abort (ascii (if inLines then "invalid number of lines: " else "invalid number of bytes: ") ++
      Quote.always text) 1

def portionSpec : Spec :=
  .usual "c:n:qvzfFs:" [⟨"bytes", .value, 'c'⟩, ⟨"lines", .value, 'n'⟩, ⟨"quiet", .nothing, 'q'⟩,
    ⟨"silent", .nothing, 'q'⟩, ⟨"verbose", .nothing, 'v'⟩, ⟨"zero-terminated", .nothing, 'z'⟩,
    ⟨"follow", .maybe, 'f'⟩, ⟨"retry", .nothing, 'F'⟩, ⟨"pid", .value, 'p'⟩]

/-- The arguments with a number for the lines as an option of its own. -/
def spelledOut (plus : Bool) (args : List Bytes) : List Bytes :=
  match args with
  | (45 :: d :: rest) :: others =>
    if 48 ≤ d && d ≤ 57 then
      let digits := (d :: rest).takeWhile fun b => 48 ≤ b && b ≤ 57
      let letters := (d :: rest).drop digits.length
      let inBytes := letters.contains 99
      let flags := letters.filter fun b => (ascii "qvz").contains b
      [ascii (if inBytes then "-c" else "-n"), digits] ++
        (if flags.isEmpty then [] else [45 :: flags]) ++ others
    else args
  | (43 :: d :: rest) :: others =>
    if plus && 48 ≤ d && d ≤ 57 then [ascii "-n", 43 :: d :: rest] ++ others else args
  | args => args

def portionOf (c : Call) (found : Arguments) (sign : UInt8) : Act Portion := do
  let mark : UInt8 := if found.has 'z' then 0 else 10
  let last := (found.options.filter fun o => o.letter == 'n' || o.letter == 'c').getLast?
  match last with
  | some o =>
    let inLines := o.letter == 'n'
    let (inverse, amount) ← amountOf c inLines sign (o.value.getD [])
    return ⟨inLines, inverse, amount, mark⟩
  | none => return ⟨true, false, 10, mark⟩

/-- Shows a part of each operand, with headings where there are several. -/
def showPortions (c : Call) (found : Arguments) (part : Bytes → Act Bool) : Act UInt8 := do
  let operands := orInput found.operands
  let headed := match found.last? ['q', 'v'] with
    | some 'v' => true
    | some _ => false
    | none => operands.length > 1
  let one (seen : Bool × List Bool) (operand : Bytes) : Act (Bool × List Bool) := do
    let heading := (if seen.1 then [] else [10]) ++ ascii "==> " ++
      (if operand == [45] then ascii "standard input" else operand) ++ ascii " <==\n"
    let opens ← if operand == [45] then pure true else do
      let m ← get
      pure (match m.openPath operand .read with
        | .ok _ => true
        | .error _ => false)
    if headed && opens then c.say heading
    let done ← part operand
    return (seen.1 && !opens, done :: seen.2)
  let (_, results) ← operands.foldlM one (true, [])
  return Call.statusOf results

/-- Shows the beginnings of files.  Of what a program reads from a file only the part that is shown
is used up. -/
def head : Tool := fun c => do
  let found ← { c with args := spelledOut false c.args }.arguments portionSpec
  let p ← portionOf c found 45
  showPortions c found fun operand => do
    if operand == [45] then
      let m ← get
      let regular := match m.openFile? Machine.input with
        | some file => (m.files.node? file.inode).any Node.isRegular
        | none => false
      match ← Act.take Machine.input fun bytes =>
          if regular then p.headLength bytes else bytes.length with
      | .ok bytes =>
        c.say (bytes.take (p.headLength bytes))
        return true
      | .error cause =>
        c.complainOf (ascii "error reading 'standard input'") cause
        return false
    else
      withOpened c operand fun bytes => do
        c.say (bytes.take (p.headLength bytes))
        return true

def tail : Tool := fun c => do
  let found ← { c with args := spelledOut true c.args }.arguments portionSpec
  let p ← portionOf c found 43
  showPortions c found fun operand =>
    withOpened c operand fun bytes => do
      c.say (p.tail bytes)
      return true

/-! ## Counting -/

/-- What is counted in a text. -/
structure Counts where
  lines : Nat
  words : Nat
  characters : Nat
  bytes : Nat
  longest : Nat

def countsOf (text : Bytes) : Counts :=
  let (words, _) := text.foldl (fun (counted : Nat × Bool) b =>
    if isSpace b then (counted.1, false)
    else (if counted.2 then counted.1 else counted.1 + 1, true)) (0, false)
  let longest := (plainLines text).foldl (fun w line => max w line.length) 0
  ⟨text.count 10, words, text.length, text.length, longest⟩

/-- The sums of counts, and the longest line of all. -/
def Counts.add (a b : Counts) : Counts :=
  ⟨a.lines + b.lines, a.words + b.words, a.characters + b.characters, a.bytes + b.bytes,
    max a.longest b.longest⟩

def wc : Tool := fun c => do
  let found ← c.arguments (.usual "clmLw" [⟨"bytes", .nothing, 'c'⟩, ⟨"lines", .nothing, 'l'⟩,
    ⟨"chars", .nothing, 'm'⟩, ⟨"max-line-length", .nothing, 'L'⟩, ⟨"words", .nothing, 'w'⟩,
    ⟨"files0-from", .value, 'f'⟩, ⟨"total", .value, 't'⟩])
  let chosen (letter : Char) : Bool :=
    if ['c', 'l', 'm', 'L', 'w'].any found.has then found.has letter
    else letter == 'l' || letter == 'w' || letter == 'c'
  let fields (n : Counts) : List Nat :=
    (if chosen 'l' then [n.lines] else []) ++ (if chosen 'w' then [n.words] else []) ++
      (if chosen 'm' then [n.characters] else []) ++ (if chosen 'c' then [n.bytes] else []) ++
      (if chosen 'L' then [n.longest] else [])
  let operands := orInput found.operands
  let m ← get
  let nodes := operands.map fun operand =>
    if operand == [45] then (m.openFile? Machine.input).bind fun file => m.files.node? file.inode
    else match m.host.stat operand with
      | .ok i => some i.node
      | .error _ => none
  let sizes := nodes.filterMap fun node => match node with
    | some (.file contents) => some contents.size
    | _ => none
  let irregular := nodes.any fun node => match node with
    | some (.file _) | none => false
    | some _ => true
  let digits := (Bytes.ofNat (total sizes)).length
  let single := operands.length == 1 && (fields ⟨0, 0, 0, 0, 0⟩).length == 1
  let width := if single then 1 else if irregular then max 7 digits else digits
  let line (n : Counts) (name : Bytes) : Bytes :=
    Bytes.joinWith [32] ((fields n).map fun k =>
      let s := Bytes.ofNat k
      List.replicate (width - s.length) 32 ++ s) ++
      (if name.isEmpty then [] else 32 :: name) ++ [10]
  let results ← operands.mapM fun operand => do
    match ← Call.input operand with
    | .ok bytes =>
      let n := countsOf bytes
      c.say (line n (if found.operands.isEmpty then [] else operand))
      return (true, n)
    | .error cause =>
      c.complainOf (Quote.ifNeeded operand) cause
      if cause matches .isDirectory | .badDescriptor then
        c.say (line ⟨0, 0, 0, 0, 0⟩ (if found.operands.isEmpty then [] else operand))
      return (false, ⟨0, 0, 0, 0, 0⟩)
  if operands.length > 1 then
    c.say (line (results.foldl (fun sum (_, n) => sum.add n) ⟨0, 0, 0, 0, 0⟩) (ascii "total"))
  return Call.statusOf (results.map Prod.fst)

/-! ## Other orders -/

/-- Shows files with the last line first. -/
def tac : Tool := fun c => do
  let found ← c.arguments (.usual "br:s:" [])
  forAll (orInput found.operands) fun operand => do
    match ← Call.input operand with
    | .ok bytes =>
      c.say (linesOf 10 bytes).reverse.flatten
      return true
    | .error cause =>
      c.complainOf (ascii "failed to open " ++ Quote.always operand ++ ascii " for reading") cause
      return false

/-- Shows lines with the last byte first. -/
def rev : Tool := fun c => do
  let found ← c.arguments (.usual "" [])
  forAll (orInput found.operands) fun operand =>
    withInput c operand fun bytes => do
      c.say ((linesOf 10 bytes).flatMap fun line =>
        (withoutMark 10 line).reverse ++ (if line.getLast? == some 10 then [10] else []))
      return true

/-- Shows files with numbers in front of the lines that are not empty. -/
def nl : Tool := fun c => do
  let found ← c.arguments (.usual "b:w:s:v:i:n:" [⟨"body-numbering", .value, 'b'⟩,
    ⟨"number-width", .value, 'w'⟩, ⟨"number-separator", .value, 's'⟩,
    ⟨"starting-line-number", .value, 'v'⟩])
  let width := ((found.value? 'w').bind Bytes.toNat?).getD 6
  let separator := (found.value? 's').getD [9]
  let all := found.value? 'b' == some [97]
  let start := ((found.value? 'v').bind Bytes.toNat?).getD 1
  let results ← (orInput found.operands).mapM fun operand => do
    match ← Call.input operand with
    | .ok bytes => return some bytes
    | .error cause =>
      c.complainOf (Quote.ifNeeded operand) cause
      return none
  let lines := linesOf 10 (results.filterMap id).flatten
  let (shown, _) := lines.foldl (fun (shown, n) line =>
    let text := withoutMark 10 line
    if all || !text.isEmpty then
      let digits := Bytes.ofNat n
      ((List.replicate (width - digits.length) 32 ++ digits ++ separator ++ text ++ [10]) :: shown,
        n + 1)
    else ((List.replicate (width + separator.length) 32 ++ [10]) :: shown, n))
    (([] : List Bytes), start)
  c.say shown.reverse.flatten
  return Call.statusOf (results.map Option.isSome)

def fold : Tool := fun c => do
  let found ← c.arguments (.usual "bsw:" [⟨"width", .value, 'w'⟩, ⟨"spaces", .nothing, 's'⟩,
    ⟨"bytes", .nothing, 'b'⟩])
  let width := max 1 (((found.value? 'w').bind Bytes.toNat?).getD 80)
  let rec cut : (fuel : Nat) → Bytes → Bytes
    | 0, text => text
    | fuel + 1, text =>
      if text.length ≤ width then text
      else
        let first := text.take width
        let behindBlank := (first.reverse.dropWhile (· != 32)).length
        let size := if found.has 's' && 0 < behindBlank then behindBlank else width
        text.take size ++ 10 :: cut fuel (text.drop size)
  forAll (orInput found.operands) fun operand =>
    withInput c operand fun bytes => do
      c.say ((linesOf 10 bytes).flatMap fun line =>
        let text := withoutMark 10 line
        cut (text.length + 1) text ++ (if line.getLast? == some 10 then [10] else []))
      return true

/-! ## tee -/

/-- Copies what it reads to what it writes, and to files. -/
def tee : Tool := fun c => do
  let found ← c.arguments (.usual "aip" [⟨"append", .nothing, 'a'⟩,
    ⟨"ignore-interrupts", .nothing, 'i'⟩, ⟨"output-error", .maybe, 'p'⟩])
  let streams ← found.operands.mapM fun path => do
    match ← Act.openStream path (if found.has 'a' then .append else .write) 3 with
    | .ok stream => return some (path, stream)
    | .error cause =>
      c.complainOf (Quote.ifNeeded path) cause
      return none
  match ← Act.readAll Machine.input with
  | .error cause =>
    c.complainOf (ascii "read error") cause
    return 1
  | .ok bytes =>
    let written ← (streams.filterMap id).mapM fun (path, stream) => do
      match ← Act.write stream bytes with
      | .ok () => return true
      | .error cause =>
        c.complainOf (Quote.ifNeeded path) cause
        return false
    match ← Act.write Machine.output bytes with
    | .ok () => return Call.statusOf (streams.map Option.isSome ++ written)
    | .error cause =>
      c.complainOf (ascii "'standard output'") cause
      return 1

/-! ## Comparing -/

/-- How many bytes two texts begin with alike. -/
def common : (count : Nat) → Bytes → Bytes → Nat
  | n, a :: as, b :: bs => if a == b then common (n + 1) as bs else n
  | n, _, _ => n

def cmp : Tool := fun c => do
  let found ← c.arguments ⟨"bi:ln:s", [⟨"print-bytes", .nothing, 'b'⟩, ⟨"verbose", .nothing, 'l'⟩,
    ⟨"quiet", .nothing, 's'⟩, ⟨"silent", .nothing, 's'⟩, ⟨"bytes", .value, 'n'⟩,
    ⟨"ignore-initial", .value, 'i'⟩], false, 2⟩
  match found.operands with
  | [] => c.misuse (ascii "missing operand after '" ++ c.name ++ [39]) 2
  | _ :: _ :: _ :: _ =>
      c.misuse (ascii "extra operand " ++ Quote.always (found.operands.getD 2 [])) 2
  | first :: rest =>
    let second := rest.headD [45]
    let reading (path : Bytes) : Act Bytes := do
      match ← Call.input path with
      | .ok bytes => return bytes
      | .error cause =>
        if !(found.has 's' && (cause matches .notFound)) then
          c.complainOf (Quote.ifNeeded path) cause
        Act.exit 2
    let limit (s : Bytes) : Bytes := match (found.value? 'n').bind sizeOf? with
      | some n => s.take n
      | none => s
    let skip (s : Bytes) : Bytes := s.drop (((found.value? 'i').bind sizeOf?).getD 0)
    let a := limit (skip (← reading first))
    let b := limit (skip (← reading second))
    if a == b then return 0
    else
      let same := common 0 a b
      let line := 1 + (a.take same).count 10
      let octal (b : UInt8) : Bytes :=
        let digits := Permissions.octal 1 b.toNat
        List.replicate (3 - digits.length) 32 ++ digits
      let ended := same == a.length || same == b.length
      if found.has 's' then return 1
      if found.has 'l' then
        let pairs := (a.zip b).zipIdx.filter fun ((x, y), _) => x != y
        let width := (Bytes.ofNat (min a.length b.length)).length
        c.say (pairs.flatMap fun ((x, y), i) =>
          let place := Bytes.ofNat (i + 1)
          List.replicate (width - place.length) 32 ++ place ++ [32] ++ octal x ++ [32] ++ octal y ++
            [10])
        if a.length == b.length then return 1
      if ended || found.has 'l' then
        let short := if a.length < b.length then first else second
        let size := min a.length b.length
        let shortText := if a.length < b.length then a else b
        if size == 0 then
          c.complain (ascii "EOF on " ++ Quote.always short ++ ascii " which is empty")
        else
          let wholeLine := shortText.getLast? == some 10
          let lines := shortText.count 10
          let place := if found.has 'l' then []
            else if wholeLine then ascii ", line " ++ Bytes.ofNat lines
            else ascii ", in line " ++ Bytes.ofNat (lines + 1)
          c.complain (ascii "EOF on " ++ Quote.always short ++ ascii " after byte " ++
            Bytes.ofNat size ++ place)
        return 1
      else
        let shown (b : UInt8) : Bytes :=
          octal b ++ 32 :: visibleByte ⟨false, false, false, true, true, true⟩ b
        let values := if found.has 'b' then
            ascii " is " ++ shown ((a.drop same).headD 0) ++ [32] ++ shown ((b.drop same).headD 0)
          else []
        c.say (first ++ [32] ++ second ++ ascii " differ: " ++
          ascii (if found.has 'b' then "byte " else "byte ") ++ Bytes.ofNat (same + 1) ++
          ascii ", line " ++ Bytes.ofNat line ++ values ++ [10])
        return 1

/-! ## dd -/

/-- The value of an operand with an equals sign. -/
def ddValue (args : List Bytes) (name : String) : Option Bytes :=
  (args.filterMap fun a =>
    let start := ascii (name ++ "=")
    if start.isPrefixOf a then some (a.drop start.length) else none).getLast?

def dd : Tool := fun c => do
  let names := ["if", "of", "bs", "ibs", "obs", "count", "skip", "seek", "conv", "status", "iflag",
    "oflag", "cbs", "iseek", "oseek"]
  if let some a := c.args.find? fun a => !names.any fun n => (ascii (n ++ "=")).isPrefixOf a then
    if a != [45, 45] then c.misuse (ascii "unrecognized operand " ++ Quote.always a) 1
  let number (name : String) (default_ : Nat) : Act Nat := do
    match ddValue c.args name with
    | none => return default_
    | some text =>
      match sizeOf? text with
      | some n => return n
      | none => c.abort (ascii "invalid number: " ++ Quote.always text) 1
  let block ← number "bs" (← number "ibs" 512)
  if block == 0 then
    c.abort (ascii "invalid number: " ++ Quote.always ((ddValue c.args "bs").getD [])) 1
  let skip ← number "skip" 0
  let seek ← number "seek" 0
  let conversions := Bytes.splitOn 44 ((ddValue c.args "conv").getD [])
  let converts (name : String) : Bool := conversions.contains (ascii name)
  let counted ← match ddValue c.args "count" with
    | some _ => do pure (some (← number "count" 0))
    | none => pure none
  let text ← do
    match ddValue c.args "if" with
    | none =>
      match ← Act.readAll Machine.input with
      | .ok bytes => pure bytes
      | .error cause =>
        c.abort (ascii "error reading 'standard input': " ++ cause.message) 1
    | some path =>
      match ← Act.readPath path with
      | .ok bytes => pure bytes
      | .error .isDirectory =>
        c.abort (ascii "error reading " ++ Quote.always path ++ ascii ": Is a directory") 1
      | .error cause =>
        c.complainOf (ascii "failed to open " ++ Quote.always path) cause
        Act.exit 1
  let wanted := (text.drop (skip * block))
  let wanted := match counted with
    | some n => wanted.take (n * block)
    | none => wanted
  let wanted := if converts "ucase" then wanted.map fun b => if 97 ≤ b && b ≤ 122 then b - 32 else b
    else if converts "lcase" then wanted.map fun b => if 65 ≤ b && b ≤ 90 then b + 32 else b
    else wanted
  let isWritten ← match ddValue c.args "of" with
  | none => do
    c.say wanted
    pure true
  | some path => do
    let m ← get
    let change (h : Host) : Except SystemError Host := do
      let (n, h) ← h.openForWriting path (!converts "notrunc" && seek == 0) (m.masked 0o666)
      match h.files.node? n with
      | some (.file contents) =>
        let start := seek * block
        let contents := if !converts "notrunc" && 0 < seek then contents.resize start else contents
        let contents := if wanted.isEmpty then contents else contents.overwrite start wanted
        return h.withFiles (h.files.setNode n (.file contents))
      | _ =>
        let (result, h) := h.appendAt n wanted
        result.map fun _ => h
    match ← Act.changing change with
    | .ok () => pure true
    | .error .noSpace =>
      c.complainOf (ascii "error writing " ++ Quote.always path) .noSpace
      pure false
    | .error cause =>
      c.complainOf (ascii "failed to open " ++ Quote.always path) cause
      Act.exit 1
  let full := wanted.length / block
  let partial_ := if wanted.length % block == 0 then 0 else 1
  let records := Bytes.ofNat full ++ [43] ++ Bytes.ofNat partial_
  let status := (ddValue c.args "status").getD []
  if status != ascii "none" then
    let _ ← Act.write Machine.complaints
      (records ++ ascii " records in\n" ++ (if isWritten then records else ascii "0+0") ++
        ascii " records out\n")
    if status != ascii "noxfer" then
      let _ ← Act.write Machine.complaints
        (Bytes.ofNat (if isWritten then wanted.length else 0) ++
          ascii " bytes copied, 0 s, 0 B/s\n")
  return if isWritten then 0 else 1

/-! ## Other notations -/

def od : Tool := fun c => do
  let found ← c.arguments (.usual "A:t:cbxodvj:N:w:" [⟨"address-radix", .value, 'A'⟩,
    ⟨"format", .value, 't'⟩, ⟨"skip-bytes", .value, 'j'⟩, ⟨"read-bytes", .value, 'N'⟩])
  let results ← (orInput found.operands).mapM fun operand => do
    match ← Call.input operand with
    | .ok bytes => return some bytes
    | .error cause =>
      c.complainOf (Quote.ifNeeded operand) cause
      return none
  let text := (results.filterMap id).flatten.drop (((found.value? 'j').bind sizeOf?).getD 0)
  let text := match (found.value? 'N').bind sizeOf? with
    | some n => text.take n
    | none => text
  let kind := (found.value? 't').getD
    (if found.has 'c' then ascii "c" else if found.has 'b' then ascii "o1"
      else if found.has 'x' then ascii "x2" else if found.has 'd' then ascii "u2" else ascii "o2")
  let right (width : Nat) (s : Bytes) : Bytes := List.replicate (width - s.length) 32 ++ s
  let hexadecimal (width n : Nat) : Bytes :=
    let digits := (Nat.toDigits 16 n).map fun c => UInt8.ofNat c.toNat
    List.replicate (width - digits.length) 48 ++ digits
  let letterOf (b : UInt8) : Bytes :=
    if b == 0 then ascii "\\0" else
    match Quote.letter? b with
    | some letter => [92, letter]
    | none => if Quote.isPrintable b then [b] else Permissions.octal 3 b.toNat
  let one (line : Bytes) : Bytes :=
    let pairs (render : Nat → Bytes) : Bytes :=
      (List.range ((line.length + 1) / 2)).flatMap fun i =>
        let low := (line.getD (2 * i) 0).toNat
        let high := (line.getD (2 * i + 1) 0).toNat
        32 :: render (low + 256 * high)
    if kind == ascii "c" then line.flatMap fun b => right 4 (letterOf b)
    else if kind == ascii "x1" || kind == ascii "x1z" then
      line.flatMap fun b => 32 :: hexadecimal 2 b.toNat
    else if kind == ascii "o1" then line.flatMap fun b => 32 :: Permissions.octal 3 b.toNat
    else if kind == ascii "u1" || kind == ascii "d1" then
      line.flatMap fun b => right 4 (Bytes.ofNat b.toNat)
    else if kind == ascii "x2" || kind == ascii "x" then pairs (hexadecimal 4)
    else if kind == ascii "u2" then pairs fun n => right 5 (Bytes.ofNat n)
    else pairs (Permissions.octal 6)
  let radix := (found.value? 'A').getD (ascii "o")
  let address (n : Nat) : Bytes :=
    if radix == ascii "n" then []
    else if radix == ascii "x" then hexadecimal 6 n
    else if radix == ascii "d" then Decimal.padded 7 (Bytes.ofNat n)
    else Permissions.octal 7 n
  let width := ((found.value? 'w').bind Bytes.toNat?).getD 16
  let rec rows : (fuel : Nat) → (place : Nat) → (before : Option Bytes) → (starred : Bool) → Bytes →
      List Bytes
    | 0, _, _, _, _ => []
    | fuel + 1, place, before, starred, rest =>
      let line := rest.take width
      if line.isEmpty then []
      else if before == some line && line.length == width && width < rest.length &&
          !found.has 'v' then
        (if starred then [] else [[42, 10]]) ++
          rows fuel (place + line.length) before true (rest.drop width)
      else (address place ++ one line ++ [10]) ::
        rows fuel (place + line.length) (some line) false (rest.drop width)
  let last := address text.length
  c.say ((rows (text.length + 1) 0 none false text).flatten ++
    (if last.isEmpty then [] else last ++ [10]))
  return Call.statusOf (results.map Option.isSome)

/-- The letters of numbers in base sixty-four. -/
def sixLetters : Bytes :=
  ascii "ABCDEFGHIJKLMNOPQRSTUVWXYZabcdefghijklmnopqrstuvwxyz0123456789+/"

def inSixes : Bytes → Bytes
  | a :: b :: c :: rest =>
    let n := a.toNat * 65536 + b.toNat * 256 + c.toNat
    [sixLetters.getD (n / 262144) 0, sixLetters.getD (n / 4096 % 64) 0,
      sixLetters.getD (n / 64 % 64) 0, sixLetters.getD (n % 64) 0] ++ inSixes rest
  | [a, b] =>
    let n := a.toNat * 65536 + b.toNat * 256
    [sixLetters.getD (n / 262144) 0, sixLetters.getD (n / 4096 % 64) 0,
      sixLetters.getD (n / 64 % 64) 0, 61]
  | [a] =>
    let n := a.toNat * 65536
    [sixLetters.getD (n / 262144) 0, sixLetters.getD (n / 4096 % 64) 0, 61, 61]
  | [] => []

/-- The bytes that a text in base sixty-four stands for. -/
def ofSixes (text : Bytes) : Bytes :=
  let digits := text.filterMap fun b => sixLetters.idxOf? b
  let rec go : (fuel : Nat) → List Nat → Bytes
    | 0, _ => []
    | fuel + 1, ds =>
      match ds with
      | a :: b :: c :: d :: rest =>
        let n := a * 262144 + b * 4096 + c * 64 + d
        [UInt8.ofNat (n / 65536), UInt8.ofNat (n / 256), UInt8.ofNat n] ++ go fuel rest
      | [a, b, c] =>
        let n := a * 262144 + b * 4096 + c * 64
        [UInt8.ofNat (n / 65536), UInt8.ofNat (n / 256)]
      | [a, b] => [UInt8.ofNat ((a * 262144 + b * 4096) / 65536)]
      | _ => []
  go (digits.length + 1) digits

/-- Writes bytes in base sixty-four, or reads them. -/
def base64 : Tool := fun c => do
  let found ← c.arguments (.usual "diw:" [⟨"decode", .nothing, 'd'⟩,
    ⟨"ignore-garbage", .nothing, 'i'⟩, ⟨"wrap", .value, 'w'⟩])
  let width := ((found.value? 'w').bind Bytes.toNat?).getD 76
  forAll ((orInput found.operands).take 1) fun operand =>
    withInput c operand fun bytes => do
      if found.has 'd' then c.say (ofSixes bytes)
      else
        let text := inSixes bytes
        let lines := if width == 0 then [text]
          else (List.range ((text.length + width - 1) / width)).map fun i =>
            (text.drop (i * width)).take width ++ [10]
        c.say lines.flatten
      return true

end WasmPackager.Tools
