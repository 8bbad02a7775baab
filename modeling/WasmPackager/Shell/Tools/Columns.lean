/-
# `Shell.Tools.Columns` — programs that work on parts of lines and on single bytes

Cutting out bytes and fields, putting lines side by side, and exchanging bytes.
-/
import WasmPackager.Shell.Tools.Order

namespace WasmPackager.Tools

/-! ## cut -/

/-- A range of places, counted from one; without an end it goes to the end of the line. -/
abbrev Span := Nat × Option Nat

def spanOf? (text : Bytes) : Option Span :=
  let first := text.takeWhile (· != 45)
  match text.drop first.length with
  | [] => (Bytes.toNat? first).map fun n => (n, some n)
  | _ :: last =>
    match Bytes.toNat? first, Bytes.toNat? last with
    | some a, some b => some (a, some b)
    | some a, none => if last.isEmpty then some (a, none) else none
    | none, some b => if first.isEmpty then some (1, some b) else none
    | none, none => none

def within (spans : List Span) (place : Nat) : Bool :=
  spans.any fun (a, b) => a ≤ place && (match b with
    | some b => place ≤ b
    | none => true)

def spansOf (c : Call) (fields : Bool) (list : Bytes) : Act (List Span) :=
  ((Bytes.splitOn 44 (list.map fun b => if Format.isBlank b then 44 else b))).mapM fun text => do
    let what := ascii (if fields then "field value " else "byte/character position ")
    match spanOf? text with
    | none =>
      if text == [45] then c.misuse (ascii "invalid range with no endpoint: -") 1
      else c.misuse (ascii "invalid " ++ what ++ Quote.always text) 1
    | some (0, _) =>
      c.misuse (ascii (if fields then "fields are numbered from 1"
        else "byte/character positions are numbered from 1")) 1
    | some (a, some b) =>
      if b < a then c.misuse (ascii "invalid decreasing range") 1 else return (a, some b)
    | some span => return span

def cut : Tool := fun c => do
  let found ← c.arguments (.usual "b:c:d:f:nsz" [⟨"bytes", .value, 'b'⟩,
    ⟨"characters", .value, 'c'⟩,
    ⟨"delimiter", .value, 'd'⟩, ⟨"fields", .value, 'f'⟩, ⟨"complement", .nothing, 'C'⟩,
    ⟨"only-delimited", .nothing, 's'⟩, ⟨"output-delimiter", .value, 'o'⟩,
    ⟨"zero-terminated", .nothing, 'z'⟩])
  let lists := found.options.filter fun o => ['b', 'c', 'f'].contains o.letter
  match lists with
  | [] => c.misuse (ascii "you must specify a list of bytes, characters, or fields") 1
  | _ :: _ :: _ => c.misuse (ascii "only one list may be specified") 1
  | [list] =>
    let byFields := list.letter == 'f'
    let delimiter ← match found.value? 'd' with
      | none => pure 9
      | some [] => pure 0
      | some [b] =>
        if byFields then pure b
        else c.misuse (ascii "an input delimiter may be specified only when operating on fields") 1
      | some _ => c.misuse (ascii "the delimiter must be a single character") 1
    let spans ← spansOf c byFields (list.value.getD [])
    let wanted (place : Nat) : Bool := within spans place != found.has 'C'
    let mark : UInt8 := if found.has 'z' then 0 else 10
    let joint := found.value? 'o'
    let one (line : Bytes) : Bytes :=
      if byFields then
        if !line.contains delimiter then (if found.has 's' then [] else line ++ [mark])
        else
          let fields := (Bytes.splitOn delimiter line).zipIdx.filter fun (_, i) => wanted (i + 1)
          Bytes.joinWith (joint.getD [delimiter]) (fields.map Prod.fst) ++ [mark]
      else
        match joint with
        | none => ((line.zipIdx.filter fun (_, i) => wanted (i + 1)).map Prod.fst) ++ [mark]
        | some joint =>
          let pieces := spans.map fun (a, b) =>
            ((match b with
              | some b => line.take b
              | none => line).drop (a - 1))
          Bytes.joinWith joint (pieces.filter (!·.isEmpty)) ++ [mark]
    forAll (orInput found.operands) fun operand =>
      withInput c operand fun bytes => do
        c.say ((linesOf mark bytes).flatMap fun line => one (withoutMark mark line))
        return true

/-! ## paste -/

/-- The delimiters that a text describes. -/
def delimitersOf : Bytes → List Bytes
  | 92 :: 110 :: rest => [10] :: delimitersOf rest
  | 92 :: 116 :: rest => [9] :: delimitersOf rest
  | 92 :: 48 :: rest => [] :: delimitersOf rest
  | 92 :: b :: rest => [b] :: delimitersOf rest
  | b :: rest => [b] :: delimitersOf rest
  | [] => []

/-- The texts with delimiters between them, in turn. -/
def interleave (delimiters : List Bytes) (texts : List Bytes) : Bytes :=
  texts.zipIdx.flatMap fun (text, i) =>
    (if i == 0 then [] else delimiters.getD ((i - 1) % max 1 delimiters.length) []) ++ text

/-- Puts the lines of files side by side. -/
def paste : Tool := fun c => do
  let found ← c.arguments (.usual "d:sz" [⟨"delimiters", .value, 'd'⟩, ⟨"serial", .nothing, 's'⟩,
    ⟨"zero-terminated", .nothing, 'z'⟩])
  let delimiters := delimitersOf ((found.value? 'd').getD [9])
  let inputs := orInput found.operands
  let shared ← if inputs.contains [45] then demandLines c [45] else pure []
  let count := (inputs.filter (· == [45])).length
  let deal (i : Nat) : List Bytes :=
    (shared.zipIdx.filter fun (_, k) => k % max 1 count == i).map Prod.fst
  let (reversed, _) ← inputs.foldlM (fun (files, i) operand => do
    if operand == [45] then return ((if found.has 's' then shared else deal i) :: files, i + 1)
    else return ((← demandLines c operand) :: files, i)) (([] : List (List Bytes)), 0)
  let files := reversed.reverse
  if found.has 's' then
    c.say (files.flatMap fun lines => interleave delimiters lines ++ [10])
    return 0
  else
    let height := files.foldl (fun n lines => max n lines.length) 0
    c.say ((List.range height).flatMap fun i =>
      interleave delimiters (files.map fun lines => lines.getD i []) ++ [10])
    return 0

/-! ## tr -/

/-- A piece of a set of bytes as it is written. -/
inductive SetPiece
  | bytes (members : Bytes)
  /-- A byte again and again: so often, or as often as is needed. -/
  | again (b : UInt8) (count : Option Nat)

/-- The byte that a text behind a backslash stands for, and what is behind it. -/
def setEscape (text : Bytes) : UInt8 × Bytes :=
  match text with
  | [] => (92, [])
  | b :: rest =>
    if b == 101 then (101, rest)
    else
      match Escape.letter? b with
      | some e => (e, rest)
      | none =>
        if Escape.isOctal b then
          let digits := (text.take 3).takeWhile Escape.isOctal
          (UInt8.ofNat (Escape.inBase 8 digits), text.drop digits.length)
        else (b, rest)

/-- The members of a named class, in order. -/
def classMembers? (name : Bytes) : Option Bytes :=
  match Shell.Pattern.groups.find? fun (n, _) => ascii n == name with
  | some (_, holds) => some (((List.range 256).map UInt8.ofNat).filter holds)
  | none => none

/-- The next byte of a set and what is behind it. -/
def setByte (text : Bytes) : Option (UInt8 × Bytes) :=
  match text with
  | 92 :: rest => some (setEscape rest)
  | b :: rest => some (b, rest)
  | [] => none

def byteRange (a b : UInt8) : Bytes :=
  (List.range (b.toNat - a.toNat + 1)).map fun i => UInt8.ofNat (a.toNat + i)

/-- The pieces of a set, or what is wrong with it. -/
def setPieces : (fuel : Nat) → Bytes → Except Bytes (List SetPiece)
  | 0, _ => .ok []
  | fuel + 1, text => do
    match text with
    | [] => return []
    | 91 :: 58 :: rest =>
      let name := rest.takeWhile (· != 58)
      match rest.drop name.length with
      | 58 :: 93 :: behind =>
        match classMembers? name with
        | some members => return .bytes members :: (← setPieces fuel behind)
        | none => throw (ascii "invalid character class " ++ Quote.always name)
      | _ => return .bytes [91] :: (← setPieces fuel (58 :: rest))
    | 91 :: 61 :: b :: 61 :: 93 :: rest => return .bytes [b] :: (← setPieces fuel rest)
    | 91 :: rest =>
      match setByte rest with
      | some (b, 42 :: behind) =>
        let digits := behind.takeWhile fun b => 48 ≤ b && b ≤ 57
        match behind.drop digits.length with
        | 93 :: behind =>
          let count := if digits.head? == some 48 then some (Escape.inBase 8 digits)
            else Bytes.toNat? digits
          let count := if count == some 0 then none else count
          return .again b count :: (← setPieces fuel behind)
        | _ => ranged 91 rest fuel
      | _ => ranged 91 rest fuel
    | _ =>
      match setByte text with
      | some (b, rest) => ranged b rest fuel
      | none => return []
where
  /-- A byte, or a range that begins with it. -/
  ranged (b : UInt8) (rest : Bytes) (fuel : Nat) : Except Bytes (List SetPiece) := do
    match rest with
    | 45 :: behind =>
      match setByte behind with
      | some (last, behind) =>
        if last < b then
          throw (ascii "range-endpoints of '" ++ [b, 45, last] ++
            ascii "' are in reverse collating sequence order")
        else return .bytes (byteRange b last) :: (← setPieces fuel behind)
      | none => return .bytes [b] :: (← setPieces fuel rest)
    | _ => return .bytes [b] :: (← setPieces fuel rest)

/-- The bytes of a set; what is repeated as often as needed fills up to a length. -/
def setBytes (length : Nat) (pieces : List SetPiece) : Bytes :=
  let fixed := total (pieces.map fun
    | .bytes members => members.length
    | .again _ count => count.getD 0)
  pieces.flatMap fun
    | .bytes members => members
    | .again b (some count) => List.replicate count b
    | .again b none => List.replicate (length - fixed) b

/-- The table that gives the bytes of one set for those of another; the last byte stands for all
that are lacking. -/
def exchange (first second : Bytes) : Array UInt8 :=
  let identity := (List.range 256).map UInt8.ofNat |>.toArray
  let last := second.getLastD 0
  let second := second ++ List.replicate (first.length - second.length) last
  (first.zip second).foldl (fun t (a, b) => t.setIfInBounds a.toNat b) identity

/-- The text without bytes of a set that are the same as the byte before. -/
def squeezed (set : Bytes) (text : Bytes) : Bytes :=
  (text.foldl (fun (kept : Bytes) b =>
    if kept.head? == some b && set.contains b then kept else b :: kept) []).reverse

def tr : Tool := fun c => do
  let found ← c.arguments ⟨"cCdst", [⟨"complement", .nothing, 'c'⟩, ⟨"delete", .nothing, 'd'⟩,
    ⟨"squeeze-repeats", .nothing, 's'⟩, ⟨"truncate-set1", .nothing, 't'⟩], true, 1⟩
  let deletes := found.has 'd'
  let squeezes := found.has 's'
  let least := if deletes == squeezes then 2 else 1
  let most := if deletes && !squeezes then 1 else 2
  if found.operands.length < least then
    match found.operands with
    | [] => c.misuse (ascii "missing operand") 1
    | _ =>
      c.complain (ascii "missing operand after " ++ Quote.always (found.operands.getLastD []))
      let _ ← Act.write Machine.complaints (ascii (
        if squeezes then "Two strings must be given when both deleting and squeezing repeats.\n"
        else "Two strings must be given when translating.\n"))
      c.tryHelp 1
  if most < found.operands.length then
    c.complain (ascii "extra operand " ++ Quote.always (found.operands.getD most []))
    if most == 1 && found.operands.length == 2 then
      let _ ← Act.write Machine.complaints (ascii
        "Only one string may be given when deleting without squeezing repeats.\n")
    c.tryHelp 1
  let pieces ← found.operands.mapM fun text => do
    match setPieces (text.length + 1) text with
    | .ok pieces => return pieces
    | .error message => c.abort message 1
  let firstSet := setBytes 0 (pieces.getD 0 [])
  let complement := found.has 'c' || found.has 'C'
  let firstSet :=
    if complement then ((List.range 256).map UInt8.ofNat).filter (!firstSet.contains ·)
    else firstSet
  let translates := !deletes && found.operands.length == 2
  let secondSet := setBytes firstSet.length (pieces.getD 1 [])
  if translates && secondSet.isEmpty && !firstSet.isEmpty then
    c.abort (ascii "when not truncating set1, string2 must be non-empty") 1
  let text ← match ← Act.readAll Machine.input with
    | .ok bytes => pure bytes
    | .error cause => c.abort (ascii "read error: " ++ cause.message) 1
  let members := firstSet.foldl (fun (t : Array Bool) b => t.setIfInBounds b.toNat true)
    (Array.replicate 256 false)
  let isMember (b : UInt8) : Bool := members.getD b.toNat false
  let result :=
    if deletes then
      let rest := text.filter (!isMember ·)
      if squeezes then squeezed secondSet rest else rest
    else if translates then
      let firstSet := if found.has 't' then firstSet.take secondSet.length else firstSet
      let table := exchange firstSet secondSet
      let changed := text.map fun b => table.getD b.toNat b
      if squeezes then squeezed secondSet changed else changed
    else squeezed firstSet text
  c.say result
  return 0

/-! ## Tabs -/

def expand : Tool := fun c => do
  let found ← c.arguments (.usual "it:" [⟨"tabs", .value, 't'⟩, ⟨"initial", .nothing, 'i'⟩])
  let width := max 1 (((found.value? 't').bind Bytes.toNat?).getD 8)
  forAll (orInput found.operands) fun operand =>
    withInput c operand fun bytes => do
      let (reversed, _) := bytes.foldl (fun (out, column) b =>
        if b == 9 then
          let gap := width - column % width
          (List.replicate gap 32 ++ out, column + gap)
        else (b :: out, if b == 10 then 0 else column + 1)) (([] : Bytes), 0)
      c.say reversed.reverse
      return true

end WasmPackager.Tools
