/-
# `Shell.Tools.Editing.Instruction` — what is done to the lines of a text

A script is a row of instructions.  Each one selects lines by their numbers or
by the forms they have and says what is done to them.  Braces put instructions
under one selection, and jumps lead to places that have a label; both are
numbers in the row once the script has been read.
-/
import WasmPackager.Shell.Text.Regex
import WasmPackager.Shell.Text.Escape

namespace WasmPackager.Tools.Edit

/-! ## Instructions -/

/-- A form that a line can have; without an expression the one that was used last. -/
structure Form where
  expression : Option Regex
  ignoreCase : Bool

/-- Selects lines. -/
inductive Address
  | line (n : Nat)
  | last
  /-- Every so many lines, from a first one on. -/
  | every (first step : Nat)
  | form (f : Form)

/-- Where a row of lines ends. -/
inductive Finish
  | line (n : Nat)
  | last
  /-- So many lines more. -/
  | further (n : Nat)
  /-- The next line whose number is a multiple. -/
  | multiple (n : Nat)
  | form (f : Form)

/-- The lines that an instruction is for. -/
structure Selection where
  first : Option Address
  finish : Option Finish
  inverse : Bool

/-- How letters are written from here on, or only the next one. -/
inductive Letters
  | asTheyAre
  | big
  | small
  | nextBig
  | nextSmall
deriving DecidableEq

/-- A piece of what takes the place of a match. -/
inductive Piece
  | text (bytes : Bytes)
  | group (n : Nat)
  | letters (how : Letters)

/-- Puts something in the place of what matches. -/
structure Substitution where
  form : Form
  pieces : List Piece
  /-- The first match that is replaced. -/
  nth : Nat
  /-- Those behind it are replaced too. -/
  all : Bool
  shown : Bool
  file : Option Bytes

/-- What is done to a line. -/
inductive Action
  /-- Goes on behind the place `behind` when the line is not selected. -/
  | block (behind : Nat)
  | nothing
  | label (name : Bytes)
  | substitute (s : Substitution)
  | exchange (pairs : List (UInt8 × UInt8))
  | delete
  | deleteFirst
  | show
  | showFirst
  | next
  | joinNext
  | keep (more : Bool)
  | fetch (more : Bool)
  | swap
  | insert (text : Bytes)
  | attach (text : Bytes)
  | change (text : Bytes)
  | number
  | visible (width : Option Nat)
  | jump (name : Bytes) (place : Nat)
  /-- Jumps if something was replaced, or if nothing was. -/
  | jumpIf (replaced : Bool) (name : Bytes) (place : Nat)
  | read (path : Bytes)
  | readLine (path : Bytes)
  | write (path : Bytes)
  | writeFirst (path : Bytes)
  | name
  | clear
  | quit (status : Nat) (silent : Bool)

/-- A selection and what is done to the lines in it. -/
structure Instruction where
  selection : Selection
  action : Action

/-! ## Reading -/

/-- Why a script cannot be read, and what is behind the place where that was seen; without a
place it is seen at the very end. -/
structure Fault where
  message : Bytes
  rest : Option Bytes

/-- A fault that was seen in front of the given rest. -/
def fault {α : Type} (message : String) (rest : Bytes) : Except Fault α :=
  .error ⟨ascii message, some rest⟩

def isGap (b : UInt8) : Bool := b == 32 || b == 9 || b == 11 || b == 12 || b == 13

def isDigit (b : UInt8) : Bool := 48 ≤ b && b ≤ 57

/-- The number at the beginning, and what is behind it. -/
def leadingNumber (text : Bytes) : Nat × Bytes :=
  let digits := text.takeWhile isDigit
  ((Bytes.toNat? digits).getD 0, text.drop digits.length)

/-- What is left of a set in brackets, with the bracket that closes it. -/
def setRest (text : Bytes) : Option (Bytes × Bytes) :=
  let (front, inside) : Bytes × Bytes := match text with
    | 94 :: 93 :: rest => ([94, 93], rest)
    | 94 :: rest => ([94], rest)
    | 93 :: rest => ([93], rest)
    | rest => ([], rest)
  let rec go : (fuel : Nat) → (reversed : Bytes) → Bytes → Option (Bytes × Bytes)
    | 0, _, _ => none
    | fuel + 1, reversed, text =>
      match text with
      | [] | 10 :: _ => none
      | 93 :: rest => some ((93 :: reversed).reverse, rest)
      | 91 :: 58 :: rest =>
        let name := rest.takeWhile fun b => b != 58 && b != 93
        match rest.drop name.length with
        | 58 :: 93 :: behind =>
          go fuel (93 :: 58 :: (name.reverse ++ 58 :: 91 :: reversed)) behind
        | _ => go fuel (91 :: reversed) (58 :: rest)
      | 92 :: 110 :: rest => go fuel (10 :: reversed) rest
      | b :: rest => go fuel (b :: reversed) rest
  (go (inside.length + 1) [] inside).map fun (body, rest) => (front ++ body, rest)

/-- The text up to the mark that ends it, and what is behind the mark.  A backslash takes its
meaning from the mark; `regex` tells that the text is an expression. -/
def delimited (mark : UInt8) (regex : Bool) : (fuel : Nat) → (reversed : Bytes) → Bytes →
    Option (Bytes × Bytes)
  | 0, _, _ => none
  | fuel + 1, reversed, text =>
    match text with
    | [] => none
    | 92 :: 10 :: rest => delimited mark regex fuel (if regex then 10 :: reversed
        else 10 :: 92 :: reversed) rest
    | 92 :: b :: rest =>
      if b == mark then
        delimited mark regex fuel (if !regex && b == 38 then 38 :: 92 :: reversed
          else b :: reversed) rest
      else if b == 110 && regex then delimited mark regex fuel (10 :: reversed) rest
      else delimited mark regex fuel (b :: 92 :: reversed) rest
    | b :: rest =>
      if b == mark then some (reversed.reverse, rest)
      else if b == 10 && regex then none
      else if b == 91 && regex then
        match setRest rest with
        | some (body, rest) => delimited mark regex fuel (body.reverse ++ 91 :: reversed) rest
        | none => none
      else delimited mark regex fuel (b :: reversed) rest

/-- The byte that an escape behind a backslash stands for, with what is behind it. -/
def escape? (text : Bytes) : Option (UInt8 × Bytes) :=
  let inBase (base count : Nat) (ok : UInt8 → Bool) (rest : Bytes) : Option (UInt8 × Bytes) :=
    let digits := (rest.take count).takeWhile ok
    if digits.isEmpty then none
    else some (UInt8.ofNat (Escape.inBase base digits), rest.drop digits.length)
  match text with
  | 97 :: rest => some (7, rest)
  | 102 :: rest => some (12, rest)
  | 114 :: rest => some (13, rest)
  | 116 :: rest => some (9, rest)
  | 118 :: rest => some (11, rest)
  | 99 :: b :: rest => some ((if 97 ≤ b && b ≤ 122 then b - 32 else b) ^^^ 64, rest)
  | 100 :: rest => inBase 10 3 isDigit rest
  | 111 :: rest => inBase 8 3 Escape.isOctal rest
  | 120 :: rest => inBase 16 2 Escape.isHexadecimal rest
  | _ => none

/-- The text with its escapes read; other backslashes stay with what is behind them.  `guarded`
are the bytes that get a backslash when an escape stands for them. -/
def withEscapes (guarded : Bytes) : (fuel : Nat) → (reversed : Bytes) → Bytes → Bytes
  | 0, reversed, text => reversed.reverse ++ text
  | fuel + 1, reversed, text =>
    match text with
    | [] => reversed.reverse
    | 92 :: rest =>
      match escape? rest with
      | some (b, rest) =>
        withEscapes guarded fuel (if guarded.contains b then b :: 92 :: reversed
          else b :: reversed) rest
      | none =>
        match rest with
        | b :: rest => withEscapes guarded fuel (b :: 92 :: reversed) rest
        | [] => (92 :: reversed).reverse
    | b :: rest => withEscapes guarded fuel (b :: reversed) rest

def readForm (mark : UInt8) (problem : String) (text : Bytes) : Except Fault (Bytes × Bytes) :=
  match delimited mark true (text.length + 1) [] text with
  | some (body, rest) => .ok (withEscapes [10] (body.length + 1) [] body, rest)
  | none =>
    let line := text.takeWhile (· != 10)
    fault problem (text.drop line.length)

def formOf (extended ignoreCase perLine : Bool) (body rest : Bytes) : Except Fault Form :=
  if body.isEmpty then .ok ⟨none, ignoreCase⟩
  else
    match Regex.ofText ⟨extended, true⟩ body with
    | .ok r => .ok ⟨some (if perLine then r.perLine else r), ignoreCase⟩
    | .error problem => .error ⟨problem.message, some rest⟩

/-- The letters behind the expression of an address, and what is behind them. -/
def addressFlags : (fuel : Nat) → (ignoreCase perLine : Bool) → Bytes → Bool × Bool × Bytes
  | 0, i, m, text => (i, m, text)
  | fuel + 1, i, m, text =>
    match text with
    | 73 :: rest => addressFlags fuel true m rest
    | 77 :: rest => addressFlags fuel i true rest
    | text => (i, m, text)

def readAddressForm (extended : Bool) (mark : UInt8) (text : Bytes) :
    Except Fault (Form × Bytes) := do
  let (body, rest) ← readForm mark "unterminated address regex" text
  let (ignoreCase, perLine, rest) := addressFlags (rest.length + 1) false false rest
  return (← formOf extended ignoreCase perLine body rest, rest)

/-- The address at the beginning of a text, if there is one. -/
def readAddress (extended : Bool) (text : Bytes) : Except Fault (Option Address × Bytes) := do
  match text with
  | 47 :: rest =>
    let (f, rest) ← readAddressForm extended 47 rest
    return (some (.form f), rest)
  | 92 :: mark :: rest =>
    let (f, rest) ← readAddressForm extended mark rest
    return (some (.form f), rest)
  | 36 :: rest => return (some .last, rest)
  | b :: _ =>
    if !isDigit b then return (none, text)
    else
      let (first, rest) := leadingNumber text
      match rest.dropWhile isGap with
      | 126 :: rest =>
        let (step, rest) := leadingNumber (rest.dropWhile isGap)
        return (some (if step = 0 then .line first else .every first step), rest)
      | _ => return (some (.line first), rest)
  | [] => return (none, text)

/-- The end of a row of lines, behind a comma. -/
def readFinish (extended : Bool) (text : Bytes) : Except Fault (Finish × Bytes) := do
  match text with
  | 43 :: rest =>
    let (n, rest) := leadingNumber rest
    return (.further n, rest)
  | 126 :: rest =>
    let (n, rest) := leadingNumber rest
    return (.multiple n, rest)
  | _ =>
    let (a, rest) ← readAddress extended text
    match a with
    | some (.line n) => return (.line n, rest)
    | some (.every n _) => return (.line n, rest)
    | some .last => return (.last, rest)
    | some (.form f) => return (.form f, rest)
    | none => fault "unexpected \x60,'" (text.drop 1)

/-- The selection at the beginning of an instruction. -/
def readSelection (extended : Bool) (text : Bytes) : Except Fault (Selection × Bytes) := do
  let (first, rest) ← readAddress extended text
  let isZero := match first with
    | some (.line 0) => true
    | _ => false
  let (finish, rest) : Option Finish × Bytes ←
    match first, rest.dropWhile isGap with
    | some _, 44 :: rest => do
      let (f, rest) ← readFinish extended (rest.dropWhile isGap)
      pure (some f, rest)
    | _, _ => pure (none, rest)
  if isZero && !(finish matches some (.form _)) then
    fault "invalid usage of line address 0" (rest.drop 1)
  else
    match rest.dropWhile isGap with
    | 33 :: rest =>
      match rest.dropWhile isGap with
      | 33 :: rest => fault "multiple \x60!'s" rest
      | rest => return (⟨first, finish, true⟩, rest)
    | rest => return (⟨first, finish, false⟩, rest)

/-- What takes the place of a match: a text with marks for groups and for the case of letters. -/
def readPieces : (fuel : Nat) → (reversed : List Piece) → (plain : Bytes) → Bytes → List Piece
  | 0, reversed, _, _ => reversed.reverse
  | fuel + 1, reversed, plain, text =>
    let flushed := if plain.isEmpty then reversed else .text plain.reverse :: reversed
    match text with
    | [] => flushed.reverse
    | 38 :: rest => readPieces fuel (.group 0 :: flushed) [] rest
    | 92 :: b :: rest =>
      if isDigit b then readPieces fuel (.group (b.toNat - 48) :: flushed) [] rest
      else if b == 76 then readPieces fuel (.letters .small :: flushed) [] rest
      else if b == 85 then readPieces fuel (.letters .big :: flushed) [] rest
      else if b == 69 then readPieces fuel (.letters .asTheyAre :: flushed) [] rest
      else if b == 117 then readPieces fuel (.letters .nextBig :: flushed) [] rest
      else if b == 108 then readPieces fuel (.letters .nextSmall :: flushed) [] rest
      else if b == 110 then readPieces fuel reversed (10 :: plain) rest
      else readPieces fuel reversed (b :: plain) rest
    | b :: rest => readPieces fuel reversed (b :: plain) rest

/-- The end of an instruction: nothing but blanks up to a line feed, a semicolon, a closing brace
or a comment. -/
def readEnd {α : Type} (value : α) (text : Bytes) : Except Fault (α × Bytes) :=
  match text.dropWhile isGap with
  | [] => .ok (value, [])
  | 10 :: rest | 59 :: rest => .ok (value, rest)
  | 125 :: rest => .ok (value, 125 :: rest)
  | 35 :: rest => .ok (value, 35 :: rest)
  | _ :: rest => fault "extra characters after command" rest

def restOfLine (text : Bytes) : Bytes × Bytes :=
  let line := text.takeWhile (· != 10)
  (line, text.drop (line.length + 1))

/-- What was said behind a substitution. -/
structure Flags where
  nth : Option Nat
  all : Bool
  shown : Bool
  ignoreCase : Bool
  perLine : Bool
  file : Option Bytes

def readFlags : (fuel : Nat) → Flags → Bytes → Except Fault (Flags × Bytes)
  | 0, f, text => .ok (f, text)
  | fuel + 1, f, text =>
    match text with
    | 103 :: rest =>
      if f.all then fault "multiple \x60g' options to \x60s' command" rest
      else readFlags fuel { f with all := true } rest
    | 112 :: rest =>
      if f.shown then fault "multiple \x60p' options to \x60s' command" rest
      else readFlags fuel { f with shown := true } rest
    | 105 :: rest | 73 :: rest => readFlags fuel { f with ignoreCase := true } rest
    | 109 :: rest | 77 :: rest => readFlags fuel { f with perLine := true } rest
    | 32 :: rest => readFlags fuel f rest
    | 119 :: rest =>
      let (path, rest) := restOfLine (rest.dropWhile isGap)
      if path.isEmpty then fault "missing filename in r/R/w/W commands" rest
      else .ok ({ f with file := some path }, rest)
    | b :: rest =>
      if isDigit b then
        let (n, behind) := leadingNumber text
        if f.nth.isSome then fault "multiple number options to \x60s' command" rest
        else if n = 0 then fault "number option to \x60s' command may not be zero" behind
        else readFlags fuel { f with nth := some n } behind
      else
        match text.dropWhile isGap with
        | [] => .ok (f, [])
        | 10 :: rest | 59 :: rest => .ok (f, rest)
        | 125 :: rest => .ok (f, 125 :: rest)
        | 35 :: rest => .ok (f, 35 :: rest)
        | _ :: rest => fault "unknown option to \x60s'" rest
    | [] => .ok (f, [])

/-- The greatest group that the pieces refer to. -/
def greatestGroup (pieces : List Piece) : Nat :=
  pieces.foldl (fun n p => match p with
    | .group k => max n k
    | _ => n) 0

def groupCount : Regex → Nat
  | .group n r => max n (groupCount r)
  | .repeated _ _ r => groupCount r
  | .sequence a b | .choice a b => max (groupCount a) (groupCount b)
  | _ => 0

def readSubstitution (extended : Bool) (text : Bytes) : Except Fault (Action × Bytes) := do
  let problem := "unterminated \x60s' command"
  match text with
  | [] | 10 :: _ | 92 :: _ => fault problem text
  | mark :: rest =>
    let (body, rest) ← readForm mark problem rest
    match delimited mark false (rest.length + 1) [] rest with
    | none => fault problem []
    | some (replacement, rest) =>
      let (flags, behind) ←
        readFlags (rest.length + 1) ⟨none, false, false, false, false, none⟩ rest
      let f ← formOf extended flags.ignoreCase flags.perLine body behind
      let replacement := withEscapes [38, 92] (replacement.length + 1) [] replacement
      let pieces := readPieces (replacement.length + 1) [] [] replacement
      let most := greatestGroup pieces
      if f.expression.any fun r => groupCount r < most then
        .error ⟨ascii "invalid reference \\" ++ Bytes.ofNat most ++
          ascii " on \x60s' command's RHS",
          some behind⟩
      else
        return (.substitute ⟨f, pieces, flags.nth.getD 1, flags.all, flags.shown, flags.file⟩,
          behind)

/-- The bytes of one side of an exchange. -/
def exchangeSide (mark : UInt8) : (fuel : Nat) → (reversed : Bytes) → Bytes → Option Bytes
  | 0, _, _ => none
  | fuel + 1, reversed, text =>
    match text with
    | [] => some reversed.reverse
    | 92 :: 92 :: rest => exchangeSide mark fuel (92 :: reversed) rest
    | 92 :: 110 :: rest => exchangeSide mark fuel (10 :: reversed) rest
    | 92 :: 10 :: rest => exchangeSide mark fuel (10 :: reversed) rest
    | [92] => some (92 :: reversed).reverse
    | 92 :: _ => none
    | b :: rest => exchangeSide mark fuel (b :: reversed) rest

/-- An exchange of bytes behind its letter. -/
def readExchange (text : Bytes) : Except Fault (Action × Bytes) := do
  let problem := "unterminated \x60y' command"
  match text with
  | [] | 10 :: _ | 92 :: _ => fault problem text
  | mark :: rest =>
    match delimited mark false (rest.length + 1) [] rest with
    | none => fault problem []
    | some (old, rest) =>
      match delimited mark false (rest.length + 1) [] rest with
      | none => fault problem []
      | some (new, rest) =>
        let side (s : Bytes) : Option Bytes :=
          exchangeSide mark (s.length + 1) [] (withEscapes [92] (s.length + 1) [] s)
        match side old, side new with
        | some old, some new =>
          if old.length != new.length then
            fault "strings for \x60y' command are different lengths" rest
          else readEnd (.exchange (old.zip new)) rest
        | _, _ => fault "\x60y' command strings have unknown escapes" rest

/-- The text of an insertion: lines that a backslash at the end of each joins. -/
def insertionText : (fuel : Nat) → (reversed : Bytes) → Bytes → Bytes × Bytes
  | 0, reversed, text => (reversed.reverse, text)
  | fuel + 1, reversed, text =>
    match text with
    | [] => ((10 :: reversed).reverse, [])
    | 10 :: rest => ((10 :: reversed).reverse, rest)
    | [92] => ((10 :: reversed).reverse, [])
    | 92 :: rest =>
      match escape? rest with
      | some (b, rest) => insertionText fuel (b :: reversed) rest
      | none =>
        match rest with
        | b :: rest => insertionText fuel (b :: reversed) rest
        | [] => ((10 :: reversed).reverse, [])
    | b :: rest => insertionText fuel (b :: reversed) rest

def readInsertion (make : Bytes → Action) (text : Bytes) : Except Fault (Action × Bytes) :=
  let read (body : Bytes) : Except Fault (Action × Bytes) :=
    let (text, rest) := insertionText (body.length + 1) [] body
    .ok (make text, rest)
  match text.dropWhile isGap with
  | [] => fault "expected \\ after \x60a', \x60c' or \x60i'" []
  | 92 :: rest =>
    match rest.dropWhile isGap with
    | 10 :: body => read body
    | [] => .ok (make [], [])
    | _ => read rest
  | body => read body

def readLabel (text : Bytes) : Bytes × Bytes :=
  let text := text.dropWhile isGap
  let name := text.takeWhile fun b => !isSpace b && b != 59 && b != 125
  (name, text.drop name.length)

def readPath (make : Bytes → Action) (text : Bytes) : Except Fault (Action × Bytes) :=
  let (path, rest) := restOfLine (text.dropWhile isGap)
  if path.isEmpty then fault "missing filename in r/R/w/W commands" rest
  else .ok (make path, rest)

/-- The letters that nothing has to follow, with what they do. -/
def plainActions : List (Char × Action) :=
  [('d', .delete), ('D', .deleteFirst), ('p', .show), ('P', .showFirst), ('n', .next),
   ('N', .joinNext), ('h', .keep false), ('H', .keep true), ('g', .fetch false),
   ('G', .fetch true), ('x', .swap), ('=', .number), ('F', .name), ('z', .clear)]

/-- What is done, with the letter in front and what it needs behind it. -/
def readAction (extended : Bool) (text : Bytes) : Except Fault (Action × Bytes) := do
  match text with
  | [] => fault "missing command" []
  | letter :: rest =>
    let c := Char.ofNat letter.toNat
    match plainActions.lookup c with
    | some action => readEnd action rest
    | none =>
      if c == 's' then readSubstitution extended rest
      else if c == 'y' then readExchange rest
      else if c == 'a' then readInsertion .attach rest
      else if c == 'i' then readInsertion .insert rest
      else if c == 'c' then readInsertion .change rest
      else if c == 'b' || c == 't' || c == 'T' then
        let (name, rest) := readLabel rest
        readEnd (if c == 'b' then .jump name 0 else .jumpIf (c == 't') name 0) rest
      else if c == 'r' then readPath .read rest
      else if c == 'R' then readPath .readLine rest
      else if c == 'w' then readPath .write rest
      else if c == 'W' then readPath .writeFirst rest
      else if c == 'v' then readEnd .nothing (readLabel rest).2
      else if c == 'q' || c == 'Q' || c == 'l' || c == 'L' then
        let text := rest.dropWhile isGap
        let given := text.head?.any isDigit
        let (n, rest) := leadingNumber text
        readEnd (if c == 'l' then .visible (if given then some n else none)
          else .quit n (c == 'Q')) rest
      else if letter == 10 || letter == 59 then fault "missing command" rest
      else .error ⟨ascii "unknown command: \x60" ++ letter :: [39], some rest⟩

/-- Reads instructions; `opened` are the places of the blocks that are not closed yet, with their
ends as far as they are known. -/
def readInstructions (extended : Bool) : (fuel : Nat) → (reversed : List Instruction) →
    (opened : List Nat) → (ends : List (Nat × Nat)) → Bytes →
    Except Fault (List Instruction × List (Nat × Nat))
  | 0, reversed, _, ends, _ => .ok (reversed.reverse, ends)
  | fuel + 1, reversed, opened, ends, text => do
    match text.dropWhile fun b => isSpace b || b == 59 with
    | [] =>
      if opened.isEmpty then return (reversed.reverse, ends)
      else .error ⟨ascii r"unmatched `{'", none⟩
    | 35 :: rest =>
      readInstructions extended fuel reversed opened ends (restOfLine rest).2
    | 125 :: rest =>
      match opened with
      | [] => fault r"unexpected `}'" rest
      | first :: opened =>
        let ((), rest) ← readEnd () rest
        readInstructions extended fuel (⟨⟨none, none, false⟩, .nothing⟩ :: reversed) opened
          ((first, reversed.length) :: ends) rest
    | 58 :: rest =>
      let (name, rest) := readLabel rest
      if name.isEmpty then fault "\":\" lacks a label" rest
      else
        let ((), rest) ← readEnd () rest
        readInstructions extended fuel (⟨⟨none, none, false⟩, .label name⟩ :: reversed) opened
          ends rest
    | text =>
      let (selection, rest) ← readSelection extended text
      match rest with
      | 123 :: rest =>
        readInstructions extended fuel (⟨selection, .block 0⟩ :: reversed)
          (reversed.length :: opened) ends rest
      | 125 :: rest =>
        fault (if opened.isEmpty then r"unexpected `}'" else r"} doesn't want any addresses")
          rest
      | 35 :: rest => fault "comments don't accept any addresses" rest
      | 58 :: rest => fault ": doesn't want any addresses" rest
      | rest =>
        let (action, rest) ← readAction extended rest
        readInstructions extended fuel (⟨selection, action⟩ :: reversed) opened ends rest

/-- The place behind a label; an empty name means the end. -/
def placeOf (all : List Instruction) (name : Bytes) : Option Nat :=
  if name.isEmpty then some all.length
  else all.findIdx? fun i => match i.action with
    | .label other => other == name
    | _ => false

/-- The instructions with the numbers of the places that they lead to, or the label that is
missing. -/
def withPlaces (all : List Instruction) (ends : List (Nat × Nat)) :
    Except Bytes (List Instruction) :=
  (all.zip (List.range all.length)).mapM fun (i, place) =>
    let found (name : Bytes) : Except Bytes Nat :=
      match placeOf all name with
      | some p => .ok p
      | none => .error name
    match i.action with
    | .block _ => .ok { i with action := .block ((ends.lookup place).getD all.length) }
    | .jump name _ => (found name).map fun p => { i with action := .jump name p }
    | .jumpIf r name _ => (found name).map fun p => { i with action := .jumpIf r name p }
    | _ => .ok i

end WasmPackager.Tools.Edit
