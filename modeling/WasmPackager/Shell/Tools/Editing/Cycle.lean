/-
# `Shell.Tools.Editing.Cycle` — a text is edited line by line

A line is put into a space, the instructions are followed with it, and what is
then in the space is written.  A second space keeps what later lines need.
Everything that is read is known beforehand, so editing is a function from texts
to texts: `run` gives what is written, and where, in the order of writing.
-/
import WasmPackager.Shell.Tools.Editing.Instruction
import WasmPackager.Shell.Tools.Basic

namespace WasmPackager.Tools.Edit

/-- A text that is edited. -/
structure Source where
  name : Bytes
  text : Except SystemError Bytes

/-- Where something is written. -/
inductive Target
  /-- To the results, or into the file that is edited in place. -/
  | results
  /-- To the results in any case. -/
  | screen
  | complaints
  | file (path : Bytes)
  /-- Here begins the text that takes the place of a file. -/
  | replacing (path : Bytes)
deriving DecidableEq

/-- How editing is done. -/
structure Style where
  /-- Only what instructions write is written. -/
  silent : Bool
  /-- The texts are edited one by one. -/
  separate : Bool
  /-- The texts are put in the place of what they were. -/
  inPlace : Bool
  /-- What ends a line. -/
  mark : UInt8
  /-- How long visible lines get. -/
  width : Nat
  /-- The contents of the files that instructions read. -/
  documents : List (Bytes × Bytes)

/-- What is written at the end of the round. -/
inductive Later
  | text (bytes : Bytes)
  | contents (bytes : Bytes)

/-- A run in progress. -/
structure State where
  space : Bytes
  /-- The line had a mark at its end. -/
  marked : Bool
  kept : Bytes
  line : Nat
  replaced : Bool
  later : List Later
  /-- The instructions whose row of lines is open, with the last line if it is known. -/
  opened : List (Nat × Option Nat)
  used : Option Form
  place : Nat
  ahead : List Bytes
  current : Bytes
  sources : List Source
  /-- The lines of files that are read line by line. -/
  documents : List (Bytes × List Bytes)
  /-- What was written, last first. -/
  written : List (Target × Bytes)
  /-- What was written last there was a line without its mark. -/
  owing : List Target
  status : UInt8
  finished : Bool

namespace State

/-- Writes bytes, behind the mark that is still missing there. -/
def put (s : State) (style : Style) (target : Target) (bytes : Bytes) : State :=
  if s.owing.contains target then
    { s with
      written := (target, style.mark :: bytes) :: s.written
      owing := s.owing.filter (· != target) }
  else { s with written := (target, bytes) :: s.written }

/-- Writes a line, with its mark if it had one. -/
def putLine (s : State) (style : Style) (target : Target) (bytes : Bytes) : State :=
  if s.marked then s.put style target (bytes ++ [style.mark])
  else
    let s := s.put style target bytes
    { s with owing := target :: s.owing }

def target (style : Style) (path : Bytes) : Target :=
  if path == ascii "/dev/stdout" then (if style.inPlace then .screen else .results)
  else if path == ascii "/dev/stderr" then .complaints
  else .file path

def complain (s : State) (text : Bytes) (status : UInt8) : State :=
  { s with
    written := (.complaints, ascii "sed: " ++ text ++ [10]) :: s.written
    status := max s.status status }

def finish (s : State) (status : UInt8) : State := { s with finished := true, status }

/-- Writes what was to be written at the end of the round. -/
def flush (s : State) (style : Style) : State :=
  let s := s.later.reverse.foldl (fun s l =>
    match l with
    | .text bytes => s.put style .results bytes
    | .contents bytes => if bytes.isEmpty then s else s.put style .results bytes) s
  { s with later := [] }

/-! ## Lines -/

/-- There is no line behind the current one. -/
def atLast (s : State) (style : Style) : Bool :=
  s.ahead.isEmpty && (style.separate || s.sources.all fun source =>
    match source.text with
    | .ok bytes => bytes.isEmpty
    | .error _ => true)

/-- The rows of lines that are open before the first line is read. -/
def openedAtFirst (script : Array Instruction) : List (Nat × Option Nat) :=
  (script.toList.zip (List.range script.size)).filterMap fun (i, place) =>
    match i.selection.first, i.selection.finish with
    | some (.line 0), some _ => some (place, none)
    | _, _ => none

/-- Goes on to the next text that can be read. -/
def nextSource (style : Style) (script : Array Instruction) :
    (sources : List Source) → State → State
  | [], s => { s with sources := [] }
  | source :: rest, s =>
    match source.text with
    | .error .isDirectory =>
      if style.inPlace then
        nextSource style script rest
          (s.complain (ascii "couldn't edit " ++ source.name ++ ascii ": not a regular file") 4)
      else
        let s := { s with sources := [] }.complain
          (ascii "read error on " ++ source.name ++ ascii ": " ++ SystemError.isDirectory.message) 4
        s.finish 4
    | .error .badDescriptor =>
      let s := { s with sources := [] }.complain
        (ascii "read error on stdin: " ++ SystemError.badDescriptor.message) 4
      s.finish 4
    | .error cause =>
      nextSource style script rest
        (s.complain (ascii "can't read " ++ source.name ++ ascii ": " ++ cause.message) 2)
    | .ok bytes =>
      let s := if style.separate then
          { s with line := 0, opened := openedAtFirst script }
        else s
      let s := if style.inPlace then
          { s with
            written := (.replacing source.name, []) :: s.written
            owing := s.owing.filter (· != .results) }
        else s
      let lines := linesOf style.mark bytes
      let s := { s with current := source.name, ahead := lines, sources := rest }
      if lines.isEmpty then nextSource style script rest s else s

/-- Takes the next line into the space, behind what is there if `join` says so. -/
def advance (s : State) (style : Style) (script : Array Instruction) (join : Bool) :
    Option State :=
  let s := s.flush style
  let s := if s.ahead.isEmpty then nextSource style script s.sources s else s
  match s.ahead with
  | [] => none
  | line :: ahead =>
    let text := withoutMark style.mark line
    some { s with
      space := if join then s.space ++ style.mark :: text else text
      marked := line.getLast? == some style.mark
      line := s.line + 1
      ahead }

/-! ## Which lines are meant -/

/-- The expression of a form, and the run that has used it. -/
def formFor (s : State) (f : Form) : Option (Regex × Bool) × State :=
  match f.expression with
  | some r => (some (r, f.ignoreCase), { s with used := some f })
  | none =>
    match s.used with
    | some ⟨some r, ignoreCase⟩ => (some (r, ignoreCase || f.ignoreCase), s)
    | _ =>
      (none, (s.complain
        (ascii "-e expression #1, char 0: no previous regular expression") 1).finish 1)

def hasForm (s : State) (f : Form) : Bool × State :=
  match s.formFor f with
  | (some (r, ignoreCase), s) => (r.occurs ⟨s.space.toArray, ignoreCase, false⟩, s)
  | (none, s) => (false, s)

def isAt (s : State) (style : Style) : Address → Bool × State
  | .line n => (s.line == n, s)
  | .last => (s.atLast style, s)
  | .every first step =>
    (if s.line < first then false else (s.line - first) % step == 0, s)
  | .form f => s.hasForm f

/-- The current line is where a row of lines ends. -/
def isEnd (s : State) (style : Style) : Finish → Bool × State
  | .last => (s.atLast style, s)
  | .form f => s.hasForm f
  | .line _ | .further _ | .multiple _ => (false, s)

/-- The last line of a row that begins at the current line, if it is known; `none` also for a row
of one line. -/
def lastOfRow (s : State) : Finish → Option Nat
  | .line n => some n
  | .further n => some (s.line + n)
  | .multiple n => some (if n = 0 then s.line else (s.line / n + 1) * n)
  | .last | .form _ => none

/-- The instruction at a place is for the current line, apart from an inversion. -/
def selects (s : State) (style : Style) (place : Nat) (selection : Selection) : Bool × State :=
  match selection.first, selection.finish with
  | none, _ => (true, s)
  | some first, none => s.isAt style first
  | some first, some finish =>
    let close (s : State) : State := { s with opened := s.opened.filter (·.1 != place) }
    match s.opened.lookup place with
    | some (some last) =>
      let s := if last ≤ s.line then close s else s
      (s.line ≤ last, s)
    | some none =>
      let (isOver, s) := s.isEnd style finish
      (true, if isOver then close s else s)
    | none =>
      match s.isAt style first with
      | (false, s) => (false, s)
      | (true, s) =>
        match s.lastOfRow finish with
        | some last =>
          (true, if last ≤ s.line then s else { s with opened := (place, some last) :: s.opened })
        | none => (true, { s with opened := (place, none) :: s.opened })

/-! ## Replacing -/

/-- How letters are written: from here on, and the next one. -/
structure Writing where
  all : Letters
  next : Letters

def inLetters (how : Letters) (b : UInt8) : UInt8 :=
  match how with
  | .big | .nextBig => Regex.big b
  | .small | .nextSmall => Regex.small b
  | .asTheyAre => b

/-- The text as the letters are to be written. -/
def lettered (w : Writing) : Bytes → Bytes × Writing
  | [] => ([], w)
  | b :: rest =>
    let first := if w.next == Letters.asTheyAre then inLetters w.all b else inLetters w.next b
    (first :: rest.map (inLetters w.all), { w with next := .asTheyAre })

def replacement (subject : Regex.Subject) (m : Regex.Match) (pieces : List Piece) : Bytes :=
  let (texts, _) := pieces.foldl (fun (texts, w) piece =>
    match piece with
    | .letters .nextBig => (texts, { w with next := .nextBig })
    | .letters .nextSmall => (texts, { w with next := .nextSmall })
    | .letters how => (texts, ⟨how, .asTheyAre⟩)
    | .text bytes =>
      let (bytes, w) := lettered w bytes
      (bytes :: texts, w)
    | .group n =>
      let (bytes, w) := lettered w (m.part subject n)
      (bytes :: texts, w)) (([] : List Bytes), (⟨.asTheyAre, .asTheyAre⟩ : Writing))
  texts.reverse.flatten

/-- Goes over the matches from a place on; `count` is how many there were, `previous` where the
last one ended. -/
def replaceFrom (sub : Substitution) (r : Regex) (subject : Regex.Subject) :
    (fuel : Nat) → (start count : Nat) → (previous : Option Nat) → (done : Bool) →
    (reversed : List Bytes) → List Bytes × Bool
  | 0, _, _, _, done, reversed => (reversed, done)
  | fuel + 1, start, count, previous, done, reversed =>
    let piece (a b : Nat) : Bytes := (subject.text.extract a b).toList
    let size := subject.text.size
    match if size < start then none else r.search subject start with
    | none => (piece start size :: reversed, done)
    | some m =>
      let reversed := piece start m.first :: reversed
      let isVoid := m.first == m.last
      if isVoid && previous == some m.first then
        replaceFrom sub r subject fuel (m.first + 1) count none done
          (piece m.first (m.first + 1) :: reversed)
      else
        let count := count + 1
        let hit := if sub.all then sub.nth ≤ count else count == sub.nth
        let reversed := (if hit then replacement subject m sub.pieces else piece m.first m.last)
          :: reversed
        if hit && !sub.all then (piece m.last size :: reversed, true)
        else if isVoid then
          replaceFrom sub r subject fuel (m.last + 1) count (some m.last) (done || hit)
            (piece m.last (m.last + 1) :: reversed)
        else replaceFrom sub r subject fuel m.last count (some m.last) (done || hit) reversed

def substitute (s : State) (style : Style) (sub : Substitution) : State :=
  match s.formFor sub.form with
  | (none, s) => s
  | (some (r, ignoreCase), s) =>
    let subject : Regex.Subject := ⟨s.space.toArray, ignoreCase, false⟩
    let (reversed, done) := replaceFrom sub r subject (2 * s.space.length + 4) 0 0 none false []
    if !done then s
    else
      let s := { s with space := reversed.reverse.flatten, replaced := true }
      let s := if sub.shown then s.putLine style .results s.space else s
      match sub.file with
      | some path => s.putLine style (target style path) s.space
      | none => s

/-! ## Making visible -/

def visibleByte (b : UInt8) : Bytes :=
  if b == 92 then [92, 92]
  else if b == 7 then [92, 97]
  else if b == 8 then [92, 98]
  else if b == 12 then [92, 102]
  else if b == 10 then [92, 110]
  else if b == 13 then [92, 114]
  else if b == 9 then [92, 116]
  else if b == 11 then [92, 118]
  else if 32 ≤ b && b ≤ 126 then [b]
  else 92 :: [48 + b / 64, 48 + b / 8 % 8, 48 + b % 8]

/-- The text made visible, in lines that are not too long. -/
def visibleText (width : Nat) (text : Bytes) : Bytes :=
  let room := width - 1
  let (reversed, _) := text.foldl (fun (reversed, column) b =>
    let shown := visibleByte b
    if 0 < width && room < column + shown.length then (shown :: [92, 10] :: reversed, shown.length)
    else (shown :: reversed, column + shown.length)) (([] : List Bytes), 0)
  reversed.reverse.flatten ++ [36, 10]

/-! ## Rounds -/

/-- Ends the round: the space is written unless that is not wanted. -/
def endRound (s : State) (style : Style) (printed : Bool) : State :=
  let s := if printed && !style.silent then s.putLine style .results s.space else s
  s.flush style

/-- Begins the next round, with the next line. -/
def nextRound (s : State) (style : Style) (script : Array Instruction) : State :=
  match { s with replaced := false }.advance style script false with
  | some s => { s with place := 0 }
  | none =>
    let s := s.flush style
    let s := if s.ahead.isEmpty then nextSource style script s.sources s else s
    s.finish s.status

def follow (s : State) (style : Style) (script : Array Instruction) (wasOpen : Bool) :
    Action → State
  | .block _ | .nothing | .label _ => s
  | .substitute sub => s.substitute style sub
  | .exchange pairs =>
    { s with space := s.space.map fun b => (pairs.lookup b).getD b }
  | .delete => (s.endRound style false).nextRound style script
  | .deleteFirst =>
    if s.space.contains style.mark then
      let s := s.endRound style false
      { s with space := (s.space.dropWhile (· != style.mark)).drop 1, place := 0 }
    else (s.endRound style false).nextRound style script
  | .show => s.putLine style .results s.space
  | .showFirst =>
    s.put style .results (s.space.takeWhile (· != style.mark) ++ [style.mark])
  | .next =>
    if s.atLast style then (s.endRound style true).nextRound style script
    else
      let s := if style.silent then s else s.putLine style .results s.space
      (s.advance style script false).getD s
  | .joinNext =>
    if s.atLast style then (s.endRound style true).nextRound style script
    else (s.advance style script true).getD s
  | .keep more => { s with kept := if more then s.kept ++ style.mark :: s.space else s.space }
  | .fetch more => { s with space := if more then s.space ++ style.mark :: s.kept else s.kept }
  | .swap => { s with space := s.kept, kept := s.space }
  | .insert text => s.put style .results text
  | .attach text => { s with later := .text text :: s.later }
  | .change text =>
    let s := if wasOpen then s else s.put style .results text
    (s.endRound style false).nextRound style script
  | .number => s.put style .results (Bytes.ofNat s.line ++ [10])
  | .visible width => s.put style .results (visibleText (width.getD style.width) s.space)
  | .jump _ place => { s with place }
  | .jumpIf replaced _ place =>
    if s.replaced == replaced then { s with place, replaced := false }
    else { s with replaced := false }
  | .read path =>
    match style.documents.lookup path with
    | some bytes => { s with later := .contents bytes :: s.later }
    | none => s
  | .readLine path =>
    match s.documents.lookup path with
    | some (line :: rest) =>
      { s with
        later := .text line :: s.later
        documents := (path, rest) :: s.documents.filter (·.1 != path) }
    | _ => s
  | .write path => s.putLine style (target style path) s.space
  | .writeFirst path =>
    s.put style (target style path) (s.space.takeWhile (· != style.mark) ++ [style.mark])
  | .name => s.put style .results (s.current ++ [10])
  | .clear => { s with space := [] }
  | .quit status silent =>
    let s := if silent then s else s.endRound style true
    s.finish (UInt8.ofNat status)

/-- Follows one instruction, or ends the round behind the last one. -/
def step (style : Style) (script : Array Instruction) (s : State) : State :=
  match script[s.place]? with
  | none => (s.endRound style true).nextRound style script
  | some i =>
    let place := s.place
    let s := { s with place := place + 1 }
    let (selected, s) := s.selects style place i.selection
    if s.finished then s
    else if selected != i.selection.inverse then
      let wasOpen := !i.selection.inverse && (s.opened.lookup place).isSome
      s.follow style script wasOpen i.action
    else
      match i.action with
      | .block behind => { s with place := behind }
      | _ => s

/-- Follows instructions until the run has come to its end. -/
def stepAll (style : Style) (script : Array Instruction) : (fuel : Nat) → State → State
  | 0, s => s
  | fuel + 1, s => if s.finished then s else stepAll style script fuel (s.step style script)

end State

/-- How many instructions are followed at most. -/
def longestRun : Nat := 4000000

/-- Edits texts: what is written in order, and the status. -/
def run (style : Style) (script : List Instruction) (sources : List Source) :
    List (Target × Bytes) × UInt8 :=
  let script := script.toArray
  let documents := style.documents.map fun (path, bytes) => (path, linesOf style.mark bytes)
  let s : State := ⟨[], true, [], 0, false, [], State.openedAtFirst script, none, 0, [], [],
    sources, documents, [], [], 0, false⟩
  let s := (s.nextRound style script).stepAll style script longestRun
  (s.written.reverse, s.status)

end WasmPackager.Tools.Edit
