/-
# `Shell.Lexer` — the tokens of a script

Words are the hard part.  Inside of quotes, of parameters and of expressions
other bytes are special than outside, and each can stand within the others, so
the scan of a word carries a stack of layers.  A script that stands within a
word is read by the grammar, which is a parameter here.
-/
import WasmPackager.Shell.Reader

namespace WasmPackager.Shell.Lexer

/-! ## Layers -/

/-- What kind of text is read. -/
inductive Quoting
  | plain
  | single
  | double
  | arithmetic
deriving DecidableEq

/-- A layer of a word. -/
structure Layer where
  quoting : Quoting
  /-- Within double quotes, for what a backslash means. -/
  inDouble : Bool
  /-- Within double quotes that began inside of a parameter. -/
  innerDouble : Bool
  /-- How many parameters are open. -/
  parameters : Nat
  /-- How many of them began within double quotes. -/
  quotedParameters : Nat
  /-- How many parentheses of an expression are open. -/
  parentheses : Nat
  /-- The layer began with a parameter and ends with it. -/
  ofParameter : Bool

def Layer.fresh (quoting : Quoting) (inDouble : Bool) : Layer :=
  ⟨quoting, inDouble, false, 0, 0, 0, false⟩

/-- What is read: a word, a word that ends a document, or the document. -/
inductive Purpose
  | word
  | mark
  | document (announcement : Announcement)

def Purpose.isDocument : Purpose → Bool
  | document _ => true
  | word | mark => false

/-- The purpose is to read the word that ends a document. -/
def Purpose.isMark : Purpose → Bool
  | mark => true
  | word | document _ => false

/-- A scan of a word. -/
structure Scan where
  reader : Reader
  /-- The glyphs found, the last one first. -/
  glyphs : List Glyph
  layer : Layer
  outer : List Layer
  /-- Something was quoted. -/
  quoted : Bool

/-- What a byte means. -/
inductive Meaning
  | ordinary
  | newline
  | escape
  | singleQuote
  | doubleQuote
  | endQuote
  | backquote
  | dollar
  | closeBrace
  | openParenthesis
  | closeParenthesis
  | separator

def meaning (quoting : Quoting) (b : UInt8) : Meaning :=
  if b == 10 then .newline
  else
    match quoting with
    | .single => if b == 39 then .endQuote else .ordinary
    | .plain =>
      if b == 92 then .escape
      else if b == 39 then .singleQuote
      else if b == 34 then .doubleQuote
      else if b == 96 then .backquote
      else if b == 36 then .dollar
      else if b == 125 then .closeBrace
      else if b == 32 || b == 9 || b == 60 || b == 62 || b == 40 || b == 41 || b == 59 || b == 38
          || b == 124 then .separator
      else .ordinary
    | .double =>
      if b == 92 then .escape
      else if b == 34 then .endQuote
      else if b == 96 then .backquote
      else if b == 36 then .dollar
      else if b == 125 then .closeBrace
      else .ordinary
    | .arithmetic =>
      if b == 92 then .escape
      else if b == 96 then .backquote
      else if b == 36 then .dollar
      else if b == 125 then .closeBrace
      else if b == 40 then .openParenthesis
      else if b == 41 then .closeParenthesis
      else .ordinary

namespace Scan

def add (s : Scan) (g : Glyph) : Scan := { s with glyphs := g :: s.glyphs }

/-- The scan with one more byte of the layer's kind of text. -/
def addByte (s : Scan) (b : UInt8) : Scan :=
  s.add (.byte (s.layer.quoting == .single || s.layer.quoting == .double) b)

def behind (s : Scan) (reader : Reader) : Scan := { s with reader }

/-- The scan behind a quote mark; a document has none. -/
def mark (s : Scan) (purpose : Purpose) : Scan :=
  if purpose.isDocument then s else s.add .quoteMark

def toggle (s : Scan) (purpose : Purpose) : Scan :=
  let layer := if s.layer.parameters == 0 then s.layer
    else { s.layer with innerDouble := !s.layer.innerDouble }
  { s with layer }.mark purpose

def push (s : Scan) (layer : Layer) : Scan := { s with layer, outer := s.layer :: s.outer }

/-- The scan in the layer around the current one. -/
def pop (s : Scan) : Scan :=
  match s.outer with
  | layer :: outer => { s with layer, outer }
  | [] => s

end Scan

/-! ## Parameters -/

/-- Parameters that are not called by a name or a number. -/
def isSpecial (b : UInt8) : Bool :=
  b == 35 || b == 63 || b == 36 || b == 33 || b == 45 || b == 42 || b == 64

def isDigit (b : UInt8) : Bool := 48 ≤ b && b ≤ 57

/-- What was read of a parameter. -/
structure Parameter where
  name : Bytes
  use : Use
  /-- A word belongs to it and follows. -/
  hasWord : Bool
  reader : Reader

/-- The use that a byte behind the name begins, counting an empty parameter as missing or not. -/
def useOf? (orEmpty : Bool) (b : UInt8) : Option Use :=
  if b == 45 then some (.fallback orEmpty)
  else if b == 43 then some (.alternative orEmpty)
  else if b == 63 then some (.demand orEmpty)
  else if b == 61 then some (.assignment orEmpty)
  else none

/-- The uses that only the extended language has. -/
def extendedUse? (r : Reader) : Option (Use × Reader) :=
  if r.dialect != .extended then none
  else
    match r.rest with
    | 47 :: 47 :: rest => some (.replacement true, { r with rest })
    | 47 :: rest => some (.replacement false, { r with rest })
    | 94 :: 94 :: rest => some (.letters true true, { r with rest })
    | 94 :: rest => some (.letters true false, { r with rest })
    | 44 :: 44 :: rest => some (.letters false true, { r with rest })
    | 44 :: rest => some (.letters false false, { r with rest })
    | 58 :: b :: rest =>
      if (useOf? true b).isSome || b == 125 then none
      else some (.slice, { r with rest := b :: rest })
    | _ => none

/-- What is behind the name of a parameter in braces. -/
def afterName (name : Bytes) (r : Reader) : Parameter :=
  match extendedUse? r with
  | some (use, reader) => ⟨name, use, true, reader⟩
  | none =>
    match r.nextJoined? with
    | some (125, reader) => ⟨name, .value, false, reader⟩
    | some (58, behindColon) =>
      match behindColon.nextJoined? with
      | some (b, reader) =>
        match useOf? true b with
        | some use => ⟨name, use, true, reader⟩
        | none =>
          if b == 125 then ⟨name, .nonsense, true, reader⟩
          else ⟨name, .nonsense, true, behindColon⟩
      | none => ⟨name, .nonsense, true, behindColon⟩
    | some (b, reader) =>
      if b == 37 || b == 35 then
        match reader.nextJoined? with
        | some (c, behindSecond) =>
          if c == b then ⟨name, .trim (b == 37) true, true, behindSecond⟩
          else ⟨name, .trim (b == 37) false, true, reader⟩
        | none => ⟨name, .trim (b == 37) false, true, reader⟩
      else
        match useOf? false b with
        | some use => ⟨name, use, true, reader⟩
        | none => ⟨name, .nonsense, true, r⟩
    | none => ⟨name, .nonsense, true, r⟩

/-- The name or number that comes next; a number outside of braces has one digit. -/
def nameOf (r : Reader) (braces : Bool) : Bytes × Reader :=
  match r.nextJoined? with
  | some (b, after) =>
    if beginsName b then r.takeClass isWord
    else if isDigit b then if braces then r.takeClass isDigit else ([b], after)
    else ([], r)
  | none => ([], r)

/-- The parameter in braces whose length is asked for, or the one that counts the arguments. -/
def lengthOf (behindSharp : Reader) : Parameter :=
  match behindSharp.nextJoined? with
  | some (b, after) =>
    if beginsName b || isDigit b then
      let (name, reader) := nameOf behindSharp true
      ⟨name, .length, true, reader⟩
    else
      match after.nextJoined? with
      | some (125, _) =>
        if b == 125 then afterName [35] behindSharp
        else if isSpecial b then ⟨[b], .length, true, after⟩
        else ⟨[], .nonsense, true, after⟩
      | _ => afterName [35] behindSharp
  | none => afterName [35] behindSharp

/-- The parameter behind a dollar sign and an opening brace. -/
def inBraces (r : Reader) : Parameter :=
  match r.nextJoined? with
  | none => ⟨[], .nonsense, true, r⟩
  | some (b, after) =>
    if beginsName b || isDigit b then
      let (name, reader) := nameOf r true
      afterName name reader
    else if b == 125 then ⟨[], .nonsense, true, r⟩
    else if b == 35 then lengthOf after
    else if isSpecial b then afterName [b] after
    else ⟨[], .nonsense, true, after⟩

/-- The parameter behind a dollar sign, if there is one. -/
def parameter? (r : Reader) : Option Parameter :=
  match r.nextJoined? with
  | none => none
  | some (b, after) =>
    if b == 123 then some (inBraces after)
    else if beginsName b || isDigit b then
      let (name, reader) := nameOf r false
      some ⟨name, .value, false, reader⟩
    else if isSpecial b then some ⟨[b], .value, false, after⟩
    else none

/-- The scan behind the beginning of a parameter. -/
def Scan.enter (s : Scan) (p : Parameter) : Scan :=
  let s := s.behind p.reader
  if !p.hasWord then s.add (.parameter p.name)
  else
    let quoting := match p.use, s.layer.quoting with
      | .trim .., _ | .replacement _, _ => Quoting.plain
      | _, .arithmetic => .double
      | _, quoting => quoting
    let s := if quoting == s.layer.quoting && !s.layer.innerDouble then s
      else s.push { Layer.fresh quoting (quoting != .plain) with ofParameter := true }
    let layer := { s.layer with
      parameters := s.layer.parameters + 1
      quotedParameters := s.layer.quotedParameters + if s.layer.inDouble then 1 else 0 }
    { s with layer }.add (.openParameter p.name p.use)

/-- The scan behind the end of a parameter. -/
def Scan.leave (s : Scan) : Scan :=
  let s := s.add .closeParameter
  let parameters := s.layer.parameters - 1
  if parameters == 0 && s.layer.ofParameter then s.pop
  else { s with layer := { s.layer with
    parameters, quotedParameters := s.layer.quotedParameters - 1 } }

/-! ## Scripts within words -/

/-- Reads a list of commands, which a closing parenthesis ends or which goes on to the end. -/
abbrev Nested := (parenthesised : Bool) → Reader → Except SyntaxError (Option Script × Reader)

/-- The text up to the backquote that ends it, without the backslashes that only protected it. -/
def untilBackquote (inDouble : Bool) : (fuel : Nat) → (reversed : Bytes) → Reader →
    Except SyntaxError (Bytes × Reader)
  | 0, _, r => r.fail "EOF in backquote substitution"
  | fuel + 1, reversed, r =>
    match r.nextJoined? with
    | none => r.fail "EOF in backquote substitution"
    | some (96, after) => .ok (reversed.reverse, after)
    | some (92, after) =>
      match after.next? with
      | none => after.fail "EOF in backquote substitution"
      | some (b, behind) =>
        if b == 92 || b == 96 || b == 36 || (inDouble && b == 34) then
          untilBackquote inDouble fuel (b :: reversed) behind
        else untilBackquote inDouble fuel (b :: 92 :: reversed) behind
    | some (b, after) => untilBackquote inDouble fuel (b :: reversed) after

/-- The scan behind a script in backquotes. -/
def Scan.backquoted (s : Scan) (nested : Nested) (after : Reader) : Except SyntaxError Scan := do
  let (text, reader) ← untilBackquote s.layer.inDouble (after.rest.length + 1) [] after
  let (script, inner) ← nested false { reader with rest := text, returned := none, announced := [] }
  return (s.behind { reader with documents := inner.documents }).add (.substitution script)

/-- The scan behind a script in parentheses. -/
def Scan.parenthesised (s : Scan) (nested : Nested) (after : Reader) :
    Except SyntaxError Scan := do
  let (script, reader) ← nested true { after with returned := none, announced := [] }
  return (s.behind { reader with returned := none, announced := after.announced }).add
    (.substitution script)

/-- The scan behind a dollar sign and what it begins. -/
def Scan.dollar (s : Scan) (nested : Nested) (purpose : Purpose) (after : Reader) :
    Except SyntaxError Scan :=
  if purpose.isMark then .ok ((s.behind after).addByte 36)
  else
    match after.nextJoined? with
    | some (40, behind) =>
      match behind.nextJoined? with
      | some (40, inside) =>
        .ok (((s.behind inside).add .openArithmetic).push (.fresh .arithmetic true))
      | _ => s.parenthesised nested behind
    | _ =>
      match parameter? after with
      | some p => .ok (s.enter p)
      | none => .ok ((s.behind after.joined).addByte 36)

/-! ## Quotes -/

/-- The scan behind a backslash and the byte it protects; `none` at the end of the text. -/
def Scan.escape (s : Scan) (purpose : Purpose) (after : Reader) : Bool × Scan :=
  match after.next? with
  | none => (true, (s.behind after).add (.byte true 92))
  | some (10, behind) => (false, s.behind behind)
  | some (b, behind) =>
    let keeps := s.layer.inDouble && b != 92 && b != 96 && b != 36 &&
      (b != 34 || (purpose.isDocument && s.layer.parameters == 0)) &&
      (b != 125 || s.layer.parameters == 0)
    let s := if keeps then s.add (.byte true 92) else s
    (false, { (s.behind behind).add (.byte true b) with quoted := true })

/-- The scan behind a quote that may end a quoted text. -/
def Scan.unquote (s : Scan) (purpose : Purpose) (b : UInt8) : Scan :=
  if purpose.isDocument && s.layer.parameters == 0 then s.addByte b
  else
    let layer := if s.layer.quotedParameters == 0 then
        { s.layer with quoting := .plain, inDouble := false }
      else s.layer
    let s := { s with layer, quoted := true }
    if b == 34 then s.toggle purpose else s.mark purpose

def hexValue? (b : UInt8) : Option Nat :=
  if isDigit b then some (b.toNat - 48)
  else if 97 ≤ b && b ≤ 102 then some (b.toNat - 87)
  else if 65 ≤ b && b ≤ 70 then some (b.toNat - 55)
  else none

/-- The byte that a letter behind a backslash stands for. -/
def letterEscape? (b : UInt8) : Option UInt8 :=
  if b == 97 then some 7
  else if b == 98 then some 8
  else if b == 101 || b == 69 then some 27
  else if b == 102 then some 12
  else if b == 110 then some 10
  else if b == 114 then some 13
  else if b == 116 then some 9
  else if b == 118 then some 11
  else if b == 92 || b == 39 || b == 34 || b == 63 then some b
  else none

/-- The bytes of a text in single quotes behind a dollar sign, and what is behind it. -/
def ansiQuoted : (fuel : Nat) → (reversed : Bytes) → Bytes → Bytes × Bytes
  | 0, reversed, text => (reversed.reverse, text)
  | fuel + 1, reversed, text =>
    match text with
    | [] => (reversed.reverse, [])
    | 39 :: rest => (reversed.reverse, rest)
    | 92 :: b :: rest =>
      match letterEscape? b with
      | some c => ansiQuoted fuel (c :: reversed) rest
      | none =>
        if 48 ≤ b && b ≤ 55 then
          let digits := ((b :: rest).take 3).takeWhile fun d => 48 ≤ d && d ≤ 55
          let value := digits.foldl (fun n d => 8 * n + (d.toNat - 48)) 0
          ansiQuoted fuel (UInt8.ofNat value :: reversed) ((b :: rest).drop digits.length)
        else if b == 120 then
          let digits := (rest.take 2).takeWhile fun d => (hexValue? d).isSome
          let value := digits.foldl (fun n d => 16 * n + (hexValue? d).getD 0) 0
          ansiQuoted fuel (UInt8.ofNat value :: reversed) (rest.drop digits.length)
        else ansiQuoted fuel (b :: 92 :: reversed) rest
    | b :: rest => ansiQuoted fuel (b :: reversed) rest

/-- The scan behind a text in single quotes behind a dollar sign. -/
def Scan.ansi (s : Scan) (purpose : Purpose) (inside : Reader) : Scan :=
  let (bytes, rest) := ansiQuoted (inside.rest.length + 1) [] inside.rest
  let glyphs := bytes.reverse.map (Glyph.byte true) ++ (s.mark purpose).glyphs
  { s with reader := { inside with rest }, glyphs, quoted := true }.mark purpose

/-! ## Words -/

/-- The scan is at the end of a word that only ends the word outside of parameters. -/
def Scan.mayEnd (s : Scan) : Bool := s.layer.parameters == 0

/-- What is read next is a text in single quotes behind a dollar sign. -/
def Scan.beginsAnsi (s : Scan) : Bool :=
  s.reader.dialect == .extended && s.layer.quoting == .plain &&
    [36, 39].isPrefixOf s.reader.rest

/-- Reads a word, or a document, to its end.  Every step takes at least one byte. -/
def scan (nested : Nested) (purpose : Purpose) : (fuel : Nat) → Scan → Except SyntaxError Scan
  | 0, s => .ok s
  | fuel + 1, s =>
    match s.reader.next? with
    | none => .ok s
    | some (b, after) =>
      match meaning s.layer.quoting b with
      | .ordinary => scan nested purpose fuel ((s.behind after).addByte b)
      | .newline =>
        if s.layer.quoting == .plain && s.mayEnd then .ok s
        else
          let s := (s.behind after).addByte b
          match purpose with
          | .document d =>
            let (ended, reader) := after.startLine d.mark d.stripped
            if ended then .ok (s.behind reader) else scan nested purpose fuel (s.behind reader)
          | .word | .mark => scan nested purpose fuel s
      | .escape =>
        let (ended, s) := s.escape purpose after
        if ended then .ok s else scan nested purpose fuel s
      | .singleQuote =>
        let s := { s.behind after with layer := { s.layer with quoting := .single } }
        scan nested purpose fuel (s.mark purpose)
      | .doubleQuote =>
        let layer := { s.layer with quoting := .double, inDouble := true }
        scan nested purpose fuel ({ s.behind after with layer }.toggle purpose)
      | .endQuote => scan nested purpose fuel ((s.behind after).unquote purpose b)
      | .backquote =>
        if purpose.isMark then scan nested purpose fuel ((s.behind after).addByte b)
        else
          match s.backquoted nested after with
          | .ok s => scan nested purpose fuel s
          | .error e => .error e
      | .dollar =>
        if s.beginsAnsi then
          match after.next? with
          | some (_, inside) => scan nested purpose fuel (s.ansi purpose inside)
          | none => .ok s
        else
          match s.dollar nested purpose after with
          | .ok s => scan nested purpose fuel s
          | .error e => .error e
      | .closeBrace =>
        let s := s.behind after
        scan nested purpose fuel
          (if !s.layer.innerDouble && 0 < s.layer.parameters then s.leave else s.addByte b)
      | .openParenthesis =>
        let layer := { s.layer with parentheses := s.layer.parentheses + 1 }
        scan nested purpose fuel ({ s.behind after with layer }.addByte b)
      | .closeParenthesis =>
        if 0 < s.layer.parentheses then
          let layer := { s.layer with parentheses := s.layer.parentheses - 1 }
          scan nested purpose fuel ({ s.behind after with layer }.addByte b)
        else
          match after.nextJoined? with
          | some (41, behind) =>
            scan nested purpose fuel ((s.behind behind).add .closeArithmetic).pop
          | _ => scan nested purpose fuel ((s.behind after).addByte b)
      | .separator =>
        if s.mayEnd then .ok s else scan nested purpose fuel ((s.behind after).addByte b)

def Scan.start (r : Reader) (quoting : Quoting) (inDouble : Bool) : Scan :=
  ⟨r, [], .fresh quoting inDouble, [], false⟩

/-- Nothing may be open at the end of a word or document. -/
def Scan.check (s : Scan) (purpose : Purpose) : Except SyntaxError Scan :=
  if s.layer.quoting == .arithmetic then s.reader.fail "Missing '))'"
  else if s.layer.quoting != .plain && !purpose.isDocument then
    s.reader.fail "Unterminated quoted string"
  else if s.layer.parameters != 0 then s.reader.fail r"Missing '}'"
  else .ok s

def document (nested : Nested) (d : Announcement) (r : Reader) : Except SyntaxError Reader := do
  let (ended, r) := r.startLine d.mark d.stripped
  let start := Scan.start r (if d.literal then .single else .double) (!d.literal)
  let s ← if ended then pure start
    else scan nested (.document d) (r.rest.length + 1) start
  let s ← s.check (.document d)
  let text := Word.ofGlyphs true s.glyphs.reverse
  return { s.reader with documents := s.reader.documents.setIfInBounds d.number text }

/-- Reads the documents that were announced on the line that has ended. -/
def documents (nested : Nested) (r : Reader) : Except SyntaxError Reader :=
  r.announced.foldlM (fun r d => document nested d r) { r with announced := [] }

/-! ## Tokens -/

/-- The direction that comes behind `>`, and the reader behind it. -/
def outputDirection (r : Reader) : Direction × Reader :=
  match r.nextJoined? with
  | some (62, after) => (.appending, after)
  | some (124, after) => (.overwriting, after)
  | some (38, after) => (.duplicateOutput, after)
  | _ => (.output, r.joined)

/-- The direction that comes behind `<`, and the reader behind it. -/
def inputDirection (r : Reader) : Direction × Reader :=
  match r.nextJoined? with
  | some (60, after) =>
    match after.nextJoined? with
    | some (45, behind) => (.document true, behind)
    | some (60, behind) =>
      if r.dialect == .extended then (.textLine, behind) else (.document false, after.joined)
    | _ => (.document false, after.joined)
  | some (38, after) => (.duplicateInput, after)
  | some (62, after) => (.both, after)
  | _ => (.input, r.joined)

/-- The token that begins with an angle bracket, which comes next. -/
def redirection (stream? : Option Nat) (r : Reader) : Token × Reader :=
  match r.next? with
  | some (62, after) =>
    let (direction, reader) := outputDirection after
    (.redirection (stream?.getD 1) direction, reader)
  | some (_, after) =>
    let (direction, reader) := inputDirection after
    (.redirection (stream?.getD 0) direction, reader)
  | none => (.ended, r)

/-- The token that a scanned word is: a single digit before an angle bracket is the number of
the stream that is redirected. -/
def ofScan (s : Scan) : Token × Reader :=
  let stream? : Option (Option Nat) :=
    match s.glyphs with
    | [] => if s.quoted then none else some none
    | [.byte false d] => if isDigit d && !s.quoted then some (some (d.toNat - 48)) else none
    | _ => none
  match stream?, s.reader.rest with
  | some stream?, 60 :: _ | some stream?, 62 :: _ => redirection stream? s.reader
  | _, _ => (.word s.glyphs.reverse s.quoted, s.reader)

/-- The operator that begins with a byte, and the one if the byte comes twice. -/
def operators : List (UInt8 × String × String) :=
  [(38, "&", "&&"), (124, "|", "||"), (59, ";", ";;")]

/-- The redirection of everything, which only the extended language has. -/
def everything? (r : Reader) : Option (Token × Reader) :=
  if r.dialect != .extended then none
  else
    match r.rest with
    | 38 :: 62 :: 62 :: rest => some (.redirection 1 (.everything true), { r with rest })
    | 38 :: 62 :: rest => some (.redirection 1 (.everything false), { r with rest })
    | _ => none

/-- The reader behind blanks and comments. -/
def skipBlanks : (fuel : Nat) → Reader → Reader
  | 0, r => r
  | fuel + 1, r =>
    let r := r.joined
    match r.rest with
    | 32 :: rest | 9 :: rest => skipBlanks fuel { r with rest }
    | 35 :: rest => { r with rest := rest.dropWhile (· != 10) }
    | _ => r

def token (nested : Nested) (purpose : Purpose) (r : Reader) :
    Except SyntaxError (Token × Reader) :=
  match r.returned with
  | some t => .ok (t, { r with returned := none })
  | none =>
    let r := skipBlanks (r.rest.length + 1) r
    match everything? r with
    | some result => .ok result
    | none =>
      match r.next? with
      | none => .ok (.ended, r)
      | some (10, after) => .ok (.newline, after)
      | some (40, after) => .ok (.operator "(", after)
      | some (41, after) => .ok (.operator ")", after)
      | some (b, after) =>
        match operators.lookup b with
        | some (single, double) =>
          match after.nextJoined? with
          | some (c, behind) =>
            if c == b then .ok (.operator double, behind) else .ok (.operator single, after.joined)
          | none => .ok (.operator single, after)
        | none => do
          let s ← scan nested purpose (r.rest.length + 1) (.start r .plain false)
          return ofScan (← s.check purpose)

end WasmPackager.Shell.Lexer
