/-
# `Shell.Grammar` — how commands are put together

A shell reads one complete command, does it, and only then reads on, so what is
wrong further down does not keep what stands above from being done.  A list of
commands goes on to the end of the line, or within a compound command to the
word that ends it.

Compound commands contain lists and lists contain compound commands; the
recursion carries a fuel, of which every level of nesting needs one.
-/
import WasmPackager.Shell.Lexer

namespace WasmPackager.Shell.Grammar

abbrev Parse (α : Type) := StateT Reader (Except SyntaxError) α

/-- What the next token can be. -/
structure Expecting where
  /-- Line feeds in front of it do not count. -/
  newlines : Bool
  keywords : Bool
  aliases : Bool

namespace Expecting

def plain : Expecting := ⟨false, false, false⟩

def beginning : Expecting := ⟨false, true, true⟩

/-- The beginning of a command, perhaps on a later line. -/
def anywhere : Expecting := ⟨true, true, true⟩

end Expecting

/-- How a list of commands ends. -/
inductive Extent
  /-- With the line. -/
  | line
  /-- With the word that ends the compound command around it, and it must not be empty. -/
  | inner
  /-- As `inner`, but it may be empty. -/
  | optional
deriving DecidableEq

/-- What the recursion reads. -/
inductive Construct
  | list (extent : Extent)
  | command (expecting : Expecting)

abbrev Inside := Construct → Parse (Option Script)

/-- Reads something that is not a script here. -/
def fail {α : Type} (message : Bytes) : Parse α := do
  throw ⟨(← get).line, SyntaxError.introduction ++ message⟩

def unexpected {α : Type} (t : Token) (expected : Option String) : Parse α :=
  fail (t.describe ++ ascii " unexpected" ++ (match expected with
    | some e => ascii (" (expecting \"" ++ e ++ "\")")
    | none => []))

def nested (inside : Inside) : Lexer.Nested := fun parenthesised r => do
  let (script, r) ← (inside (.list .optional)).run r
  if parenthesised then
    let read : Lexer.Nested := fun _ r => r.fail "nested"
    let (t, r) ← Lexer.token read .word r
    match t with
    | .operator ")" => return (script, { r with returned := none })
    | t => ((unexpected t (some ")") : Parse (Option Script)).run r)
  else return (script, r)

/-! ## Tokens -/

def giveBack (t : Token) : Parse Unit := modify ({ · with returned := some t })

def rawToken (inside : Inside) (purpose : Lexer.Purpose) : Parse Token := fun r =>
  Lexer.token (nested inside) purpose r

/-- Reads the documents that were announced on the line that ends. -/
def readDocuments (inside : Inside) : Parse Unit := fun r => do
  return ((), ← Lexer.documents (nested inside) r)

/-- Reads the next token behind line feeds. -/
def skipNewlines (inside : Inside) : (fuel : Nat) → Token → Parse Token
  | fuel + 1, .newline => do
    readDocuments inside
    skipNewlines inside fuel (← rawToken inside .word)
  | _, t => return t

/-- The text a word stands for at the beginning of a command.  A text does not stand for itself
again while it is read. -/
def aliasOf? (r : Reader) (t : Token) : Option Bytes := do
  let word ← t.plain?
  if r.replaced.any fun (name, left) => name == word && left ≤ r.rest.length then none
  else r.aliases.lookup word

def readToken (inside : Inside) (expecting : Expecting) : (fuel : Nat) → Parse Token
  | 0 => do fail (ascii "too many aliases")
  | fuel + 1 => do
    let mut t ← rawToken inside .word
    if expecting.newlines then t ← skipNewlines inside ((← get).rest.length + 2) t
    let asKeyword := if expecting.keywords then t.asKeyword else t
    if let .keyword _ := asKeyword then return asKeyword
    if expecting.aliases then
      let r ← get
      if let (some text, some word) := (aliasOf? r t, t.plain?) then
        set { r with
          rest := text ++ r.rest
          replaced := (word, r.rest.length) :: r.replaced.filter (·.2 ≤ r.rest.length) }
        return ← readToken inside expecting fuel
    return t

/-- How many names in a row can stand for other text. -/
def aliasLimit : Nat := 100

def read (inside : Inside) (expecting : Expecting) : Parse Token :=
  readToken inside expecting aliasLimit

/-- Reads a token that must be a certain keyword. -/
def expectKeyword (inside : Inside) (expecting : Expecting) (keyword : String) : Parse Unit := do
  match ← read inside expecting with
  | .keyword k => if k == keyword then return () else unexpected (.keyword k) (some keyword)
  | t => unexpected t (some keyword)

def readWord (inside : Inside) : Parse (List Glyph × Bool) := do
  match ← read inside .plain with
  | .word glyphs quoted => return (glyphs, quoted)
  | t => unexpected t none

/-- The word made of glyphs that were read. -/
def wordOf (glyphs : List Glyph) : Word := Word.ofGlyphs false glyphs

/-! ## Redirections -/

/-- Reads the word that ends a document, and announces the document. -/
def announce (inside : Inside) (stripped : Bool) : Parse Nat := do
  match ← rawToken inside .mark with
  | .word glyphs quoted =>
    let r ← get
    let number := r.documents.size
    let announcement : Announcement := ⟨number, Token.bytesOf glyphs, stripped, quoted⟩
    set { r with
      documents := r.documents.push []
      announced := r.announced ++ [announcement] }
    return number
  | t => unexpected t none

/-- Reads what a redirection that was begun leads to. -/
def redirection (inside : Inside) (stream : Nat) (direction : Direction) : Parse Redirection :=
  match direction with
  | .document stripped => return .document stream (← announce inside stripped)
  | .input => return .input stream (wordOf (← readWord inside).1)
  | .output => return .output stream (wordOf (← readWord inside).1)
  | .overwriting => return .overwriting stream (wordOf (← readWord inside).1)
  | .appending => return .appending stream (wordOf (← readWord inside).1)
  | .both => return .both stream (wordOf (← readWord inside).1)
  | .textLine => return .textLine stream (wordOf (← readWord inside).1)
  | .everything append => return .everything append (wordOf (← readWord inside).1)
  | .duplicateInput | .duplicateOutput =>
    return .duplicate stream (wordOf (← readWord inside).1)

/-- Reads the redirections that come next. -/
def redirections (inside : Inside) : (fuel : Nat) → Expecting → Parse (List Redirection)
  | 0, _ => return []
  | fuel + 1, expecting => do
    match ← read inside expecting with
    | .redirection stream direction =>
      let first ← redirection inside stream direction
      return first :: (← redirections inside fuel .plain)
    | t => giveBack t; return []

/-! ## Simple commands -/

/-- A simple command while it is read, everything with the last one first. -/
structure Simple where
  line : Nat
  assignments : List (Bytes × Word)
  words : List Word
  /-- The first word, if it is written plainly. -/
  name : Option Bytes
  redirections : List Redirection

def Simple.finish (c : Simple) : Script :=
  .command c.line c.assignments.reverse c.words.reverse c.redirections.reverse

/-- The shell's own commands after which no function can be called. -/
def reserved : List Bytes :=
  ["break", "continue", ".", "eval", "exec", "exit", "export", "readonly", "return", "set",
   "shift", "times", "trap", "unset", ":"].map ascii

/-- Reads the body of a function of the given name. -/
def functionBody (inside : Inside) (name : Option Bytes) : Parse Script := do
  match name with
  | some name =>
    if !isName name || reserved.contains name then fail (ascii "Bad function name")
    else
      match ← inside (.command .anywhere) with
      | some body => return .function name body
      | none => fail (ascii "Bad function name")
  | none => fail (ascii "Bad function name")

/-- Reads on a simple command.  Words that assign to a variable can only be in front. -/
def simple (inside : Inside) : (fuel : Nat) → Expecting → Simple → Parse Script
  | 0, _, c => return c.finish
  | fuel + 1, expecting, c => do
    match ← read inside expecting with
    | .word glyphs quoted =>
      let word := wordOf glyphs
      match if c.words.isEmpty then word.assignment? else none with
      | some assignment =>
        simple inside fuel ⟨false, false, true⟩
          { c with assignments := assignment :: c.assignments }
      | none =>
        let name := if c.words.isEmpty then (Token.word glyphs quoted).plain? else c.name
        simple inside fuel .plain { c with words := word :: c.words, name }
    | .redirection stream direction =>
      let r ← redirection inside stream direction
      simple inside fuel (if c.words.isEmpty then ⟨false, false, true⟩ else .plain)
        { c with redirections := r :: c.redirections }
    | .operator "(" =>
      if c.words.length == 1 && c.assignments.isEmpty && c.redirections.isEmpty then
        match ← read inside .plain with
        | .operator ")" => functionBody inside c.name
        | t => unexpected t (some ")")
      else giveBack (.operator "("); return c.finish
    | t => giveBack t; return c.finish

/-! ## The extended language -/

/-- Reads the words of a test in double brackets. -/
def trialWords (inside : Inside) : (fuel : Nat) → (reversed : List Word) → Parse (List Word)
  | 0, _ => fail (ascii "unterminated test")
  | fuel + 1, reversed => do
    let operator (text : Bytes) : Word := [.text false text]
    match ← read inside ⟨true, false, false⟩ with
    | .word glyphs quoted =>
      if (Token.word glyphs quoted).plain? == some (ascii "]]") then return reversed.reverse
      else trialWords inside fuel (wordOf glyphs :: reversed)
    | .operator text => trialWords inside fuel (operator (ascii text) :: reversed)
    | .redirection _ .input => trialWords inside fuel (operator [60] :: reversed)
    | .redirection _ .output => trialWords inside fuel (operator [62] :: reversed)
    | t => unexpected t (some "]]")

/-- Reads an expression up to two closing parentheses. -/
def expression (inside : Inside) : Parse Word := fun r => do
  let start := Lexer.Scan.start r .arithmetic true
  let s ← Lexer.scan (nested inside) .word (r.rest.length + 1)
    { start with glyphs := [.openArithmetic], outer := [.fresh .plain false] }
  let s ← s.check .word
  return (wordOf s.glyphs.reverse, { s.reader with returned := none })

/-- An expression is read next, of which the first parenthesis was read. -/
def beginsExpression (r : Reader) : Bool :=
  r.dialect == .extended && r.returned.isNone && r.rest.head? == some 40

/-- Cuts the text of an expression at its semicolons. -/
def cutExpression (parts : List Part) : List Word :=
  parts.foldr (fun part pieces =>
    match part, pieces with
    | .text quoted bytes, first :: rest =>
      match (Bytes.splitOn 59 bytes).reverse with
      | last :: before =>
        before.foldl (fun pieces piece => [.text quoted piece] :: pieces)
          ((.text quoted last :: first) :: rest)
      | [] => pieces
    | part, first :: rest => (part :: first) :: rest
    | part, [] => [[part]]) [[]]

/-! ## Compound commands -/

def innerList (inside : Inside) : Parse Script := do
  match ← inside (.list .inner) with
  | some script => return script
  | none => return .sequence []

/-- Reads the rest of a conditional, behind its first word. -/
def conditional (inside : Inside) : (fuel : Nat) → Parse Script
  | 0 => fail (ascii "too many conditions")
  | fuel + 1 => do
    let condition ← innerList inside
    expectKeyword inside .plain "then"
    let onSuccess ← innerList inside
    match ← read inside .plain with
    | .keyword "elif" =>
      return .conditional condition onSuccess (some (← conditional inside fuel))
    | .keyword "else" =>
      let onFailure ← innerList inside
      expectKeyword inside .plain "fi"
      return .conditional condition onSuccess (some onFailure)
    | .keyword "fi" => return .conditional condition onSuccess none
    | t => unexpected t (some "fi")

/-- Reads the words up to the end of the line or a semicolon. -/
def wordsToEnd (inside : Inside) : (fuel : Nat) → (reversed : List Word) → Parse (List Word)
  | 0, reversed => return reversed.reverse
  | fuel + 1, reversed => do
    match ← read inside .plain with
    | .word glyphs _ => wordsToEnd inside fuel (wordOf glyphs :: reversed)
    | .newline => giveBack .newline; return reversed.reverse
    | .operator ";" => return reversed.reverse
    | t => unexpected t none

def loopBody (inside : Inside) (expecting : Expecting) : Parse Script := do
  expectKeyword inside expecting "do"
  let body ← innerList inside
  expectKeyword inside .plain "done"
  return body

/-- Reads a loop controlled by three expressions, behind its first parenthesis. -/
def countedLoop (inside : Inside) (line : Nat) : Parse Script := do
  modify fun r => { r with rest := r.rest.drop 1 }
  let pieces := match ← expression inside with
    | [.arithmetic _ parts] => cutExpression parts
    | word => [word]
  let part (i : Nat) : Word :=
    match pieces[i]? with
    | some piece => [.arithmetic false piece]
    | none => []
  match ← read inside .anywhere with
  | .operator ";" => return .counted line (part 0) (part 1) (part 2) (← loopBody inside .anywhere)
  | t =>
    giveBack t
    return .counted line (part 0) (part 1) (part 2) (← loopBody inside .anywhere)

/-- Reads the rest of a loop over words, behind its first word. -/
def each (inside : Inside) (line : Nat) : Parse Script := do
  let first ← read inside .plain
  match first, beginsExpression (← get) with
  | .operator "(", true => countedLoop inside line
  | _, _ =>
    match first.plain? with
    | some name =>
      if !isName name then fail (ascii "Bad for loop variable")
      else
        match ← read inside .anywhere with
        | .keyword "in" =>
          let words ← wordsToEnd inside ((← get).rest.length + 2) []
          return .each line name words (← loopBody inside .anywhere)
        | .operator ";" => return .each line name [Word.arguments] (← loopBody inside .anywhere)
        | t =>
          giveBack t
          return .each line name [Word.arguments] (← loopBody inside .anywhere)
    | none => fail (ascii "Bad for loop variable")

/-- Reads the patterns of an arm, of which the first one was read. -/
def patterns (inside : Inside) : (fuel : Nat) → Token → Parse (List Word)
  | 0, _ => fail (ascii "too many patterns")
  | fuel + 1, t => do
    let word : Word := match t with
      | .word glyphs _ => wordOf glyphs
      | .keyword k => [.text false (ascii k)]
      | _ => []
    match ← read inside .plain with
    | .operator "|" => return word :: (← patterns inside fuel (← read inside .plain))
    | .operator ")" => return [word]
    | t => unexpected t (some ")")

def arms (inside : Inside) : (fuel : Nat) → Parse (List (List Word × Option Script))
  | 0 => fail (ascii "too many arms")
  | fuel + 1 => do
    match ← read inside ⟨true, true, false⟩ with
    | .keyword "esac" => return []
    | t =>
      let first ← match t with
        | .operator "(" => read inside .plain
        | t => pure t
      let forms ← patterns inside ((← get).rest.length + 2) first
      let body ← inside (.list .optional)
      match ← read inside ⟨true, true, false⟩ with
      | .keyword "esac" => return [(forms, body)]
      | .operator ";;" => return (forms, body) :: (← arms inside fuel)
      | t => unexpected t (some ";;")

/-- Reads the rest of a choice, behind its first word. -/
def choice (inside : Inside) (line : Nat) : Parse Script := do
  match ← read inside .plain with
  | .word glyphs _ =>
    match ← read inside .anywhere with
    | .keyword "in" =>
      return .choice line (wordOf glyphs) (← arms inside ((← get).rest.length + 2))
    | t => unexpected t (some "in")
  | t => unexpected t none

/-- Reads the rest of a function that is announced by a word, behind that word. -/
def announcedFunction (inside : Inside) : Parse Script := do
  let (glyphs, quoted) ← readWord inside
  match ← read inside .anywhere with
  | .operator "(" =>
    match ← read inside .plain with
    | .operator ")" => functionBody inside (Token.word glyphs quoted).plain?
    | t => unexpected t (some ")")
  | t =>
    giveBack t
    functionBody inside (Token.word glyphs quoted).plain?

/-- The script with redirections around it. -/
def around (line : Nat) (script : Script) (redirections : List Redirection) : Script :=
  if redirections.isEmpty then script
  else
    match script with
    | .subshell inner [] => .subshell inner redirections
    | script => .redirected line script redirections

/-- Reads a command of the extended language whose first word is given. -/
def extended? (inside : Inside) (line : Nat) (t : Token) : Option (Parse Script) :=
  match t.plain? with
  | some word =>
    if word == ascii "[[" then
      some do return .trial line (← trialWords inside ((← get).rest.length + 2) [])
    else if word == ascii "function" then some (announcedFunction inside)
    else none
  | none => none

/-- Reads the compound command that begins with a token, if one does. -/
def compound? (inside : Inside) (line : Nat) (r : Reader) (t : Token) : Option (Parse Script) :=
  match t with
  | .keyword "if" => some do conditional inside ((← get).rest.length + 2)
  | .keyword "while" =>
    some do return .loop false (← innerList inside) (← loopBody inside .plain)
  | .keyword "until" =>
    some do return .loop true (← innerList inside) (← loopBody inside .plain)
  | .keyword "for" => some (each inside line)
  | .keyword "case" => some (choice inside line)
  | .keyword r"{" => some do
    let body ← innerList inside
    expectKeyword inside .plain r"}"
    return body
  | .operator "(" =>
    if beginsExpression r then some do
      modify fun r => { r with rest := r.rest.drop 1 }
      return .calculation line (← expression inside)
    else some do
      let body ← innerList inside
      match ← read inside .plain with
      | .operator ")" => return .subshell body []
      | t => unexpected t (some ")")
  | t => if r.dialect == .extended then extended? inside line t else none

def command (inside : Inside) (expecting : Expecting) : Parse Script := do
  let t ← read inside expecting
  let r ← get
  match compound? inside r.line r t with
  | some body =>
    let script ← body
    return around r.line script (← redirections inside ((← get).rest.length + 2) .beginning)
  | none =>
    match t with
    | .word .. | .redirection .. =>
      giveBack t
      simple inside (r.rest.length + 2) ⟨false, false, true⟩ ⟨r.line, [], [], none, []⟩
    | t => unexpected t none

/-! ## Lists -/

/-- Reads the further commands of a pipeline. -/
def pipelineRest (inside : Inside) : (fuel : Nat) → Parse (List Script)
  | 0 => return []
  | fuel + 1 => do
    match ← read inside .plain with
    | .operator "|" =>
      let next ← command inside .anywhere
      return next :: (← pipelineRest inside fuel)
    | t => giveBack t; return []

def pipeline (inside : Inside) (expecting : Expecting) : Parse Script := do
  let t ← read inside expecting
  let negated := match t with
    | .keyword "!" => true
    | _ => false
  if !negated then giveBack t
  let first ← command inside (if negated then .beginning else .plain)
  let rest ← pipelineRest inside ((← get).rest.length + 2)
  let script := if rest.isEmpty then first else .pipeline (first :: rest)
  return if negated then .negation script else script

/-- Reads the pipelines that are joined to one that was read. -/
def joints (inside : Inside) : (fuel : Nat) → Script → Parse Script
  | 0, script => return script
  | fuel + 1, script => do
    match ← read inside .plain with
    | .operator "&&" =>
      let next ← pipeline inside .anywhere
      joints inside fuel (.conjunction script next)
    | .operator "||" =>
      let next ← pipeline inside .anywhere
      joints inside fuel (.disjunction script next)
    | t => giveBack t; return script

def inOrder (reversed : List Script) : Option Script :=
  match reversed with
  | [] => none
  | [script] => some script
  | scripts => some (.sequence scripts.reverse)

/-- Reads on a list of which the given scripts were read, the last one first. -/
def list (inside : Inside) (extent : Extent) : (fuel : Nat) → (reversed : List Script) →
    Parse (Option Script)
  | 0, reversed => return inOrder reversed
  | fuel + 1, reversed => do
    match ← read inside ⟨extent != .line, true, true⟩ with
    | .newline => readDocuments inside; return inOrder reversed
    | .ended => readDocuments inside; giveBack .ended; return inOrder reversed
    | t =>
      giveBack t
      if (extent == .optional || (!reversed.isEmpty && extent == .inner)) && t.endsList then
        return inOrder reversed
      let script ← joints inside ((← get).rest.length + 2) (← pipeline inside .plain)
      match ← read inside .plain with
      | .operator "&" => list inside extent fuel (.background script :: reversed)
      | .operator ";" => list inside extent fuel (script :: reversed)
      | .newline => giveBack .newline; list inside extent fuel (script :: reversed)
      | .ended => readDocuments inside; giveBack .ended; return inOrder (script :: reversed)
      | t =>
        if extent == .line then unexpected t none
        else giveBack t; return inOrder (script :: reversed)

/-! ## Scripts -/

/-- Reads a construct, with a level of nesting for every unit of fuel. -/
def construct : (fuel : Nat) → Construct → Parse (Option Script)
  | 0, _ => fail (ascii "nested too deeply")
  | fuel + 1, .list extent => do
    list (construct fuel) extent ((← get).rest.length + 2) []
  | fuel + 1, .command expecting => do return some (← command (construct fuel) expecting)

def depth : Nat := 2000

/-- What reading on a text gives. -/
inductive Reading
  /-- A line, which can be empty. -/
  | script (script : Option Script) (reader : Reader)
  | ended
  | wrong (error : SyntaxError)

def isAtEnd (r : Reader) : Bool :=
  match r.returned with
  | some .ended => true
  | some _ => false
  | none => (Lexer.skipBlanks (r.rest.length + 1) r).rest.isEmpty

def next (r : Reader) : Reading :=
  let r := { r with returned := none }
  if isAtEnd r then .ended
  else
    match (construct depth (.list .line)).run r with
    | .ok (script, r) => .script script r
    | .error e => .wrong e

end WasmPackager.Shell.Grammar
