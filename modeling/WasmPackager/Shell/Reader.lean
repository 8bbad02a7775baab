/-
# `Shell.Reader` — the text of a script while it is read

What is left of the text, and what was found in it that concerns later lines:
the documents that were announced and have not been read, and the names that
stand for other text.  A backslash before the end of a line joins the line with
the next one wherever tokens are read.
-/
import WasmPackager.Shell.Glyph

namespace WasmPackager.Shell

/-- Why a text is not a script. -/
structure SyntaxError where
  line : Nat
  message : Bytes

/-- How every complaint about a text that is no script begins. -/
def SyntaxError.introduction : Bytes := ascii "Syntax error: "

/-- A document that was announced. -/
structure Announcement where
  number : Nat
  /-- The line that ends the document. -/
  mark : Bytes
  /-- Tabs at the beginning of lines do not count. -/
  stripped : Bool
  /-- The document is not expanded. -/
  literal : Bool

/-- How a redirection begins. -/
inductive Direction
  | input
  | output
  | overwriting
  | appending
  | both
  | duplicateInput
  | duplicateOutput
  | document (stripped : Bool)
  | textLine
  | everything (append : Bool)
deriving DecidableEq

/-- A token of a script. -/
inductive Token
  | ended
  | newline
  | operator (text : String)
  | keyword (text : String)
  | redirection (stream : Nat) (direction : Direction)
  /-- A word, and whether something in it is quoted. -/
  | word (glyphs : List Glyph) (quoted : Bool)

/-- A text that is being read as a script. -/
structure Reader where
  rest : Bytes
  line : Nat
  dialect : Dialect
  /-- A token that was read and given back. -/
  returned : Option Token
  /-- The documents that begin behind the current line, the first one first. -/
  announced : List Announcement
  /-- The documents read so far. -/
  documents : Array Word
  /-- The names that stand for other text at the beginning of a command. -/
  aliases : List (Bytes × Bytes)
  /-- Those that were replaced, with how much text was left behind them then. -/
  replaced : List (Bytes × Nat)

namespace Reader

def ofText (dialect : Dialect) (text : Bytes) : Reader := ⟨text, 1, dialect, none, [], #[], [], []⟩

/-- The next byte, and the reader behind it. -/
def next? (r : Reader) : Option (UInt8 × Reader) :=
  match r.rest with
  | [] => none
  | b :: rest => some (b, { r with rest, line := if b == 10 then r.line + 1 else r.line })

/-- The text without the joints of lines at its beginning, and how many there were. -/
def skipJoints : (joints : Nat) → Bytes → Nat × Bytes
  | n, 92 :: 10 :: rest => skipJoints (n + 1) rest
  | n, text => (n, text)

/-- The reader behind the joints of lines that come next. -/
def joined (r : Reader) : Reader :=
  match r.rest with
  | 92 :: 10 :: _ =>
    let (joints, rest) := skipJoints 0 r.rest
    { r with rest, line := r.line + joints }
  | _ => r

/-- The next byte behind joints of lines, and the reader behind it. -/
def nextJoined? (r : Reader) : Option (UInt8 × Reader) := r.joined.next?

/-- Takes the bytes of a class that come next. -/
def takeJoined (p : UInt8 → Bool) : (fuel : Nat) → (reversed : Bytes) → Reader → Bytes × Reader
  | 0, reversed, r => (reversed.reverse, r)
  | fuel + 1, reversed, r =>
    match r.nextJoined? with
    | some (b, after) =>
      if p b then takeJoined p fuel (b :: reversed) after else (reversed.reverse, r.joined)
    | none => (reversed.reverse, r.joined)

/-- Takes the longest beginning whose bytes are of a class. -/
def takeClass (r : Reader) (p : UInt8 → Bool) : Bytes × Reader :=
  takeJoined p (r.rest.length + 1) [] r

def fail {α : Type} (r : Reader) (message : String) : Except SyntaxError α :=
  .error ⟨r.line, SyntaxError.introduction ++ ascii message⟩

/-- The reader at the beginning of a line of a document, behind the tabs that do not count, and
whether the document ended with this line, which is passed then. -/
def startLine (r : Reader) (mark : Bytes) (stripped : Bool) : Bool × Reader :=
  let text := if stripped then r.rest.dropWhile (· == 9) else r.rest
  if mark.isPrefixOf text then
    match text.drop mark.length with
    | [] => (true, { r with rest := [] })
    | 10 :: rest => (true, { r with rest, line := r.line + 1 })
    | _ => (false, { r with rest := text })
  else (false, { r with rest := text })

end Reader

namespace Token

/-- The words with a meaning of their own at the beginning of a command. -/
def keywords : List String :=
  ["!", "case", "do", "done", "elif", "else", "esac", "fi", "for", "if", "in", "then", "until",
   "while", r"{", r"}"]

def describe : Token → Bytes
  | ended => ascii "end of file"
  | newline => ascii "newline"
  | operator text | keyword text => ascii ("\"" ++ text ++ "\"")
  | redirection .. => ascii "redirection"
  | word .. => ascii "word"

/-- The bytes of a word without its quotes, if it stands for nothing else. -/
def bytesOf (glyphs : List Glyph) : Bytes :=
  glyphs.flatMap fun
    | .byte _ b => [b]
    | .quoteMark | .openParameter .. | .parameter _ | .closeParameter | .openArithmetic
    | .closeArithmetic | .substitution _ => []

/-- The bytes of a word that is written plainly. -/
def plain? : Token → Option Bytes
  | word glyphs false =>
    if glyphs.all (fun | .byte .. => true | _ => false) then some (bytesOf glyphs) else none
  | _ => none

/-- The keyword that a token is where keywords are expected. -/
def asKeyword (t : Token) : Token :=
  match t.plain? with
  | some bytes =>
    match keywords.find? fun k => ascii k == bytes with
    | some k => keyword k
    | none => t
  | none => t

def endsList : Token → Bool
  | ended => true
  | operator text => text == ")" || text == ";;"
  | keyword text => ["do", "done", "elif", "else", "esac", "fi", "then", r"}"].contains text
  | newline | redirection .. | word .. => false

end Token
end WasmPackager.Shell
