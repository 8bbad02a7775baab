/-
# `Shell.Script` — shell scripts as trees

The commands that a child of the packager can be a script of.  A word is a list
of parts, because only some of it may be quoted and some of it may stand for
something else.  `Shell.Grammar` makes these trees of text and
`Shell.Evaluate` does what they say.

The text of a document that stands in a script behind the command it is for is
not part of the tree; the tree holds its number.
-/
import WasmPackager.Bytes

namespace WasmPackager.Shell

/-- The language a shell reads. -/
inductive Dialect
  /-- What every shell understands. -/
  | common
  /-- With tests in double brackets, lists in braces, documents on one line and so on. -/
  | extended
deriving DecidableEq

/-- What takes the place of a parameter. -/
inductive Use
  | value
  | length
  /-- The word, if the parameter is missing, or empty where that counts as missing. -/
  | fallback (orEmpty : Bool)
  /-- As `fallback`, and the parameter keeps the word. -/
  | assignment (orEmpty : Bool)
  /-- The value, which must not be missing. -/
  | demand (orEmpty : Bool)
  /-- The word, unless the parameter is missing. -/
  | alternative (orEmpty : Bool)
  /-- The value without the shortest or longest beginning or end that has the word's form. -/
  | trim (atEnd longest : Bool)
  /-- The value with a form replaced; the word holds both, with a slash between them. -/
  | replacement (everywhere : Bool)
  /-- A piece of the value; the word tells where it begins and how long it is. -/
  | slice
  /-- The value with its first letter, or all letters, made big or small. -/
  | letters (big everywhere : Bool)
  /-- Nothing that makes sense. -/
  | nonsense
deriving DecidableEq

mutual

/-- A piece of a word. -/
inductive Part
  | text (quoted : Bool) (bytes : Bytes)
  /-- A quote mark: a word that has one stands for something, be it empty. -/
  | quoteMark
  | parameter (quoted : Bool) (name : Bytes) (use : Use) (word : List Part)
  | arithmetic (quoted : Bool) (expression : List Part)
  /-- The output of a script. -/
  | substitution (quoted : Bool) (script : Option Script)

/-- A change of where a stream of a command goes to or comes from. -/
inductive Redirection
  | input (stream : Nat) (path : List Part)
  | output (stream : Nat) (path : List Part)
  /-- Also where a file must not be overwritten. -/
  | overwriting (stream : Nat) (path : List Part)
  | appending (stream : Nat) (path : List Part)
  | both (stream : Nat) (path : List Part)
  /-- The stream goes where another one goes, or nowhere. -/
  | duplicate (stream : Nat) (other : List Part)
  /-- The stream comes from the document of the given number. -/
  | document (stream : Nat) (number : Nat)
  /-- The stream comes from a text. -/
  | textLine (stream : Nat) (text : List Part)
  /-- Results and complaints go to the same file. -/
  | everything (append : Bool) (path : List Part)

/-- A script. -/
inductive Script
  | command (line : Nat) (assignments : List (Bytes × List Part)) (words : List (List Part))
      (redirections : List Redirection)
  | sequence (scripts : List Script)
  | conjunction (first second : Script)
  | disjunction (first second : Script)
  | negation (script : Script)
  | pipeline (scripts : List Script)
  /-- Runs beside what follows. -/
  | background (script : Script)
  | subshell (script : Script) (redirections : List Redirection)
  | redirected (line : Nat) (script : Script) (redirections : List Redirection)
  | conditional (condition onSuccess : Script) (onFailure : Option Script)
  /-- Repeats the body as long as the condition succeeds, or with `untilSuccess` fails. -/
  | loop (untilSuccess : Bool) (condition body : Script)
  /-- Runs the body for each field of the words. -/
  | each (line : Nat) (name : Bytes) (words : List (List Part)) (body : Script)
  /-- Runs the script of the first arm one of whose patterns matches. -/
  | choice (line : Nat) (subject : List Part) (arms : List (List (List Part) × Option Script))
  | function (name : Bytes) (body : Script)
  /-- A test in double brackets. -/
  | trial (line : Nat) (words : List (List Part))
  /-- An expression in double parentheses. -/
  | calculation (line : Nat) (expression : List Part)
  /-- A loop that is controlled by three expressions. -/
  | counted (line : Nat) (start condition step : List Part) (body : Script)

end

abbrev Word := List Part

instance : Inhabited Script := ⟨.command 0 [] [] []⟩

def beginsName (b : UInt8) : Bool := isWord b && !(48 ≤ b && b ≤ 57)

def isName (s : Bytes) : Bool :=
  match s with
  | [] => false
  | b :: _ => beginsName b && s.all isWord

/-- The arguments, each a field of its own: what is run through if nothing else is said. -/
def Word.arguments : Word := [.quoteMark, .parameter true (ascii "@") .value [], .quoteMark]

/-- The name and the value of a word that begins with a name and an equals sign. -/
def Word.assignment? : Word → Option (Bytes × Word)
  | .text false bytes :: rest =>
    let name := bytes.takeWhile isWord
    match bytes.drop name.length with
    | 61 :: value =>
      if isName name then some (name, (if value.isEmpty then [] else [.text false value]) ++ rest)
      else none
    | _ => none
  | _ => none

end WasmPackager.Shell
