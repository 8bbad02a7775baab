/-
# `Shell.Fields` — what an expanded word is made into

Expanding a word gives pieces.  Only the pieces that come from values are split
into fields; what was written in the script stays together, and so does what
is quoted.  Fields keep in mind which of their bytes are quoted, because a
field can be a pattern for the names of files.
-/
import WasmPackager.Shell.Pattern

namespace WasmPackager.Shell

/-- A piece of an expanded word. -/
inductive Piece
  /-- Text that stays together. -/
  | text (quoted : Bool) (bytes : Bytes)
  /-- Values that are split, and between two of which there is a border. -/
  | values (parts : List Bytes)
  /-- Arguments that stay together; each but the first begins a field and each but the last ends
  one, be it empty. -/
  | arguments (parts : List Bytes)
  /-- A quote mark: the field is there, be it empty. -/
  | mark

/-- Fields while they are put together. -/
structure Splitting where
  /-- The finished fields, the last one first. -/
  fields : List (List Letter)
  /-- The letters of the field at hand, the last one first. -/
  letters : List Letter
  /-- The field at hand is there. -/
  present : Bool
  /-- The last piece was separated from others by firm borders, so the field at hand is there
  in any case. -/
  firm : Bool
  /-- A separator that is not a blank may still belong to the blanks before it. -/
  afterBlank : Bool

namespace Splitting

def none : Splitting := ⟨[], [], false, false, false⟩

def cut (s : Splitting) : Splitting :=
  { s with fields := s.letters.reverse :: s.fields, letters := [], present := false }

/-- Nothing of the field at hand was found yet. -/
def isFresh (s : Splitting) : Bool := !s.present && s.letters.isEmpty

def add (s : Splitting) (letter : Letter) : Splitting :=
  { s with letters := letter :: s.letters, present := true }

/-- Blanks separate without being seen themselves. -/
def isBlank (b : UInt8) : Bool := b == 32 || b == 9 || b == 10

/-- A byte of a value, or a border if none is given.  `skipping` tells that a separator has just
ended a field. -/
def step (separators : Bytes) (s : Splitting) (skipping : Bool) (b? : Option UInt8) :
    Splitting × Bool :=
  let separates := match b? with
    | some b => separators.contains b
    | Option.none => true
  let blank := match b? with
    | some b => isBlank b
    | Option.none => true
  if !separates then
    match b? with
    | some b => (s.add (false, b), false)
    | Option.none => (s, false)
  else if skipping && blank then (s, true)
  else if skipping && s.afterBlank then ({ s with afterBlank := false }, true)
  else if s.isFresh && blank then (s, false)
  else ({ s.cut with afterBlank := blank }, true)

def addText (s : Splitting) (quoted : Bool) (bytes : Bytes) : Splitting :=
  bytes.foldl (fun s b => s.add (quoted, b)) s

/-- One more value, and whether a separator ended it. -/
def addValue (separators : Bytes) (s : Splitting) (skipping : Bool) (bytes : Bytes) :
    Splitting × Bool :=
  bytes.foldl (fun (s, skipping) b => step separators s skipping (some b)) (s, skipping)

def addValues (separators : Bytes) : Splitting × Bool → List Bytes → Splitting
  | (s, _), [] => s
  | (s, skipping), bytes :: rest =>
    let (s, skipping) := step separators s skipping Option.none
    addValues separators (addValue separators s skipping bytes) rest

def take (separators : Bytes) (s : Splitting) : Piece → Splitting
  | .text quoted bytes => s.addText quoted bytes
  | .mark => { s with present := true }
  | .values [] => s
  | .values (bytes :: rest) =>
    addValues separators
      (addValue separators { s with firm := false, afterBlank := false } false bytes) rest
  | .arguments [] => s
  | .arguments (bytes :: rest) =>
    rest.foldl (fun s bytes => s.cut.addText true bytes)
      ({ s with firm := true }.addText true bytes)

def finish (s : Splitting) : List (List Letter) :=
  (if s.isFresh && !s.firm then s.fields else s.cut.fields).reverse

end Splitting

namespace Piece

def fields (separators : Bytes) (pieces : List Piece) : List (List Letter) :=
  (pieces.foldl (Splitting.take separators) Splitting.none).finish

/-- The letters of the pieces where no fields are made. -/
def letters (pieces : List Piece) : List Letter :=
  pieces.flatMap fun
    | .text quoted bytes => bytes.map (quoted, ·)
    | .values parts => (Bytes.joinWith [32] parts).map (false, ·)
    | .arguments parts => (Bytes.joinWith [32] parts).map (true, ·)
    | .mark => []

/-- The text of the pieces where no fields are made. -/
def bytes (pieces : List Piece) : Bytes := (letters pieces).map Prod.snd

end Piece
end WasmPackager.Shell
