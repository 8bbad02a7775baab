/-
# `Shell.Glyph` — words as they are read

Reading a word gives a flat list of what stands in it, one glyph after the
other, with marks where something nested begins and ends.  `Word.ofGlyphs`
makes a word of the list: it nests what the marks enclose and finds out what is
quoted.
-/
import WasmPackager.Shell.Script

namespace WasmPackager.Shell

/-- A piece of a word while it is read. -/
inductive Glyph
  | byte (quoted : Bool) (b : UInt8)
  | quoteMark
  /-- A parameter whose word follows, up to the mark that ends it. -/
  | openParameter (name : Bytes) (use : Use)
  /-- A parameter without a word. -/
  | parameter (name : Bytes)
  | closeParameter
  | openArithmetic
  | closeArithmetic
  | substitution (script : Option Script)

namespace Word

/-- A level of nesting while a word is put together. -/
structure Level where
  /-- What the level is the inside of: a parameter with its use, or an expression. -/
  inside : Option (Bytes × Use)
  /-- All of the level is quoted. -/
  quoted : Bool
  /-- Between two quote marks of the level. -/
  marked : Bool
  /-- The parts so far, the last one first. -/
  parts : List Part
  /-- A text that may still grow, the last byte first, and whether it is quoted. -/
  run : Option (Bool × Bytes)

namespace Level

/-- The level with its last text finished. -/
def settled (l : Level) : Level :=
  match l.run with
  | some (quoted, reversed) =>
    { l with parts := .text quoted reversed.reverse :: l.parts, run := none }
  | none => l

def add (l : Level) (part : Part) : Level :=
  let l := l.settled
  { l with parts := part :: l.parts }

def isQuoted (l : Level) : Bool := l.quoted || l.marked

def addByte (l : Level) (quoted : Bool) (b : UInt8) : Level :=
  match l.run with
  | some (q, reversed) =>
    if q == quoted then { l with run := some (q, b :: reversed) }
    else { l.settled with run := some (quoted, [b]) }
  | none => { l with run := some (quoted, [b]) }

def finish (l : Level) : List Part := l.settled.parts.reverse

/-- Within the word of a trimmed parameter nothing is quoted from outside. -/
def inherits : Use → Bool
  | .trim .. | .replacement _ => false
  | .value | .length | .fallback _ | .assignment _ | .demand _ | .alternative _ | .slice
  | .letters .. | .nonsense => true

end Level

/-- A level that is the inside of something. -/
def inner (inside : Option (Bytes × Use)) (quoted : Bool) : Level :=
  ⟨inside, quoted, false, [], none⟩

def enclose (outer ended : Level) : Level :=
  match ended.inside with
  | some (name, use) => outer.add (.parameter outer.isQuoted name use ended.finish)
  | none => outer.add (.arithmetic outer.isQuoted ended.finish)

/-- The word made of glyphs, read on from a level within others. -/
def assemble : (level : Level) → (outer : List Level) → List Glyph → Word
  | level, outer, [] => (outer.foldl (fun ended around => enclose around ended) level).finish
  | level, outer, glyph :: rest =>
    match glyph with
    | .byte quoted b => assemble (level.addByte quoted b) outer rest
    | .quoteMark =>
      let marked := level.add .quoteMark
      assemble { marked with marked := !level.marked } outer rest
    | .parameter name =>
      assemble (level.add (.parameter level.isQuoted name .value [])) outer rest
    | .substitution script =>
      assemble (level.add (.substitution level.isQuoted script)) outer rest
    | .openParameter name use =>
      assemble (inner (some (name, use)) (level.isQuoted && Level.inherits use))
        (level :: outer) rest
    | .openArithmetic => assemble (inner none false) (level :: outer) rest
    | .closeParameter | .closeArithmetic =>
      match outer with
      | [] => assemble level [] rest
      | around :: outer => assemble (enclose around level) outer rest

/-- The word made of glyphs; `quoted` tells that all of it is. -/
def ofGlyphs (quoted : Bool) (glyphs : List Glyph) : Word := assemble (inner none quoted) [] glyphs

end Word
end WasmPackager.Shell
