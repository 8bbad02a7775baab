/-
# `Template.Pattern` — finding a template in a text

A pattern is a list of segments together with the end of the text it is tied
to.  The search is the one a backtracking regular-expression engine makes for
`Segment.source`: whitespace and identifiers first take as many bytes as they
can and give bytes back one at a time when the rest does not fit.  A pattern
tied to the start is tried at offset 0 only; one tied to the end is tried from
left to right and has to reach the last byte.

`Pattern.findIn` searches a text as it stands.  `Pattern.find` searches its
condensed form and gives the span in offsets of the full text; it is the
one the packager uses, since whitespace runs can be long.
-/
import WasmPackager.Template.Segment
import WasmPackager.Template.Condensed

namespace WasmPackager

/-- The end of the text a pattern is tied to. -/
inductive Anchor
  | atStart
  | atEnd
deriving DecidableEq

/-- The bytes of a text from offset `start` up to, not including, offset `stop`. -/
structure Span where
  start : Nat
  stop : Nat
deriving DecidableEq

/-- A template made ready for searching. -/
structure Pattern where
  segments : List Segment
  anchor : Anchor
deriving DecidableEq

namespace Pattern

/-- The pattern of a template whose placeholders are the occurrences of `token`. -/
def ofTemplate (text : Bytes) (anchor : Anchor) (token : Bytes) : Pattern :=
  ⟨Segment.ofTemplate text token, anchor⟩

/-- The pattern as a regular expression, with the mark of the end it is tied to. -/
def source (p : Pattern) : Bytes :=
  match p.anchor with
  | .atStart => ascii "^" ++ Segment.source p.segments
  | .atEnd => Segment.source p.segments ++ ascii "$"

/-! ## Matching at one place -/

/-- Takes as many bytes of class `p` as leave a text on which `rest` succeeds, and gives the
number of bytes taken by both. -/
def greedy (p : UInt8 → Bool) (rest : Bytes → Option Nat) : Bytes → Option Nat
  | [] => rest []
  | b :: s =>
    if p b then
      match greedy p rest s with
      | some n => some (n + 1)
      | none => rest (b :: s)
    else rest (b :: s)

/-- The number of bytes the segments take at the beginning of a text, in the first way that
works; with `toEnd` they have to take all of it. -/
def measure (toEnd : Bool) : List Segment → Bytes → Option Nat
  | [], s => if toEnd && !s.isEmpty then none else some 0
  | .literal t :: rest, s =>
    if t.isPrefixOf s then (measure toEnd rest (s.drop t.length)).map (t.length + ·) else none
  | .whitespace _ :: rest, s => greedy isSpace (measure toEnd rest) s
  | .placeholder _ :: _, [] => none
  | .placeholder _ :: rest, b :: s =>
    if isWord b then (greedy isWord (measure toEnd rest) s).map (· + 1) else none

/-! ## Searching -/

/-- The leftmost place from which the segments reach the end of the text; `offset` is the
number of bytes already passed over. -/
def findLast (segments : List Segment) : (offset : Nat) → Bytes → Option Span
  | offset, [] => (measure true segments []).map fun n => ⟨offset, offset + n⟩
  | offset, b :: s =>
    match measure true segments (b :: s) with
    | some n => some ⟨offset, offset + n⟩
    | none => findLast segments (offset + 1) s

/-- The span of the pattern in a text, searched as it stands. -/
def findIn (p : Pattern) (s : Bytes) : Option Span :=
  match p.anchor with
  | .atStart => (measure false p.segments s).map fun n => ⟨0, n⟩
  | .atEnd => findLast p.segments 0 s

/-- The span of the pattern in a text, searched in its condensed form. -/
def find (p : Pattern) (s : Bytes) : Option Span :=
  let cells := Condensed.ofBytes s
  (p.findIn cells.toBytes).map fun span => ⟨cells.origin span.start, cells.origin span.stop⟩

end Pattern
end WasmPackager
