/-
# `Template.Segment` — templates as lists of segments

A template is a text in which whitespace stands for any whitespace, a
placeholder token for any identifier, and everything else for itself.
`Segment.ofTemplate` reads such a text into segments, and `Segment.source`
writes segments as a regular expression.

Two facts about the reading shape everything after it.  Whitespace runs are
maximal, so no two whitespace segments stand side by side.  Within a run free
of whitespace the placeholder is found leftmost first, and the search goes on
behind the occurrence, so overlapping occurrences are not found.
-/
import WasmPackager.Bytes

namespace WasmPackager

/-- A piece of a template, with the text it was read from. -/
inductive Segment
  /-- Stands for itself. -/
  | literal (text : Bytes)
  /-- Stands for any whitespace, also none. -/
  | whitespace (text : Bytes)
  /-- Stands for any identifier of at least one byte. -/
  | placeholder (text : Bytes)
deriving DecidableEq

namespace Segment

/-- The template text a segment was read from. -/
def text : Segment → Bytes
  | literal t | whitespace t | placeholder t => t

/-! ## Reading a template -/

/-- The literal made of the bytes read so far, last one first; no segment if there are none. -/
def ofPending (pending : Bytes) : List Segment :=
  if pending.isEmpty then [] else [literal pending.reverse]

/-- The segments of a run free of whitespace.  `skip` counts the bytes that still belong to
the placeholder just found, `pending` holds the bytes of the literal under way, last one
first.  An empty token is never found. -/
def ofWordsAux (token : Bytes) : (skip : Nat) → (pending : Bytes) → Bytes → List Segment
  | _, pending, [] => ofPending pending
  | skip + 1, pending, _ :: rest => ofWordsAux token skip pending rest
  | 0, pending, b :: rest =>
    if !token.isEmpty && token.isPrefixOf (b :: rest) then
      ofPending pending ++ placeholder token :: ofWordsAux token (token.length - 1) [] rest
    else
      ofWordsAux token 0 (b :: pending) rest

/-- The segments of a run that is all whitespace or free of it. -/
def ofRun (token : Bytes) : Bytes → List Segment
  | [] => []
  | b :: rest =>
    if isSpace b then [whitespace (b :: rest)] else ofWordsAux token 0 [] (b :: rest)

/-- The maximal runs of whitespace and of other bytes, in order. -/
def runs (text : Bytes) : List Bytes := text.splitBy fun a b => isSpace a == isSpace b

/-- The segments of a template whose placeholders are the occurrences of `token`. -/
def ofTemplate (text token : Bytes) : List Segment := (runs text).flatMap (ofRun token)

/-! ## Writing a regular expression -/

/-- The bytes that are operators in a regular expression. -/
def isOperator (b : UInt8) : Bool := (ascii r"\^$.|?*+()[]{}").contains b

/-- A byte that stands for itself: operators are marked by a backslash. -/
def escape (b : UInt8) : Bytes := if isOperator b then [92, b] else [b]

/-- The regular expression for one segment. -/
def pattern : Segment → Bytes
  | literal t => t.flatMap escape
  | whitespace _ => ascii "\\s*"
  | placeholder _ => ascii "[A-Za-z0-9_]+"

/-- The regular expression for a list of segments. -/
def source (segments : List Segment) : Bytes := segments.flatMap pattern

end Segment
end WasmPackager
