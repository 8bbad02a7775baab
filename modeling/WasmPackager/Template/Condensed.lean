/-
# `Template.Condensed` — texts with each whitespace run drawn together

Matching looks at a text in which every maximal run of whitespace is one
space.  A condensed text is a list of cells; each cell knows how many bytes of
the full text it stands for, so an offset of the condensed text is turned into
one of the full text by adding widths (`origin`): the offset where the cell
begins, and past the last cell the length of the whole text.
-/
import WasmPackager.Bytes

namespace WasmPackager

/-- One byte of a condensed text. -/
structure Cell where
  /-- The byte: a space if the cell stands for a whitespace run. -/
  byte : UInt8
  /-- How many bytes of the full text the cell stands for. -/
  width : Nat
deriving DecidableEq

/-- A text with its whitespace runs drawn together. -/
abbrev Condensed := List Cell

namespace Condensed

/-- Puts one byte before a condensed text: whitespace widens a run that already begins it. -/
def push (b : UInt8) (cells : Condensed) : Condensed :=
  if isSpace b then
    match cells with
    | [] => [⟨32, 1⟩]
    | cell :: rest =>
      if cell.byte == 32 then ⟨32, cell.width + 1⟩ :: rest else ⟨32, 1⟩ :: cell :: rest
  else ⟨b, 1⟩ :: cells

/-- The condensed form of a text. -/
def ofBytes (s : Bytes) : Condensed := s.foldr push []

/-- The bytes of a condensed text. -/
def toBytes (cells : Condensed) : Bytes := cells.map Cell.byte

/-- The offset in the full text at which cell `i` begins. -/
def origin (cells : Condensed) (i : Nat) : Nat :=
  (cells.take i).foldl (fun offset cell => offset + cell.width) 0

end Condensed
end WasmPackager
