/-
# `Proofs.Template.Language` — the texts a template stands for

A list of segments stands for a set of texts: literals as they are, any
whitespace, possibly none, for each whitespace segment, and any identifier of
at least one byte for each placeholder.  `Spells` is that set as a relation; it
knows nothing of searching, so it is what a search is measured against.

The one fact about it that is not book-keeping is `Spells.exchange`.  If the
segments spell a text and also a part of that text, they spell what reaches
from the beginning of the part to the end of the whole.  Two ways of cutting
one text that cross can thus be swapped at the crossing, whatever stands next
to what in the list; this is why a search that takes as much as it can, piece
by piece, ends up with the longest text of all.
-/
import WasmPackager.Template.Segment

namespace WasmPackager

theorem isSpace_of_isWord {b : UInt8} (h : isWord b) : isSpace b = false := by
  revert h
  unfold isWord isSpace
  grind

namespace Segment

/-- The texts one segment stands for. -/
def Admits : Segment → Bytes → Prop
  | literal t, w => w = t
  | whitespace _, w => ∀ b ∈ w, isSpace b
  | placeholder _, w => w ≠ [] ∧ ∀ b ∈ w, isWord b

/-- A literal holds no whitespace; nothing is asked of the other segments. -/
def SpaceFree : Segment → Prop
  | literal t => ∀ b ∈ t, isSpace b = false
  | whitespace _ | placeholder _ => True

/-- A list of segments spells a text that is made of one piece for each segment, in order. -/
inductive Spells : List Segment → Bytes → Prop
  | nil : Spells [] []
  | cons {seg : Segment} {rest : List Segment} {w s : Bytes} :
      seg.Admits w → Spells rest s → Spells (seg :: rest) (w ++ s)

/-! ## Taking a spelling apart -/

theorem spells_nil {s : Bytes} : Spells [] s ↔ s = [] := by
  constructor
  · intro h
    cases h
    rfl
  · rintro rfl
    exact .nil

theorem spells_cons {seg : Segment} {rest : List Segment} {s : Bytes} :
    Spells (seg :: rest) s ↔ ∃ w r, s = w ++ r ∧ seg.Admits w ∧ Spells rest r := by
  constructor
  · intro h
    cases h with
    | cons hw hr => exact ⟨_, _, rfl, hw, hr⟩
  · rintro ⟨w, r, rfl, hw, hr⟩
    exact .cons hw hr

theorem spells_append {front back : List Segment} {s : Bytes} :
    Spells (front ++ back) s ↔ ∃ u v, s = u ++ v ∧ Spells front u ∧ Spells back v := by
  induction front generalizing s with
  | nil =>
      constructor
      · exact fun h => ⟨[], s, rfl, .nil, h⟩
      · rintro ⟨u, v, rfl, hu, hv⟩
        rwa [spells_nil.mp hu]
  | cons seg rest ih =>
      rw [List.cons_append, spells_cons]
      constructor
      · rintro ⟨w, r, rfl, hw, hr⟩
        obtain ⟨u, v, rfl, hu, hv⟩ := ih.mp hr
        exact ⟨w ++ u, v, (List.append_assoc w u v).symm, .cons hw hu, hv⟩
      · rintro ⟨u, v, rfl, hu, hv⟩
        obtain ⟨w, r, rfl, hw, hr⟩ := spells_cons.mp hu
        exact ⟨w, r ++ v, List.append_assoc w r v, hw, ih.mpr ⟨r, v, rfl, hr, hv⟩⟩

theorem spells_singleton {seg : Segment} {s : Bytes} : Spells [seg] s ↔ seg.Admits s := by
  simp [spells_cons, spells_nil]

/-! ## Crossing spellings -/

/-- What a segment admits up to the end of `v` and from `u` to `y`, it admits from the beginning
of `v` to the end of `y`. -/
theorem Admits.exchange {seg : Segment} {u v y : Bytes} (inner : seg.Admits v)
    (outer : seg.Admits (u ++ v ++ y)) : seg.Admits (v ++ y) := by
  cases seg with
  | literal t =>
      have hv : v = t := inner
      have huv : u ++ v ++ y = t := outer
      have hlen := congrArg List.length (huv.trans hv.symm)
      simp only [List.length_append] at hlen
      have hy : y = [] := List.length_eq_zero_iff.mp (by omega)
      simpa [Admits, hy] using hv
  | whitespace _ =>
      intro b hb
      exact outer b (by simpa [or_assoc] using Or.inr (List.mem_append.mp hb))
  | placeholder _ =>
      refine ⟨by simp [inner.1], fun b hb => ?_⟩
      exact outer.2 b (by simpa [or_assoc] using Or.inr (List.mem_append.mp hb))

/-- Segments that spell a text and a part of it spell what reaches from the beginning of the
part to the end of the text. -/
theorem Spells.exchange {segs : List Segment} {u v w : Bytes} (inner : Spells segs v)
    (outer : Spells segs (u ++ v ++ w)) : Spells segs (v ++ w) := by
  induction segs generalizing u v w with
  | nil =>
      have hv := spells_nil.mp inner
      have huvw := spells_nil.mp outer
      simp_all [spells_nil]
  | cons seg rest ih =>
      obtain ⟨v₁, v₂, rfl, hv₁, hv₂⟩ := spells_cons.mp inner
      obtain ⟨x₁, x₂, hx, hx₁, hx₂⟩ := spells_cons.mp outer
      have cut : (u ++ v₁) ++ (v₂ ++ w) = x₁ ++ x₂ := by
        rw [← hx]
        simp only [List.append_assoc]
      rcases List.append_eq_append_iff.mp cut with ⟨y, rfl, hy⟩ | ⟨y, -, rfl⟩
      -- The outer piece covers the inner one: take it from the inner beginning on.
      · have piece : seg.Admits (v₁ ++ y) := hv₁.exchange hx₁
        have whole : v₁ ++ v₂ ++ w = v₁ ++ y ++ x₂ := by
          rw [List.append_assoc, hy, List.append_assoc]
        rw [whole]
        exact .cons piece hx₂
      -- It ends before the inner one does: the crossing is further on.
      · have tail : Spells rest (v₂ ++ w) := ih (u := y) hv₂ (by rwa [List.append_assoc])
        rw [List.append_assoc]
        exact .cons hv₁ tail

end Segment
end WasmPackager
