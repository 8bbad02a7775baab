/-
# `Proofs.Template.Matching` — what it means that a template is found

Two theorems about `Pattern.find`, for every template, placeholder token and
text:

* drawing the whitespace of the text together before searching changes
  neither whether the template is found nor where
  (`condensing_keeps_matches`), although the offsets found are those of
  another text;
* what is found is the longest part of the text, at the end of it that the
  pattern is tied to, that the template's segments spell, and nothing is found
  only if they spell none (`find_longest_of_template`).

The first rests on the second's counterpart for texts as they stand
(`Longest`): the greatest beginning of the collapsed text is carried by
`origin` to the greatest one of the text, since a longer one would show in the
collapsed text too; likewise the least ending.
-/
import WasmPackager.Proofs.Template.Condensing
import WasmPackager.Proofs.Template.Longest
import WasmPackager.Proofs.Template.Reading

namespace WasmPackager.Pattern

open Segment WasmPackager.Condensed

section SpaceFree

variable {p : Pattern} {s : Bytes}

theorem Locates.origin {span : Span} (free : ∀ seg ∈ p.segments, seg.SpaceFree)
    (h : p.Locates (collapse s) span) :
    p.Locates s ⟨(ofBytes s).origin span.start, (ofBytes s).origin span.stop⟩ := by
  obtain ⟨segs, anchor⟩ := p
  obtain ⟨start, stop⟩ := span
  cases anchor with
  | atStart =>
      obtain ⟨rfl, ⟨-, hstop⟩, greatest⟩ := h
      refine ⟨origin_zero (ofBytes s), mem_beginnings.mpr ⟨origin_le s _, ?_⟩, fun e he => ?_⟩
      · rw [← spells_collapse free, collapse_take_origin]
        exact hstop
      · obtain ⟨i, hi, hle, heq⟩ := collapse_take s he.1
        have hspell := (spells_collapse free).mpr he.2
        rw [heq] at hspell
        exact hle.trans (origin_mono _ (greatest ⟨hi, hspell⟩))
  | atEnd =>
      obtain ⟨hstop, ⟨-, hstart⟩, least⟩ := h
      have hend : (ofBytes s).origin stop = s.length := by
        obtain rfl : stop = (Condensed.collapse s).length := hstop
        rw [length_collapse, origin_length]
      refine ⟨hend, mem_endings.mpr ⟨origin_le s _, ?_⟩, fun e he => ?_⟩
      · rw [← spells_collapse free, collapse_drop_origin]
        exact hstart
      · obtain ⟨i, hi, hle, heq⟩ := collapse_drop s e
        have hspell := (spells_collapse free).mpr he.2
        rw [heq] at hspell
        exact (origin_mono _ (least ⟨hi, hspell⟩)).trans hle

theorem Fits.collapse (free : ∀ seg ∈ p.segments, seg.SpaceFree) (h : p.Fits s) :
    p.Fits (collapse s) := by
  obtain ⟨segs, anchor⟩ := p
  cases anchor with
  | atStart =>
      obtain ⟨w, ⟨r, rfl⟩, hw⟩ := h
      obtain ⟨i, -, -, heq⟩ := collapse_take (w ++ r) (e := w.length) (by simp)
      rw [List.take_left] at heq
      exact ⟨Condensed.collapse w, heq ▸ List.take_prefix _ _, (spells_collapse free).mpr hw⟩
  | atEnd =>
      obtain ⟨w, ⟨r, rfl⟩, hw⟩ := h
      obtain ⟨i, -, -, heq⟩ := collapse_drop (r ++ w) r.length
      rw [List.drop_left] at heq
      exact ⟨Condensed.collapse w, heq ▸ List.drop_suffix _ _, (spells_collapse free).mpr hw⟩

/-- A pattern without whitespace in its literals is found in a text where it is found in the text
as it stands. -/
theorem find_eq_findIn (free : ∀ seg ∈ p.segments, seg.SpaceFree) (s : Bytes) :
    p.find s = p.findIn s := by
  have search : p.find s = (p.findIn (collapse s)).map fun span =>
      ⟨(ofBytes s).origin span.start, (ofBytes s).origin span.stop⟩ := rfl
  rw [search]
  cases h : p.findIn (collapse s) with
  | none =>
      have misfit : ¬ p.Fits s := fun hfits => findIn_eq_none h (hfits.collapse free)
      exact (findIn_eq_none_iff.mpr misfit).symm
  | some span => exact (findIn_eq_some_iff.mpr ((findIn_eq_some h).origin free)).symm

theorem find_eq_some_iff (free : ∀ seg ∈ p.segments, seg.SpaceFree) {span : Span} :
    p.find s = some span ↔ p.Locates s span := by
  rw [find_eq_findIn free, findIn_eq_some_iff]

theorem find_eq_none_iff (free : ∀ seg ∈ p.segments, seg.SpaceFree) :
    p.find s = none ↔ ¬ p.Fits s := by
  rw [find_eq_findIn free, findIn_eq_none_iff]

end SpaceFree

/-- Whether and where a template is found does not depend on whether whitespace runs are drawn
together before the search. -/
theorem condensing_keeps_matches (template token : Bytes) (anchor : Anchor) (subject : Bytes) :
    (ofTemplate template anchor token).find subject =
      (ofTemplate template anchor token).findIn subject :=
  find_eq_findIn (spaceFree_ofTemplate template token) subject

/-- A template tied to the start is found if its segments spell a beginning of the text, and then
it is the longest such beginning that is found; one tied to the end is found if they spell an
ending, and then it is the longest such ending. -/
theorem find_longest_of_template (template token subject : Bytes) :
    let segs := Segment.ofTemplate template token
    let first := (ofTemplate template .atStart token).find subject
    let last := (ofTemplate template .atEnd token).find subject
    (first = none ↔ ∀ w, w <+: subject → ¬ Spells segs w) ∧
    (∀ span, first = some span ↔
      span.start = 0 ∧
        IsGreatest {e | e ≤ subject.length ∧ Spells segs (subject.take e)} span.stop) ∧
    (last = none ↔ ∀ w, w <:+ subject → ¬ Spells segs w) ∧
    (∀ span, last = some span ↔
      span.stop = subject.length ∧
        IsLeast {i | i ≤ subject.length ∧ Spells segs (subject.drop i)} span.start) := by
  intro segs first last
  have free : ∀ seg ∈ segs, seg.SpaceFree := spaceFree_ofTemplate template token
  refine ⟨?_, fun span => find_eq_some_iff free, ?_, fun span => find_eq_some_iff free⟩
  · rw [find_eq_none_iff free]
    exact not_exists.trans (forall_congr' fun w => not_and)
  · rw [find_eq_none_iff free]
    exact not_exists.trans (forall_congr' fun w => not_and)

/-- The whitespace at the end belongs to what is found, all of it. -/
example : (ofTemplate (ascii "let XXX =\n") .atStart (ascii "XXX")).find
    (ascii "let\t  wasm_1=\n\n run") = some ⟨0, 16⟩ := by
  decide +kernel

end WasmPackager.Pattern
