/-
# `Proofs.Loader.Extraction` — taking the payload out of a text

A payload is what lies between two spans.  Spans that come from a search for
two templates, one tied to the start of the text and one to its end, lie within
the text whatever the templates are, so what is between them can always be
taken out, and with what is before and behind it it is the text again.

Of spans that come from anywhere else this need not be so.  One that begins
behind the end of the text is out of range; one that ends there is cut off
(`payload_of_spans`).
-/
import WasmPackager.Proofs.Loader.Reformatting

namespace WasmPackager

/-- The bytes of a text from one offset up to, not including, another. -/
def Bytes.between (text : Bytes) (start stop : Nat) : Bytes := (text.take stop).drop start

theorem Bytes.take_append_between_append_drop (text : Bytes) {start stop : Nat}
    (h : start ≤ stop) : text.take start ++ text.between start stop ++ text.drop stop = text := by
  have front : (text.take stop).take start = text.take start := by
    rw [List.take_take, Nat.min_eq_left h]
  rw [between, ← front, List.take_append_drop, List.take_append_drop]

theorem Bytes.take_drop_eq_between (text : Bytes) {start stop : Nat} (h : start ≤ stop) :
    (text.drop start).take (stop - start) = text.between start (min stop text.length) := by
  rw [between, List.drop_take, List.take_eq_take_iff, List.length_drop]
  omega

theorem Pattern.Locates.start_le {p : Pattern} {s : Bytes} {span : Span} (h : p.Locates s span) :
    span.start ≤ span.stop := by
  obtain ⟨segs, anchor⟩ := p
  cases anchor with
  | atStart => exact h.1 ▸ Nat.zero_le _
  | atEnd => exact h.1 ▸ h.2.1.1

namespace Loader

def FailsAs (category : Category) (result : Except Failure Bytes) : Prop :=
  ∃ f, result = .error f ∧ f.category = category

/-- What has been taken out of a text is the result if it names the entry point. -/
structure Yields (core : Bytes) (result : Except Failure Bytes) : Prop where
  named : entryPoint <:+: core → result = .ok core
  unnamed : ¬ entryPoint <:+: core → FailsAs .missingEntryPoint result

section

variable {text file : Bytes} {shape : Shape}

theorem payload_of_overlap (h : shape.closing.start < shape.opening.stop) :
    payload text shape file = .error (.loaderOverlap file) := by
  rw [payload, if_pos h]

theorem payload_of_outside (h : shape.opening.stop ≤ shape.closing.start)
    (hout : text.length < shape.opening.stop) :
    payload text shape file = .error .spanOutOfRange := by
  rw [payload, if_neg (Nat.not_lt.mpr h), if_pos hout]

theorem payload_of_inside (h : shape.opening.stop ≤ shape.closing.start)
    (hin : shape.opening.stop ≤ text.length) :
    Yields (text.between shape.opening.stop (min shape.closing.start text.length))
      (payload text shape file) := by
  rw [payload, if_neg (Nat.not_lt.mpr h), if_neg (Nat.not_lt.mpr hin),
    Bytes.take_drop_eq_between text h]
  refine ⟨fun hnamed => if_pos (Bytes.occursIn_iff_within.mpr hnamed), fun hunnamed => ?_⟩
  exact ⟨_, if_neg (mt Bytes.occursIn_iff_within.mp hunnamed), rfl⟩

theorem Yields.not_failsAs {core : Bytes} {result : Except Failure Bytes} {category : Category}
    (h : Yields core result) (hc : category ≠ .missingEntryPoint) : ¬ FailsAs category result := by
  rintro ⟨f, rfl, rfl⟩
  by_cases hnamed : entryPoint <:+: core
  · cases h.named hnamed
  · obtain ⟨g, hg, hcategory⟩ := h.unnamed hnamed
    cases hg
    exact hc hcategory

theorem payload_outOfRange_iff :
    FailsAs .range (payload text shape file) ↔
      shape.opening.stop ≤ shape.closing.start ∧ text.length < shape.opening.stop := by
  constructor
  · intro hfails
    rcases Nat.lt_or_ge shape.closing.start shape.opening.stop with hlt | hle
    · obtain ⟨f, hf, hcategory⟩ := hfails
      rw [payload_of_overlap hlt] at hf
      cases hf
      cases hcategory
    · refine ⟨hle, Nat.lt_of_not_le fun hin => ?_⟩
      exact (payload_of_inside hle hin).not_failsAs (by decide) hfails
  · rintro ⟨hle, hout⟩
    exact ⟨_, payload_of_outside hle hout, rfl⟩

theorem payload_unexpected_iff :
    FailsAs .unexpectedStructure (payload text shape file) ↔
      shape.closing.start < shape.opening.stop := by
  constructor
  · intro hfails
    refine Nat.lt_of_not_le fun hle => ?_
    rcases Nat.lt_or_ge text.length shape.opening.stop with hout | hin
    · obtain ⟨f, hf, hcategory⟩ := hfails
      rw [payload_of_outside hle hout] at hf
      cases hf
      cases hcategory
    · exact (payload_of_inside hle hin).not_failsAs (by decide) hfails
  · intro hlt
    exact ⟨_, payload_of_overlap hlt, rfl⟩

end

/-- Two templates that are found in a text, one at its start and one at its end, are found within
it.  What is between them is never out of range.  It is refused exactly if the first ends behind the
beginning of the second, and is otherwise all of the text but what is before and behind it.  Of any
two spans at all, what is between them is out of range exactly if they are in order and the first
ends behind the text; if they are in order and it does not, what is taken ends where the text does
at the latest. -/
theorem payload_of_spans :
    (∀ first last token token' text file shape,
      shapeOf (.ofTemplate first .atStart token) (.ofTemplate last .atEnd token') text file =
          .ok shape →
        shape.opening.start = 0 ∧ shape.closing.stop = text.length ∧
        shape.opening.start ≤ shape.opening.stop ∧ shape.opening.stop ≤ text.length ∧
        shape.closing.start ≤ shape.closing.stop ∧ shape.closing.stop ≤ text.length ∧
        ¬ FailsAs .range (payload text shape file) ∧
        (FailsAs .unexpectedStructure (payload text shape file) ↔
          shape.closing.start < shape.opening.stop) ∧
        (shape.opening.stop ≤ shape.closing.start →
          ∃ core, text = text.take shape.opening.stop ++ core ++ text.drop shape.closing.start ∧
            Yields core (payload text shape file))) ∧
    ∀ text file shape,
      (FailsAs .range (payload text shape file) ↔
        shape.opening.stop ≤ shape.closing.start ∧ text.length < shape.opening.stop) ∧
      (FailsAs .unexpectedStructure (payload text shape file) ↔
        shape.closing.start < shape.opening.stop) ∧
      (shape.opening.stop ≤ shape.closing.start → shape.opening.stop ≤ text.length →
        Yields (text.between shape.opening.stop (min shape.closing.start text.length))
          (payload text shape file)) := by
  refine ⟨fun first last token token' text file shape hshape => ?_, fun text file shape =>
    ⟨payload_outOfRange_iff, payload_unexpected_iff, payload_of_inside⟩⟩
  obtain ⟨hfirst, hlast⟩ := shapeOf_eq_ok_iff.mp hshape
  have opened := (Pattern.find_eq_some_iff (Segment.spaceFree_ofTemplate first token)).mp hfirst
  have closed := (Pattern.find_eq_some_iff (Segment.spaceFree_ofTemplate last token')).mp hlast
  have hinside : shape.closing.start ≤ text.length := closed.start_le.trans closed.stop_le
  refine ⟨opened.1, closed.1, opened.start_le, opened.stop_le, closed.start_le, closed.stop_le, ?_,
    payload_unexpected_iff, fun hle => ?_⟩
  · rw [payload_outOfRange_iff]
    exact fun hout => Nat.not_lt.mpr opened.stop_le hout.2
  · have hyields : Yields _ (payload text shape file) := payload_of_inside hle opened.stop_le
    rw [Nat.min_eq_left hinside] at hyields
    exact ⟨_, (Bytes.take_append_between_append_drop text hle).symm, hyields⟩

/-- A template of nothing but whitespace is found with all the whitespace at the end, and an empty
one without any.  A span that ends far behind the text is cut off. -/
theorem payload_of_spans_sample :
    let text := ascii "  __initialize \t"
    let shape : Shape := ⟨⟨0, 0⟩, ⟨14, 16⟩⟩
    let wide : Shape := ⟨⟨0, 2⟩, ⟨UInt64.size - 1, 0⟩⟩
    shapeOf (.ofTemplate [] .atStart []) (.ofTemplate (ascii " ") .atEnd []) text [] = .ok shape ∧
      (∃ core, text = text.take 0 ++ core ++ text.drop 14 ∧ Yields core (payload text shape [])) ∧
      2 ≤ UInt64.size - 1 ∧ 2 ≤ text.length ∧
      Yields (text.between 2 (min (UInt64.size - 1) text.length)) (payload text wide []) := by
  intro text shape wide
  have hshape : shapeOf (.ofTemplate [] .atStart []) (.ofTemplate (ascii " ") .atEnd []) text [] =
      .ok shape := shapeOf_eq_ok_iff.mpr ⟨by decide +kernel, by decide +kernel⟩
  obtain ⟨-, -, -, -, -, -, -, -, cut⟩ := payload_of_spans.1 _ _ _ _ _ _ _ hshape
  have hlength : 2 ≤ text.length := by decide
  exact ⟨hshape, cut (Nat.zero_le _), by decide, hlength,
    (payload_of_spans.2 text [] wide).2.2 (by decide) hlength⟩

end Loader
end WasmPackager
