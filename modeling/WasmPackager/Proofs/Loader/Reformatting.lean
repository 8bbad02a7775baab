/-
# `Proofs.Loader.Reformatting` — reformatting a loader does not change its verdict

Whether a text has an opening and a closing, whether they overlap, and what is
between them is decided by the squeezed text alone, whatever the two patterns
are: both searches run on it, and the offsets they give are turned into
offsets of the full text only afterwards.  So two texts that squeeze to the
same text get the same verdict, failures with the same cause and hence the
same words, and what is taken out of them squeezes to the same text again
(`verdict_of_reformatted`).

The comparison of the two spans, the bounds check and the cut are made on
offsets of the full text, which differ between the two texts.  `payload_origin`
is the step that says they come out as they would on the squeezed text.
-/
import WasmPackager.Proofs.Loader.Acceptance
import WasmPackager.Proofs.Template.Squeezing

namespace WasmPackager

open WasmPackager.Condensed

theorem Pattern.Locates.stop_le {p : Pattern} {s : Bytes} {span : Span} (h : p.Locates s span) :
    span.stop ≤ s.length := by
  obtain ⟨segs, anchor⟩ := p
  cases anchor with
  | atStart => exact h.2.1.1
  | atEnd => exact Nat.le_of_eq h.1

namespace Loader

variable {text file : Bytes}

/-- The bytes between the parts of a text that two patterns find. -/
def extract (first last : Pattern) (text file : Bytes) : Except Failure Bytes := do
  payload text (← shapeOf first last text file) file

theorem occursIn_collapse (s : Bytes) :
    entryPoint.occursIn (collapse s) = entryPoint.occursIn s := by
  rw [Bool.eq_iff_iff, Bytes.occursIn_iff_within, Bytes.occursIn_iff_within]
  exact within_collapse_iff entryPoint_ne_nil entryPoint_solid s

/-- Spans that come from a search of the collapsed text cut the text as they cut the collapsed
one. -/
theorem payload_origin {first last : Span} (h : first.stop ≤ (collapse text).length) :
    (payload text
        ⟨⟨(ofBytes text).origin first.start, (ofBytes text).origin first.stop⟩,
          ⟨(ofBytes text).origin last.start, (ofBytes text).origin last.stop⟩⟩ file).map collapse =
      payload (collapse text) ⟨first, last⟩ file := by
  have overlap : (ofBytes text).origin last.start < (ofBytes text).origin first.stop ↔
      last.start < first.stop := origin_lt_iff text (by rwa [← length_collapse])
  unfold payload
  simp only [overlap]
  by_cases hlt : last.start < first.stop
  · rw [if_pos hlt, if_pos hlt]
    rfl
  · have between := collapse_between text (Nat.le_of_not_lt hlt)
    rw [if_neg hlt, if_neg hlt, if_neg (Nat.not_lt.mpr (origin_le text _)),
      if_neg (Nat.not_lt.mpr h), ← between, occursIn_collapse]
    split <;> rfl

theorem extract_collapse (first last : Pattern) :
    (extract first last text file).map collapse =
      match first.findIn (collapse text), last.findIn (collapse text) with
      | none, _ => .error (.loaderUnexpected .opening file)
      | some _, none => .error (.loaderUnexpected .closing file)
      | some a, some b => payload (collapse text) ⟨a, b⟩ file := by
  have search (p : Pattern) : p.find text = (p.findIn (collapse text)).map fun span =>
      ⟨(ofBytes text).origin span.start, (ofBytes text).origin span.stop⟩ := rfl
  rw [extract, shapeOf, search, search]
  cases hfirst : first.findIn (collapse text) with
  | none => rfl
  | some a =>
      cases last.findIn (collapse text) with
      | none => rfl
      | some b => exact payload_origin (Pattern.findIn_eq_some hfirst).stop_le

theorem adapt_eq_extract : adapt text file = (extract opening closing text file).map assemble := by
  rw [adapt, extract]
  cases shapeOf opening closing text file with
  | error f => rfl
  | ok shape => cases hp : payload text shape file <;> simp [bind, Except.bind, pure, Except.pure,
      Except.map, hp]

theorem adapt_collapse :
    (adapt text file).map collapse = ((extract opening closing text file).map collapse).map
      fun core => core.foldr squeezeByte (collapse initializeCall) := by
  rw [adapt_eq_extract]
  cases extract opening closing text file with
  | error f => rfl
  | ok core => exact congrArg Except.ok (collapse_append core initializeCall)

/-- Texts that differ in their whitespace runs only get the same verdict, of any two patterns and
of the loader's own: the same failure, or payloads, and adapted loaders, that differ in their
whitespace runs only.  Who watches the adapting does not matter. -/
theorem verdict_of_reformatted {t₁ t₂ : Bytes} (h : Segment.squeeze t₁ = Segment.squeeze t₂)
    (first last : Pattern) (file : Bytes) :
    (extract first last t₁ file).map Segment.squeeze =
        (extract first last t₂ file).map Segment.squeeze ∧
      ∀ s₁ s₂ : Session, ((Pipeline.adapt t₁ file).on s₁).1.map Segment.squeeze =
        ((Pipeline.adapt t₂ file).on s₂).1.map Segment.squeeze := by
  have squeezed : Segment.squeeze = collapse :=
    funext fun s => (Segment.collapse_eq_squeeze s).symm
  rw [squeezed] at h ⊢
  refine ⟨by rw [extract_collapse, extract_collapse, h], fun s₁ s₂ => ?_⟩
  rw [Pipeline.on_adapt, Pipeline.on_adapt, adapt_collapse, adapt_collapse, extract_collapse,
    extract_collapse, h]

/-- Two forms of one text, with runs of different lengths at both cuts. -/
theorem verdict_of_reformatted_forms :
    let first := Pattern.ofTemplate (ascii "let XXX =\n") .atStart (ascii "XXX")
    let last := Pattern.ofTemplate (ascii " end") .atEnd (ascii "XXX")
    let t₁ := ascii "let a = \n\t__initialize( 1,\n\t 2 ); end"
    let t₂ := ascii "let\t\ta = __initialize(\n1, 2 );\n\n\nend"
    (Segment.squeeze t₁ = Segment.squeeze t₂ ∧
        extract first last t₁ [] = .ok (ascii "__initialize( 1,\n\t 2 );") ∧
        extract first last t₂ [] = .ok (ascii "__initialize(\n1, 2 );")) ∧
      (extract first last t₁ []).map Segment.squeeze =
        (extract first last t₂ []).map Segment.squeeze ∧
      ∀ s₁ s₂ : Session, ((Pipeline.adapt t₁ []).on s₁).1.map Segment.squeeze =
        ((Pipeline.adapt t₂ []).on s₂).1.map Segment.squeeze :=
  ⟨by decide +kernel, verdict_of_reformatted (by decide +kernel) _ _ []⟩

end Loader
end WasmPackager
