/-
# `Proofs.Loader.Acceptance` — which loaders are adapted, and to what

A generated loader is an opening, a payload and a closing.  `adapt` finds the
opening and the closing by two independent searches in the same text, so it is
not clear that it cuts a loader where it was put together: the payload may hold
further openings and closings, and whitespace at its ends may as well belong
to them.  It does (`adapt_accepts_loaders`): a text is adapted exactly if it
can be put together from an opening, a payload that names the entry point and
a closing, and what comes out is the payload without the whitespace around it,
followed by the initializing call.

That the searches agree with every way of putting the text together comes
from the templates: both are delimited (`openEnded_opening`,
`openEnded_closing`), which is checked by evaluation, once.
-/
import WasmPackager.Loader.Adapt
import WasmPackager.Proofs.Pipeline.Steps
import WasmPackager.Proofs.Template.Delimited

namespace WasmPackager.Loader

open Bytes Segment

/-! ## The two templates -/

theorem opening_eq : opening = ⟨Segment.ofTemplate openingTemplate placeholder, .atStart⟩ := by
  rw [opening, Pattern.ofTemplate]

theorem closing_eq : closing = ⟨Segment.ofTemplate closingTemplate placeholder, .atEnd⟩ := by
  rw [closing, Pattern.ofTemplate]

def IsOpening (h : Bytes) : Prop := Spells (Segment.ofTemplate openingTemplate placeholder) h

def IsClosing (t : Bytes) : Prop := Spells (Segment.ofTemplate closingTemplate placeholder) t

/-- The opening ends in whitespace, and what is before that shows where it ends. -/
theorem openEnded_opening : OpenEnded (Segment.ofTemplate openingTemplate placeholder) := by
  decide +kernel

/-- The closing begins with whitespace, and what is behind that shows, read backwards, where it
begins. -/
theorem openEnded_closing :
    OpenEnded (mirrored (Segment.ofTemplate closingTemplate placeholder)) := by
  decide +kernel

theorem find_opening_iff {text : Bytes} {span : Span} :
    opening.find text = some span ↔
      ∃ h z, text = h ++ z ∧ IsOpening h ∧ Stops isSpace z ∧ span = ⟨0, h.length⟩ := by
  rw [opening_eq]
  exact Pattern.find_start_iff openEnded_opening (spaceFree_ofTemplate openingTemplate placeholder)

theorem find_closing_iff {text : Bytes} {span : Span} :
    closing.find text = some span ↔
      ∃ z t, text = z ++ t ∧ IsClosing t ∧ Stops isSpace z.reverse ∧
        span = ⟨z.length, text.length⟩ := by
  rw [closing_eq]
  exact Pattern.find_end_iff openEnded_closing (spaceFree_ofTemplate closingTemplate placeholder)

theorem find_opening_eq_none_iff {text : Bytes} :
    opening.find text = none ↔ ¬ ∃ h, h <+: text ∧ IsOpening h := by
  rw [opening_eq]
  exact Pattern.find_start_eq_none_iff (spaceFree_ofTemplate openingTemplate placeholder)

theorem find_closing_eq_none_iff {text : Bytes} :
    closing.find text = none ↔ ¬ ∃ t, t <:+ text ∧ IsClosing t := by
  rw [closing_eq]
  exact Pattern.find_end_eq_none_iff (spaceFree_ofTemplate closingTemplate placeholder)

theorem exists_find_opening {text : Bytes} (h : ∃ h, h <+: text ∧ IsOpening h) :
    ∃ first, opening.find text = some first := by
  refine Option.ne_none_iff_exists'.mp fun hnone => ?_
  exact find_opening_eq_none_iff.mp hnone h

theorem isOpening_append {h y : Bytes} (hh : IsOpening h) (hy : ∀ b ∈ y, isSpace b) :
    IsOpening (h ++ y) :=
  openEnded_opening.append_spaces hh hy

theorem isClosing_append {z t : Bytes} (ht : IsClosing t) (hz : ∀ b ∈ z, isSpace b) :
    IsClosing (z ++ t) := by
  rw [IsClosing, ← spells_mirrored, List.reverse_append]
  exact openEnded_closing.append_spaces (spells_mirrored.mpr ht) (by simpa using hz)

/-! ## The entry point -/

theorem entryPoint_ne_nil : entryPoint ≠ [] := by decide +kernel

theorem entryPoint_solid : ∀ b ∈ entryPoint, isSpace b = false := by decide +kernel

/-! ## Adapting -/

section Adapt

variable {text file out : Bytes}

theorem shapeOf_eq_ok_iff {p q : Pattern} {shape : Shape} :
    shapeOf p q text file = .ok shape ↔
      p.find text = some shape.opening ∧ q.find text = some shape.closing := by
  obtain ⟨first, last⟩ := shape
  rw [shapeOf]
  cases hp : p.find text with
  | none => simp
  | some a =>
      cases hq : q.find text with
      | none => simp
      | some b => simp

theorem payload_of_cut {h core t : Bytes} :
    payload (h ++ core ++ t) ⟨⟨0, h.length⟩, ⟨(h ++ core).length, (h ++ core ++ t).length⟩⟩ file =
      if entryPoint.occursIn core then .ok core else .error (.entryPointMissing file) := by
  have between : ((h ++ core ++ t).drop h.length).take ((h ++ core).length - h.length) = core := by
    simp [List.append_assoc]
  rw [payload, if_neg (by simp), if_neg (by simp)]
  simp only [between]

theorem adapt_eq_ok_iff :
    adapt text file = .ok out ↔ ∃ shape core, shapeOf opening closing text file = .ok shape ∧
      payload text shape file = .ok core ∧ out = assemble core := by
  rw [adapt]
  cases hs : shapeOf opening closing text file with
  | error f => simp [bind, Except.bind]
  | ok shape =>
      cases hp : payload text shape file with
      | error f => simp [bind, Except.bind, hp]
      | ok core => simp [bind, Except.bind, pure, Except.pure, hp, eq_comm]

/-- An opening and a closing that are found cut the text in three: in the middle is what they have
between them, or else what they share. -/
theorem cuts_of_found {first last : Span} (hfirst : opening.find text = some first)
    (hlast : closing.find text = some last) :
    (∃ h core t, text = h ++ core ++ t ∧ IsOpening h ∧ IsClosing t ∧ Stops isSpace (core ++ t) ∧
        Stops isSpace (h ++ core).reverse ∧ first = ⟨0, h.length⟩ ∧
        last = ⟨(h ++ core).length, (h ++ core ++ t).length⟩) ∨
      ∃ h w t, text = h ++ w ++ t ∧ w ≠ [] ∧ IsOpening (h ++ w) ∧ IsClosing (w ++ t) ∧
        Stops isSpace t ∧ Stops isSpace h.reverse ∧ first = ⟨0, (h ++ w).length⟩ ∧
        last = ⟨h.length, (h ++ w ++ t).length⟩ := by
  obtain ⟨h, z, rfl, hh, hz, rfl⟩ := find_opening_iff.mp hfirst
  obtain ⟨z', t, hcut, ht, hz', rfl⟩ := find_closing_iff.mp hlast
  rcases List.append_eq_append_iff.mp hcut with ⟨core, rfl, rfl⟩ | ⟨w, rfl, rfl⟩
  · refine .inl ⟨h, core, t, (List.append_assoc h core t).symm, hh, ht, hz, hz', rfl, ?_⟩
    rw [List.append_assoc]
  · by_cases hne : w = []
    · subst hne
      simp only [List.append_nil, List.nil_append] at hh ht ⊢
      exact .inl ⟨z', [], z, by simp, hh, ht, hz, by simpa using hz', rfl, by simp⟩
    · exact .inr ⟨z', w, z, rfl, hne, hh, ht, hz, hz', rfl, rfl⟩

/-- An opening and a closing that are found without overlapping cut the text in three; what is
between them does not begin or end with whitespace, unless it is empty. -/
theorem cut_of_found {first last : Span} (hfirst : opening.find text = some first)
    (hlast : closing.find text = some last) (hle : first.stop ≤ last.start) :
    ∃ h core t, text = h ++ core ++ t ∧ IsOpening h ∧ IsClosing t ∧ Stops isSpace core ∧
      Stops isSpace core.reverse ∧ first = ⟨0, h.length⟩ ∧
      last = ⟨(h ++ core).length, (h ++ core ++ t).length⟩ := by
  rcases cuts_of_found hfirst hlast with ⟨h, core, t, rfl, hh, ht, hz, hz', rfl, rfl⟩ |
    ⟨h, w, t, rfl, hne, -, -, -, -, rfl, rfl⟩
  · rw [List.reverse_append] at hz'
    exact ⟨h, core, t, rfl, hh, ht, stops_of_prefix hz (List.prefix_append core t),
      stops_of_prefix hz' (List.prefix_append _ _), rfl, rfl⟩
  · -- The opening would reach into the closing.
    simp only [List.length_append] at hle
    exact absurd (List.length_eq_zero_iff.mp (by omega)) hne

/-- Around a text that neither begins nor ends with whitespace the opening and the closing are
found where they stand. -/
theorem found_of_cut {h core t : Bytes} (hh : IsOpening h) (ht : IsClosing t) (hne : core ≠ [])
    (hcore : Stops isSpace core) (hcore' : Stops isSpace core.reverse) :
    opening.find (h ++ core ++ t) = some ⟨0, h.length⟩ ∧
      closing.find (h ++ core ++ t) =
        some ⟨(h ++ core).length, (h ++ core ++ t).length⟩ := by
  constructor
  · exact find_opening_iff.mpr ⟨h, core ++ t, List.append_assoc h core t, hh,
      stops_append_of_ne_nil hcore hne t, rfl⟩
  · refine find_closing_iff.mpr ⟨h ++ core, t, rfl, ht, ?_, rfl⟩
    rw [List.reverse_append]
    exact stops_append_of_ne_nil hcore' (mt List.reverse_eq_nil_iff.mp hne) _

/-- A text is adapted exactly if it is an opening, a payload without whitespace at its ends that
names the entry point, and a closing. -/
theorem adapt_eq_ok_iff_core :
    adapt text file = .ok out ↔ ∃ h core t, text = h ++ core ++ t ∧ IsOpening h ∧
      IsClosing t ∧ entryPoint <:+: core ∧ Stops isSpace core ∧
      Stops isSpace core.reverse ∧ out = assemble core := by
  constructor
  · intro hadapt
    obtain ⟨⟨first, last⟩, core, hshape, hpayload, rfl⟩ := adapt_eq_ok_iff.mp hadapt
    obtain ⟨hfirst, hlast⟩ := shapeOf_eq_ok_iff.mp hshape
    -- The two parts do not overlap, or there would be no payload.
    have hle : first.stop ≤ last.start := by
      rcases Nat.lt_or_ge last.start first.stop with hlt | hge
      · rw [payload, if_pos hlt] at hpayload
        cases hpayload
      · exact hge
    obtain ⟨h, mid, t, rfl, hh, ht, hmid, hmid', rfl, rfl⟩ := cut_of_found hfirst hlast hle
    rw [payload_of_cut] at hpayload
    split at hpayload
    · next hmark =>
        obtain rfl := Except.ok.inj hpayload
        exact ⟨h, mid, t, rfl, hh, ht, occursIn_iff_within.mp hmark, hmid, hmid', rfl⟩
    · cases hpayload
  · rintro ⟨h, core, t, rfl, hh, ht, hmark, hcore, hcore', rfl⟩
    have hne : core ≠ [] := by
      rintro rfl
      exact entryPoint_ne_nil (List.infix_nil.mp hmark)
    obtain ⟨hopening, hclosing⟩ := found_of_cut hh ht hne hcore hcore'
    refine adapt_eq_ok_iff.mpr ⟨⟨_, _⟩, core, shapeOf_eq_ok_iff.mpr ⟨hopening, hclosing⟩, ?_, rfl⟩
    rw [payload_of_cut, if_pos (occursIn_iff_within.mpr hmark)]

theorem length_le_of_adapt (h : adapt text file = .ok out) :
    out.length ≤ text.length + initializeCall.length := by
  obtain ⟨h, core, t, rfl, -, -, -, -, -, rfl⟩ := adapt_eq_ok_iff_core.mp h
  simp only [assemble, List.length_append]
  omega

end Adapt

/-! ## Loaders -/

/-- A loader put together from an opening, a payload that names the entry point, and a closing. -/
structure IsLoader (text h payload t : Bytes) : Prop where
  cut : text = h ++ payload ++ t
  begins : IsOpening h
  ends : IsClosing t
  marked : entryPoint <:+: payload

theorem exists_cut_strip {h t : Bytes} (hh : IsOpening h) (ht : IsClosing t) (p : Bytes) :
    ∃ h' t', h ++ p ++ t = h' ++ Bytes.strip isSpace p ++ t' ∧ IsOpening h' ∧ IsClosing t' := by
  obtain ⟨y, z, hp, hy, hz⟩ := strip_cut isSpace p
  refine ⟨h ++ y, z ++ t, ?_, isOpening_append hh hy, isClosing_append ht hz⟩
  conv_lhs => rw [hp]
  simp only [List.append_assoc]

theorem IsLoader.strip {text h p t : Bytes} (hl : IsLoader text h p t) :
    ∃ h' t', IsLoader text h' (Bytes.strip isSpace p) t' := by
  obtain ⟨rfl, hh, ht, hmark⟩ := hl
  obtain ⟨h', t', hcut, hh', ht'⟩ := exists_cut_strip hh ht p
  exact ⟨h', t', hcut, hh', ht', (within_strip_iff entryPoint_ne_nil entryPoint_solid).mpr hmark⟩

theorem adapt_of_isLoader {text h p t : Bytes} (hl : IsLoader text h p t) (file : Bytes) :
    adapt text file = .ok (assemble (Bytes.strip isSpace p)) := by
  obtain ⟨h', t', hcut, hh, ht, hmark⟩ := hl.strip
  exact adapt_eq_ok_iff_core.mpr ⟨h', _, t', hcut, hh, ht, hmark, stops_strip isSpace p,
    stops_strip_reverse isSpace p, rfl⟩

/-- A text is adapted exactly if it can be put together from an opening, a payload that names the
entry point, and a closing, in whatever session; what comes out is the payload without the
whitespace at its ends and the initializing call.  However the text is put together, it is the
same. -/
theorem adapt_accepts_loaders (text file : Bytes) (s : Session) :
    (∀ out, ((Pipeline.adapt text file).on s).1 = .ok out ↔
      ∃ h p t, IsLoader text h p t ∧ out = Bytes.strip isSpace p ++ initializeCall) ∧
    ∀ h p t h' p' t', IsLoader text h p t → IsLoader text h' p' t' →
      Bytes.strip isSpace p = Bytes.strip isSpace p' := by
  refine ⟨fun out => ?_, fun h p t h' p' t' hl hl' => ?_⟩
  · rw [Pipeline.on_adapt]
    constructor
    · intro hadapt
      obtain ⟨h, core, t, hcut, hh, ht, hmark, hcore, hcore', rfl⟩ :=
        adapt_eq_ok_iff_core.mp hadapt
      refine ⟨h, core, t, ⟨hcut, hh, ht, hmark⟩, ?_⟩
      rw [strip_of_stops hcore hcore', assemble]
    · rintro ⟨h, p, t, hl, rfl⟩
      exact adapt_of_isLoader hl file
  · have same := (adapt_of_isLoader hl file).symm.trans (adapt_of_isLoader hl' file)
    exact List.append_cancel_right (Except.ok.inj same)

theorem adapt_of_templates {payload : Bytes} (hmark : entryPoint <:+: payload) (file : Bytes) :
    adapt (openingTemplate ++ payload ++ closingTemplate) file =
      .ok (assemble (Bytes.strip isSpace payload)) := by
  have identifier : ∀ b ∈ placeholder, isWord b := by decide +kernel
  exact adapt_of_isLoader ⟨rfl, spells_ofTemplate openingTemplate identifier,
    spells_ofTemplate closingTemplate identifier, hmark⟩ file

end WasmPackager.Loader
