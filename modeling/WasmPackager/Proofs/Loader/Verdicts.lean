/-
# `Proofs.Loader.Verdicts` — what can be said of a text, and when

Five things can be said of a text that is to be adapted: it does not begin
with an opening, it does not end with a closing, the two run into each other,
what is between them does not name the entry point, or else what it is adapted
to.  Each is said exactly under its own condition (`adapt_verdicts`), and the
conditions speak of the ways in which the text can be put together, not of
searches.

The opening and the closing are searched for independently, so they could
overlap in anything.  But there is no text that both ends an opening and begins
a closing, except whitespace (`spaces_of_found`).  So running into each other
comes down to whitespace that belongs to both: it is one run of whitespace
that decides between that and a payload without the entry point.
-/
import WasmPackager.Proofs.Loader.Reformatting
import WasmPackager.Proofs.Template.Overlap

namespace WasmPackager.Loader

open Bytes Segment

/-! ## Overlaps -/

/-- The checks on the two templates: they share nothing but whitespace, and next to their open ends
stands something that is no whitespace. -/
theorem templates_checked :
    let segs := Segment.ofTemplate openingTemplate placeholder
    let others := Segment.ofTemplate closingTemplate placeholder
    apart segs others ∧ clears isSpace (mirrored segs).tail ∧ clears isSpace others.tail := by
  decide +kernel

section

variable {text file : Bytes} {h w t : Bytes}

theorem spaces_of_shared (hh : IsOpening (h ++ w)) (ht : IsClosing (w ++ t)) :
    ∀ b ∈ w, isSpace b :=
  spaces_of_overlap templates_checked.1 (spaceFree_ofTemplate openingTemplate placeholder)
    (spaceFree_ofTemplate closingTemplate placeholder) hh ht

theorem isOpening_of_append (hh : IsOpening (h ++ w)) (hw : ∀ b ∈ w, isSpace b)
    (hs : Stops isSpace h.reverse) : IsOpening h :=
  openEnded_opening.of_append_spaces templates_checked.2.1 hh hw hs

theorem isClosing_of_append (ht : IsClosing (w ++ t)) (hw : ∀ b ∈ w, isSpace b)
    (hs : Stops isSpace t) : IsClosing t := by
  rw [IsClosing, ← spells_mirrored]
  refine openEnded_closing.of_append_spaces (y := w.reverse) ?_ ?_ (by simpa using hw)
    (by simpa using hs)
  · rw [mirrored_mirrored]
    exact templates_checked.2.2
  · rw [← List.reverse_append]
    exact spells_mirrored.mpr ht

theorem spaces_of_found {first last : Span} (hfirst : opening.find text = some first)
    (hlast : closing.find text = some last) :
    ∀ b ∈ (text.take first.stop).drop last.start, isSpace b := by
  rcases cuts_of_found hfirst hlast with ⟨h, core, t, rfl, -, -, -, -, rfl, rfl⟩ |
    ⟨h, w, t, rfl, -, hh, ht, -, -, rfl, rfl⟩
  · have nothing : ((h ++ core ++ t).take h.length).drop (h ++ core).length = [] := by
      rw [List.append_assoc, List.take_left, List.drop_eq_nil_iff, List.length_append]
      exact Nat.le_add_right _ _
    simp only [nothing]
    simp
  · have shared : ((h ++ w ++ t).take (h ++ w).length).drop h.length = w := by
      rw [List.take_left, List.drop_left]
    simp only [shared]
    exact spaces_of_shared hh ht

/-! ## Verdicts -/

def HasOpening (text : Bytes) : Prop := ∃ h, h <+: text ∧ IsOpening h

def HasClosing (text : Bytes) : Prop := ∃ t, t <:+ text ∧ IsClosing t

/-- Nothing but whitespace stands between an opening and a closing that neither ends nor begins
with whitespace. -/
structure Blends (text h w t : Bytes) : Prop where
  cut : text = h ++ w ++ t
  begins : IsOpening h
  ends : IsClosing t
  opened : Stops isSpace h.reverse
  closed : Stops isSpace t
  some : w ≠ []
  spaces : ∀ b ∈ w, isSpace b

/-- An opening and a closing have something between them, or nothing at all and no whitespace
either, that does not name the entry point. -/
structure Unmarked (text h payload t : Bytes) : Prop where
  cut : text = h ++ payload ++ t
  begins : IsOpening h
  ends : IsClosing t
  unnamed : ¬ entryPoint <:+: payload
  between : (∃ b ∈ payload, isSpace b = false) ∨
    payload = [] ∧ Stops isSpace h.reverse ∧ Stops isSpace t

inductive Verdict (text file : Bytes) : Except Failure Bytes → Prop
  | noOpening : ¬ HasOpening text → Verdict text file (.error (.loaderUnexpected .opening file))
  | noClosing : HasOpening text → ¬ HasClosing text →
      Verdict text file (.error (.loaderUnexpected .closing file))
  | blended {h w t : Bytes} : Blends text h w t → Verdict text file (.error (.loaderOverlap file))
  | unmarked {h payload t : Bytes} : Unmarked text h payload t →
      Verdict text file (.error (.entryPointMissing file))
  | adapted {h payload t : Bytes} : IsLoader text h payload t →
      Verdict text file (.ok (assemble (Bytes.strip isSpace payload)))

theorem adapt_of_found {first last : Span} (hfirst : opening.find text = some first)
    (hlast : closing.find text = some last) :
    adapt text file = (payload text ⟨first, last⟩ file).map assemble := by
  have hshape : shapeOf opening closing text file = .ok ⟨first, last⟩ :=
    shapeOf_eq_ok_iff.mpr ⟨hfirst, hlast⟩
  rw [adapt_eq_extract, extract, hshape]
  rfl

theorem adapt_of_cut {core : Bytes} (hfirst : opening.find (h ++ core ++ t) = some ⟨0, h.length⟩)
    (hlast : closing.find (h ++ core ++ t) =
      some ⟨(h ++ core).length, (h ++ core ++ t).length⟩) :
    adapt (h ++ core ++ t) file =
      if entryPoint.occursIn core then .ok (assemble core)
      else .error (.entryPointMissing file) := by
  rw [adapt_of_found hfirst hlast, payload_of_cut]
  split <;> rfl

/-- An opening and a closing with a run of whitespace between them are found with the whole run,
both of them. -/
theorem adapt_of_blends (hb : Blends text h w t) :
    adapt text file = .error (.loaderOverlap file) := by
  obtain ⟨rfl, hh, ht, hs, hs', hne, hspaces⟩ := hb
  have hfirst : opening.find (h ++ w ++ t) = some ⟨0, (h ++ w).length⟩ :=
    find_opening_iff.mpr ⟨h ++ w, t, rfl, isOpening_append hh hspaces, hs', rfl⟩
  have hlast : closing.find (h ++ w ++ t) = some ⟨h.length, (h ++ w ++ t).length⟩ :=
    find_closing_iff.mpr ⟨h, w ++ t, List.append_assoc h w t, isClosing_append ht hspaces, hs, rfl⟩
  have hlt : h.length < (h ++ w).length := by
    have := List.length_pos_iff.mpr hne
    rw [List.length_append]
    omega
  rw [adapt_of_found hfirst hlast, payload, if_pos hlt]
  rfl

theorem adapt_of_unmarked {p : Bytes} (hu : Unmarked text h p t) :
    adapt text file = .error (.entryPointMissing file) := by
  obtain ⟨rfl, hh, ht, hunnamed, hbetween⟩ := hu
  rcases hbetween with ⟨b, hb, hsolid⟩ | ⟨rfl, hs, hs'⟩
  · have hunnamed' : ¬ entryPoint.occursIn (Bytes.strip isSpace p) := by
      rwa [occursIn_iff_within, within_strip_iff entryPoint_ne_nil entryPoint_solid]
    obtain ⟨h', t', hcut, hh', ht'⟩ := exists_cut_strip hh ht p
    obtain ⟨hfirst, hlast⟩ := found_of_cut hh' ht' (strip_ne_nil hb hsolid)
      (stops_strip isSpace p) (stops_strip_reverse isSpace p)
    rw [hcut, adapt_of_cut hfirst hlast, if_neg hunnamed']
  · have hunnamed' : ¬ entryPoint.occursIn [] := by rwa [occursIn_iff_within]
    have hfirst : opening.find (h ++ [] ++ t) = some ⟨0, h.length⟩ :=
      find_opening_iff.mpr ⟨h, t, by rw [List.append_nil], hh, hs', rfl⟩
    have hlast : closing.find (h ++ [] ++ t) =
        some ⟨(h ++ []).length, (h ++ [] ++ t).length⟩ :=
      find_closing_iff.mpr ⟨h ++ [], t, rfl, ht, by rwa [List.append_nil], rfl⟩
    rw [adapt_of_cut hfirst hlast, if_neg hunnamed']

theorem verdict_adapt (text file : Bytes) : Verdict text file (adapt text file) := by
  cases hfirst : opening.find text with
  | none =>
      have hr : adapt text file = .error (.loaderUnexpected .opening file) := by
        rw [adapt, shapeOf, hfirst]
        rfl
      rw [hr]
      exact .noOpening (find_opening_eq_none_iff.mp hfirst)
  | some first =>
      cases hlast : closing.find text with
      | none =>
          have hr : adapt text file = .error (.loaderUnexpected .closing file) := by
            rw [adapt, shapeOf, hfirst, hlast]
            rfl
          obtain ⟨h, z, rfl, hh, -, -⟩ := find_opening_iff.mp hfirst
          rw [hr]
          exact .noClosing ⟨h, List.prefix_append h z, hh⟩ (find_closing_eq_none_iff.mp hlast)
      | some last =>
          rcases cuts_of_found hfirst hlast with ⟨h, core, t, rfl, hh, ht, hs, hs', rfl, rfl⟩ |
            ⟨h, w, t, rfl, hne, hh, ht, hs, hs', -, -⟩
          · rw [adapt_of_cut hfirst hlast]
            split
            · next hmark =>
              have hcore : Bytes.strip isSpace core = core := by
                rw [List.reverse_append] at hs'
                refine strip_of_stops ?_ ?_
                · exact stops_of_prefix hs (List.prefix_append _ _)
                · exact stops_of_prefix hs' (List.prefix_append _ _)
              have hl : IsLoader (h ++ core ++ t) h core t :=
                ⟨rfl, hh, ht, occursIn_iff_within.mp hmark⟩
              have hv : Verdict (h ++ core ++ t) file (.ok (assemble (Bytes.strip isSpace core))) :=
                .adapted hl
              rwa [hcore] at hv
            · next hmark =>
              refine .unmarked ⟨rfl, hh, ht, mt occursIn_iff_within.mpr hmark, ?_⟩
              cases core with
              | nil => exact .inr ⟨rfl, by simpa using hs', hs⟩
              | cons b core => exact .inl ⟨b, List.mem_cons_self, stops_cons.mp hs⟩
          · have hspaces := spaces_of_shared hh ht
            have hb : Blends (h ++ w ++ t) h w t := ⟨rfl, isOpening_of_append hh hspaces hs',
              isClosing_of_append ht hspaces hs, hs', hs, hne, hspaces⟩
            rw [adapt_of_blends hb]
            exact .blended hb

theorem Verdict.eq {result : Except Failure Bytes} (hv : Verdict text file result) :
    adapt text file = result := by
  cases hv with
  | noOpening hno =>
      rw [adapt, shapeOf, find_opening_eq_none_iff.mpr hno]
      rfl
  | noClosing hopening hno =>
      obtain ⟨first, hfirst⟩ := exists_find_opening hopening
      rw [adapt, shapeOf, hfirst, find_closing_eq_none_iff.mpr hno]
      rfl
  | blended hb => exact adapt_of_blends hb
  | unmarked hu => exact adapt_of_unmarked hu
  | adapted hl => exact adapt_of_isLoader hl file

theorem adapt_eq_iff {result : Except Failure Bytes} :
    adapt text file = result ↔ Verdict text file result :=
  ⟨fun h => h ▸ verdict_adapt text file, Verdict.eq⟩

theorem adapt_noOpening_iff :
    adapt text file = .error (.loaderUnexpected .opening file) ↔ ¬ HasOpening text := by
  rw [adapt_eq_iff]
  constructor
  · rintro (hno | - | - | - | -)
    exact hno
  · exact .noOpening

theorem adapt_noClosing_iff :
    adapt text file = .error (.loaderUnexpected .closing file) ↔
      HasOpening text ∧ ¬ HasClosing text := by
  rw [adapt_eq_iff]
  constructor
  · rintro (- | ⟨hopening, hno⟩ | - | - | -)
    exact ⟨hopening, hno⟩
  · rintro ⟨hopening, hno⟩
    exact .noClosing hopening hno

theorem adapt_overlap_iff :
    adapt text file = .error (.loaderOverlap file) ↔ ∃ h w t, Blends text h w t := by
  rw [adapt_eq_iff]
  constructor
  · rintro (- | - | hb | - | -)
    exact ⟨_, _, _, hb⟩
  · rintro ⟨h, w, t, hb⟩
    exact .blended hb

theorem adapt_missing_iff :
    adapt text file = .error (.entryPointMissing file) ↔ ∃ h p t, Unmarked text h p t := by
  rw [adapt_eq_iff]
  constructor
  · rintro (- | - | - | hu | -)
    exact ⟨_, _, _, hu⟩
  · rintro ⟨h, p, t, hu⟩
    exact .unmarked hu

theorem adapt_ok_iff : (∃ out, adapt text file = .ok out) ↔ ∃ h p t, IsLoader text h p t := by
  constructor
  · rintro ⟨out, hout⟩
    cases adapt_eq_iff.mp hout with
    | adapted hl => exact ⟨_, _, _, hl⟩
  · rintro ⟨h, p, t, hl⟩
    exact ⟨_, adapt_of_isLoader hl file⟩

end

/-- What the searches find overlaps in whitespace only, and one of five things is said of every
text: that it has no opening, that it has an opening and no closing, that both run into each other,
that the entry point is not named between them, or what the text is adapted to.  Each of them is
said exactly of the texts that are put together in that way; who watches does not matter. -/
theorem adapt_verdicts (text file : Bytes) (s : Session) :
    let said := ((Pipeline.adapt text file).on s).1
    (∀ first last, opening.find text = some first → closing.find text = some last →
      ∀ b ∈ (text.take first.stop).drop last.start, isSpace b) ∧
    (said = .error (.loaderUnexpected .opening file) ↔ ¬ HasOpening text) ∧
    (said = .error (.loaderUnexpected .closing file) ↔ HasOpening text ∧ ¬ HasClosing text) ∧
    (said = .error (.loaderOverlap file) ↔ ∃ h w t, Blends text h w t) ∧
    (said = .error (.entryPointMissing file) ↔ ∃ h p t, Unmarked text h p t) ∧
    ((∃ out, said = .ok out) ↔ ∃ h p t, IsLoader text h p t) ∧
    (said = .error (.loaderUnexpected .opening file) ∨
      said = .error (.loaderUnexpected .closing file) ∨ said = .error (.loaderOverlap file) ∨
      said = .error (.entryPointMissing file) ∨ ∃ out, said = .ok out) := by
  have hsaid : ((Pipeline.adapt text file).on s).1 = adapt text file := by rw [Pipeline.on_adapt]
  simp only [hsaid]
  refine ⟨fun first last hfirst hlast => spaces_of_found hfirst hlast, adapt_noOpening_iff,
    adapt_noClosing_iff, adapt_overlap_iff, adapt_missing_iff, adapt_ok_iff, ?_⟩
  generalize hr : adapt text file = r
  cases adapt_eq_iff.mp hr with
  | noOpening _ => exact .inl rfl
  | noClosing _ _ => exact .inr (.inl rfl)
  | blended _ => exact .inr (.inr (.inl rfl))
  | unmarked _ => exact .inr (.inr (.inr (.inl rfl)))
  | adapted _ => exact .inr (.inr (.inr (.inr ⟨_, rfl⟩)))

/-- The two templates, one right behind the other, both end in and begin with whitespace. -/
theorem adapt_verdicts_sample :
    let text := openingTemplate ++ closingTemplate
    (opening.find text = some ⟨0, 370⟩ ∧ closing.find text = some ⟨358, 926⟩) ∧
      ∀ b ∈ (text.take 370).drop 358, isSpace b := by
  intro text
  have hfound : opening.find text = some ⟨0, 370⟩ ∧ closing.find text = some ⟨358, 926⟩ := by
    decide +kernel
  exact ⟨hfound, (adapt_verdicts text [] ⟨⟨FileSystem.empty, FileSystem.root⟩, none, []⟩).1 _ _
    hfound.1 hfound.2⟩

end WasmPackager.Loader
