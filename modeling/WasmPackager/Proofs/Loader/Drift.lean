/-
# `Proofs.Loader.Drift` — a generated loader that is not quite the expected one is refused

The opening and the closing are the toolchain's own code.  When the toolchain
changes it, even by one byte or by whitespace where none may be, the packager
must not go on as if it knew what it cuts away.  It does not
(`drift_unexpected`): an altered opening is not found whatever stands behind it,
and an altered closing is not found whatever stands in front of it, so nothing
in the payload can make up for it.

Both templates pass the check for that (`rigid_opening`, `rigid_closing`); the
closing is looked at backwards, as it is found from its end.
-/
import WasmPackager.Proofs.Loader.Acceptance
import WasmPackager.Proofs.Template.Drift

namespace WasmPackager.Loader

open Segment

theorem rigid_opening : rigid (Segment.ofTemplate openingTemplate placeholder) := by
  decide +kernel

theorem rigid_closing : rigid (mirrored (Segment.ofTemplate closingTemplate placeholder)) := by
  decide +kernel

/-- An opening, and what it is with one literal byte replaced or one gap put in. -/
def OpeningDrifts (h h' : Bytes) : Prop :=
  Drifts (Segment.ofTemplate openingTemplate placeholder) h h'

/-- A closing, and what it is with one literal byte replaced or one gap put in. -/
def ClosingDrifts (t t' : Bytes) : Prop :=
  Drifts (Segment.ofTemplate closingTemplate placeholder) t t'

section Drift

variable {h h' t t' : Bytes}

theorem not_isOpening_of_drift (hdrift : OpeningDrifts h h') {w rest : Bytes}
    (hw : w <+: h' ++ rest) : ¬ IsOpening w := by
  obtain ⟨r, hr⟩ := hw
  exact hdrift.not_spells (spaceFree_ofTemplate openingTemplate placeholder) rigid_opening hr.symm

theorem not_isClosing_of_drift (hdrift : ClosingDrifts t t') {w front : Bytes}
    (hw : w <:+ front ++ t') : ¬ IsClosing w := by
  intro hclosing
  obtain ⟨r, hr⟩ := hw
  have free := spaceFree_mirrored (spaceFree_ofTemplate closingTemplate placeholder)
  have backwards : t'.reverse ++ front.reverse = w.reverse ++ r.reverse := by
    rw [← List.reverse_append, ← List.reverse_append, hr]
  exact hdrift.mirrored.not_spells free rigid_closing backwards (spells_mirrored.mpr hclosing)

/-- An opening in which a literal byte was replaced, by anything but whitespace, or whitespace was
put where the template has none, is not found, whatever is behind it; the same holds of a closing,
whatever is between it and the opening. -/
theorem drift_unexpected (file : Bytes) :
    (∀ h h' rest, OpeningDrifts h h' →
      shapeOf opening closing (h' ++ rest) file = .error (.loaderUnexpected .opening file)) ∧
    ∀ h payload t t', IsOpening h → ClosingDrifts t t' →
      shapeOf opening closing (h ++ payload ++ t') file =
        .error (.loaderUnexpected .closing file) := by
  constructor
  · intro h h' rest hdrift
    have hnone : opening.find (h' ++ rest) = none := by
      rw [find_opening_eq_none_iff]
      rintro ⟨w, hw, hopening⟩
      exact not_isOpening_of_drift hdrift hw hopening
    rw [shapeOf, hnone]
  · intro h payload t t' hh hdrift
    have hnone : closing.find (h ++ payload ++ t') = none := by
      rw [find_closing_eq_none_iff]
      rintro ⟨w, hw, hclosing⟩
      exact not_isClosing_of_drift hdrift hw hclosing
    obtain ⟨first, hfirst⟩ := exists_find_opening
      ⟨h, ⟨payload ++ t', (List.append_assoc h payload t').symm⟩, hh⟩
    rw [shapeOf, hfirst, hnone]

end Drift

/-- An opening in which the identifier would swallow what stands for `=`, and a closing with a gap
in its first identifier. -/
theorem drift_unexpected_sample :
    let opened (b : Bytes) := openingTemplate.take 317 ++ b ++ openingTemplate.drop 320
    let closed (b : Bytes) := closingTemplate.take 170 ++ b ++ closingTemplate.drop 173
    (OpeningDrifts (opened (ascii "=")) (opened (ascii "x")) ∧
        ClosingDrifts (closed (ascii "app")) (closed (ascii "ap p"))) ∧
      shapeOf opening closing (opened (ascii "x") ++ (entryPoint ++ closed (ascii "app"))) [] =
        .error (.loaderUnexpected .opening []) ∧
      shapeOf opening closing (opened (ascii "=") ++ entryPoint ++ closed (ascii "ap p")) [] =
        .error (.loaderUnexpected .closing []) := by
  intro opened closed
  have spelled : ∀ {segs s}, Pattern.measure true segs s = some s.length → Spells segs s :=
    fun h => (Pattern.measure_true_eq_some_iff.mp h).2
  have hopening : OpeningDrifts (opened (ascii "=")) (opened (ascii "x")) := by
    let segs := Segment.ofTemplate openingTemplate placeholder
    have hslip : Slips [literal ([] ++ 61 :: [])] (ascii "=") (ascii "x") :=
      .replaced (by decide) (by decide)
    obtain ⟨hcut, front, back⟩ :
        segs = segs.take 101 ++ ([literal ([] ++ 61 :: [])] ++ segs.drop 102) ∧
          Pattern.measure true (segs.take 101) (openingTemplate.take 317) =
            some (openingTemplate.take 317).length ∧
          Pattern.measure true (segs.drop 102) (openingTemplate.drop 320) =
            some (openingTemplate.drop 320).length := by
      decide +kernel
    exact drifts_of_cut hcut (spelled front) hslip (spelled back)
  have hclosing : ClosingDrifts (closed (ascii "app")) (closed (ascii "ap p")) := by
    let segs := Segment.ofTemplate closingTemplate placeholder
    have hslip : Slips [.placeholder placeholder] (ascii "app") (ascii "ap p") :=
      .parted (a := ascii "ap") (y := ascii " ") (b := ascii "p") trivial
        ⟨by decide, List.all_eq_true.mp rfl⟩ (by decide) (by decide)
        ⟨by decide, List.all_eq_true.mp rfl⟩
    obtain ⟨hcut, front, back⟩ :
        segs = segs.take 50 ++ ([.placeholder placeholder] ++ segs.drop 51) ∧
          Pattern.measure true (segs.take 50) (closingTemplate.take 170) =
            some (closingTemplate.take 170).length ∧
          Pattern.measure true (segs.drop 51) (closingTemplate.drop 173) =
            some (closingTemplate.drop 173).length := by
      decide +kernel
    exact drifts_of_cut hcut (spelled front) hslip (spelled back)
  obtain ⟨first, last⟩ := drift_unexpected []
  exact ⟨⟨hopening, hclosing⟩, first _ _ _ hopening, last _ _ _ _ hopening.spells hclosing⟩

end WasmPackager.Loader
