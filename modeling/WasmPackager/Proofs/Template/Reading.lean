/-
# `Proofs.Template.Reading` — the segments a template is read into

A template is first cut into its runs of whitespace and of other bytes, and
every run is of one kind throughout (`run_uniform`).  What a template is read
into is a canonical cut of it.  So no literal of a template holds whitespace
(`spaceFree_ofTemplate`), whatever the placeholder token is, and if that token
is an identifier itself, a template is one of the texts it stands for
(`spells_ofTemplate`).
-/
import Mathlib.Data.List.SplitBy
import WasmPackager.Proofs.Template.Language
import WasmPackager.Proofs.Template.Segmentation

namespace WasmPackager.Segment

theorem run_uniform {text run : Bytes} (h : run ∈ runs text) :
    (∀ b ∈ run, isSpace b) ∨ ∀ b ∈ run, isSpace b = false := by
  have chain := List.isChain_of_mem_splitBy h
  clear h
  cases run with
  | nil => simp
  | cons b run =>
      have same : ∀ c ∈ b :: run, isSpace c = isSpace b := by
        induction run generalizing b with
        | nil => simp
        | cons c run ih =>
            obtain ⟨hbc, tail⟩ := List.isChain_cons_cons.mp chain
            have heq : isSpace b = isSpace c := by simpa using hbc
            intro d hd
            rcases List.mem_cons.mp hd with rfl | hd
            · rfl
            · exact (ih c tail d hd).trans heq.symm
      cases hb : isSpace b with
      | true => exact .inl fun c hc => (same c hc).trans hb
      | false => exact .inr fun c hc => (same c hc).trans hb

theorem Fit.spaceFree {token : Bytes} {seg : Segment} (h : seg.Fit token) : seg.SpaceFree := by
  cases seg with
  | literal t => exact h.2.1
  | whitespace t => trivial
  | placeholder t => trivial

theorem spaceFree_ofTemplate (text token : Bytes) :
    ∀ seg ∈ ofTemplate text token, seg.SpaceFree :=
  fun seg hseg => ((canonical_ofTemplate text token).fit seg hseg).spaceFree

/-! ## A template as a text -/

theorem Fit.admits {token : Bytes} {seg : Segment} (h : seg.Fit token)
    (hword : ∀ b ∈ token, isWord b) : seg.Admits seg.text := by
  cases seg with
  | literal t => rfl
  | whitespace t => exact h.2
  | placeholder t =>
      obtain ⟨rfl, hfind⟩ := h
      exact ⟨hfind.1, hword⟩

theorem spells_texts {segs : List Segment} (h : ∀ seg ∈ segs, seg.Admits seg.text) :
    Spells segs (texts segs) := by
  induction segs with
  | nil => exact .nil
  | cons seg rest ih =>
      obtain ⟨hseg, hrest⟩ := List.forall_mem_cons.mp h
      exact .cons hseg (ih hrest)

/-- A template stands for itself, among other texts, if its token is an identifier. -/
theorem spells_ofTemplate (text : Bytes) {token : Bytes} (hword : ∀ b ∈ token, isWord b) :
    Spells (ofTemplate text token) text := by
  have hfit := (canonical_ofTemplate text token).fit
  have hspells := spells_texts fun seg hseg => (hfit seg hseg).admits hword
  rwa [texts_ofTemplate] at hspells

end WasmPackager.Segment
