/-
# `Proofs.Template.Condensing` — what drawing whitespace runs together keeps

`Condensed.collapse s` is the text `s` with one space for each maximal run of
whitespace, and `Condensed.origin` turns an offset of it into one of `s`.

* Cutting commutes with collapsing: to cut the collapsed text at `i` is to
  collapse the two parts of `s` cut at `origin i` (`collapse_take_origin`,
  `collapse_drop_origin`).
* Every cut of `s` shows in the collapsed text.  One inside a run shows at the
  end of the run if the left part is looked at (`collapse_take`), and at its
  beginning if the right part is (`collapse_drop`).
* Segments whose literals hold no whitespace spell a text exactly if they
  spell the collapsed one (`spells_collapse`).  No more is asked of them:
  whitespace segments may also stand side by side.

Inductions go by `Bytes.runInduction`.
-/
import WasmPackager.Proofs.Bytes
import WasmPackager.Proofs.Template.Language
import WasmPackager.Template.Condensed

namespace WasmPackager
namespace Condensed

open Bytes

/-! ## Condensing byte by byte and run by run -/

@[simp] theorem ofBytes_nil : ofBytes [] = [] := rfl

theorem ofBytes_byte {b : UInt8} (hb : isSpace b = false) (s : Bytes) :
    ofBytes (b :: s) = ⟨b, 1⟩ :: ofBytes s := by
  simp [ofBytes, push, hb]

theorem push_space {b : UInt8} {s : Bytes} (hb : isSpace b) (hs : Stops isSpace s) :
    push b (ofBytes s) = ⟨32, 1⟩ :: ofBytes s := by
  cases s with
  | nil => simp [push, hb]
  | cons c s =>
      have hc : isSpace c = false := stops_cons.mp hs
      have hne : c ≠ 32 := by
        rintro rfl
        exact absurd hc (by decide)
      simp [ofBytes_byte hc, push, hb, hne]

theorem ofBytes_run {w s : Bytes} (hne : w ≠ []) (hw : ∀ b ∈ w, isSpace b)
    (hs : Stops isSpace s) : ofBytes (w ++ s) = ⟨32, w.length⟩ :: ofBytes s := by
  induction w with
  | nil => exact absurd rfl hne
  | cons b w ih =>
      have hb : isSpace b := hw b List.mem_cons_self
      have step : ofBytes (b :: w ++ s) = push b (ofBytes (w ++ s)) := rfl
      rw [step]
      cases w with
      | nil => exact push_space hb hs
      | cons c w =>
          rw [ih (by simp) fun d hd => hw d (List.mem_cons_of_mem b hd)]
          simp [push, hb]

/-! ## Offsets -/

@[simp] theorem origin_zero (cells : Condensed) : origin cells 0 = 0 := by simp [origin]

@[simp] theorem origin_nil (i : Nat) : origin [] i = 0 := by simp [origin]

@[simp] theorem origin_cons (cell : Cell) (cells : Condensed) (i : Nat) :
    origin (cell :: cells) (i + 1) = cell.width + origin cells i := by
  have shift : ∀ (l : List Cell) (a : Nat),
      l.foldl (fun offset cell => offset + cell.width) a =
        a + l.foldl (fun offset cell => offset + cell.width) 0 := by
    intro l
    induction l with
    | nil => simp
    | cons c l ih =>
        intro a
        rw [List.foldl_cons, List.foldl_cons, ih, ih (0 + c.width)]
        omega
  simp only [origin, List.take_succ_cons, List.foldl_cons]
  rw [shift]
  omega

theorem origin_length (s : Bytes) : origin (ofBytes s) (ofBytes s).length = s.length := by
  induction s using runInduction with
  | nil => rfl
  | byte b s hb ih => simp [ofBytes_byte hb, ih, Nat.add_comm 1]
  | run w s hne hw hs ih => simp [ofBytes_run hne hw hs, ih]

theorem origin_le (s : Bytes) (i : Nat) : origin (ofBytes s) i ≤ s.length := by
  induction s using runInduction generalizing i with
  | nil => simp
  | byte b s hb ih =>
      cases i with
      | zero => simp
      | succ i => simpa [ofBytes_byte hb, Nat.add_comm 1] using ih i
  | run w s hne hw hs ih =>
      cases i with
      | zero => simp
      | succ i => simpa [ofBytes_run hne hw hs] using ih i

theorem origin_mono (cells : Condensed) {i j : Nat} (h : i ≤ j) :
    origin cells i ≤ origin cells j := by
  induction cells generalizing i j with
  | nil => simp
  | cons cell cells ih =>
      cases i with
      | zero => simp
      | succ i =>
          cases j with
          | zero => omega
          | succ j => simpa using ih (Nat.le_of_succ_le_succ h)

/-! ## Cutting -/

theorem ofBytes_take_origin (s : Bytes) (i : Nat) :
    ofBytes (s.take (origin (ofBytes s) i)) = (ofBytes s).take i := by
  induction s using runInduction generalizing i with
  | nil => simp
  | byte b s hb ih =>
      cases i with
      | zero => simp
      | succ i => simp [ofBytes_byte hb, Nat.add_comm 1, ih]
  | run w s hne hw hs ih =>
      cases i with
      | zero => simp
      | succ i =>
          rw [ofBytes_run hne hw hs, origin_cons, List.take_length_add_append,
            ofBytes_run hne hw (stops_take hs _), ih, List.take_succ_cons]

theorem ofBytes_drop_origin (s : Bytes) (i : Nat) :
    ofBytes (s.drop (origin (ofBytes s) i)) = (ofBytes s).drop i := by
  induction s using runInduction generalizing i with
  | nil => simp
  | byte b s hb ih =>
      cases i with
      | zero => simp
      | succ i => simp [ofBytes_byte hb, Nat.add_comm 1, ih]
  | run w s hne hw hs ih =>
      cases i with
      | zero => simp
      | succ i =>
          rw [ofBytes_run hne hw hs, origin_cons, List.drop_length_add_append, ih,
            List.drop_succ_cons]

/-! ## The collapsed text -/

/-- The text with one space for each whitespace run. -/
def collapse (s : Bytes) : Bytes := (ofBytes s).toBytes

@[simp] theorem collapse_nil : collapse [] = [] := rfl

theorem collapse_byte {b : UInt8} (hb : isSpace b = false) (s : Bytes) :
    collapse (b :: s) = b :: collapse s := by
  simp [collapse, toBytes, ofBytes_byte hb]

theorem collapse_run {w s : Bytes} (hne : w ≠ []) (hw : ∀ b ∈ w, isSpace b)
    (hs : Stops isSpace s) : collapse (w ++ s) = 32 :: collapse s := by
  simp [collapse, toBytes, ofBytes_run hne hw hs]

theorem collapse_spaces {w : Bytes} (hne : w ≠ []) (hw : ∀ b ∈ w, isSpace b) :
    collapse w = [32] := by
  simpa using collapse_run hne hw stops_nil

theorem length_collapse (s : Bytes) : (collapse s).length = (ofBytes s).length := by
  simp [collapse, toBytes]

theorem collapse_take_origin (s : Bytes) (i : Nat) :
    collapse (s.take (origin (ofBytes s) i)) = (collapse s).take i := by
  simp [collapse, toBytes, ofBytes_take_origin, List.map_take]

theorem collapse_drop_origin (s : Bytes) (i : Nat) :
    collapse (s.drop (origin (ofBytes s) i)) = (collapse s).drop i := by
  simp [collapse, toBytes, ofBytes_drop_origin, List.map_drop]

/-- The left part of a text collapses to the left part of the collapsed text, cut where the run
ends if the text was cut inside one. -/
theorem collapse_take (s : Bytes) {e : Nat} (he : e ≤ s.length) :
    ∃ i ≤ (collapse s).length, e ≤ origin (ofBytes s) i ∧
      collapse (s.take e) = (collapse s).take i := by
  induction s using runInduction generalizing e with
  | nil => exact ⟨0, by simp, by simpa using he, by simp⟩
  | byte b s hb ih =>
      cases e with
      | zero => exact ⟨0, by simp, by simp, by simp⟩
      | succ e =>
          obtain ⟨i, hi, hle, heq⟩ := ih (Nat.le_of_succ_le_succ he)
          refine ⟨i + 1, ?_, ?_, ?_⟩
          · simpa [collapse_byte hb] using hi
          · simpa [ofBytes_byte hb, Nat.add_comm 1] using hle
          · simp [collapse_byte hb, heq]
  | run w s hne hw hs ih =>
      rcases Nat.lt_or_ge w.length e with hlt | hge
      · obtain ⟨k, rfl⟩ := Nat.exists_eq_add_of_le (Nat.le_of_lt hlt)
        simp only [List.length_append, Nat.add_le_add_iff_left] at he
        obtain ⟨i, hi, hle, heq⟩ := ih he
        refine ⟨i + 1, ?_, ?_, ?_⟩
        · simpa [collapse_run hne hw hs] using hi
        · simpa [ofBytes_run hne hw hs] using hle
        · rw [List.take_length_add_append, collapse_run hne hw (stops_take hs _), heq,
            collapse_run hne hw hs, List.take_succ_cons]
      · rcases Nat.eq_zero_or_pos e with rfl | hpos
        · exact ⟨0, by simp, by simp, by simp⟩
        · have part : w.take e ≠ [] := by simp [hne, Nat.pos_iff_ne_zero.mp hpos]
          refine ⟨1, by simp [collapse_run hne hw hs], ?_, ?_⟩
          · simpa [ofBytes_run hne hw hs] using hge
          · rw [List.take_append_of_le_length hge,
              collapse_spaces part fun b hb => hw b (List.mem_of_mem_take hb),
              collapse_run hne hw hs]
            simp

/-- The right part of a text collapses to the right part of the collapsed text, cut where the
run begins if the text was cut inside one. -/
theorem collapse_drop (s : Bytes) (e : Nat) :
    ∃ i ≤ (collapse s).length, origin (ofBytes s) i ≤ e ∧
      collapse (s.drop e) = (collapse s).drop i := by
  induction s using runInduction generalizing e with
  | nil => exact ⟨0, by simp, by simp, by simp⟩
  | byte b s hb ih =>
      cases e with
      | zero => exact ⟨0, by simp, by simp, by simp⟩
      | succ e =>
          obtain ⟨i, hi, hle, heq⟩ := ih e
          refine ⟨i + 1, ?_, ?_, ?_⟩
          · simpa [collapse_byte hb] using hi
          · simpa [ofBytes_byte hb, Nat.add_comm 1] using hle
          · simp [collapse_byte hb, heq]
  | run w s hne hw hs ih =>
      rcases Nat.lt_or_ge e w.length with hlt | hge
      · have part : w.drop e ≠ [] := by simpa using hlt
        refine ⟨0, by simp, by simp, ?_⟩
        rw [List.drop_append_of_le_length (Nat.le_of_lt hlt),
          collapse_run part (fun b hb => hw b (List.mem_of_mem_drop hb)) hs,
          collapse_run hne hw hs, List.drop_zero]
      · obtain ⟨k, rfl⟩ := Nat.exists_eq_add_of_le hge
        obtain ⟨i, hi, hle, heq⟩ := ih k
        refine ⟨i + 1, ?_, ?_, ?_⟩
        · simpa [collapse_run hne hw hs] using hi
        · simpa [ofBytes_run hne hw hs] using hle
        · rw [List.drop_length_add_append, heq, collapse_run hne hw hs, List.drop_succ_cons]

/-! ## Collapsing and the language of a template -/

theorem collapse_append_of_solid {u : Bytes} (hu : ∀ b ∈ u, isSpace b = false) (s : Bytes) :
    collapse (u ++ s) = u ++ collapse s := by
  induction u with
  | nil => rfl
  | cons b u ih =>
      rw [List.cons_append, collapse_byte (hu b List.mem_cons_self),
        ih fun c hc => hu c (List.mem_cons_of_mem b hc), List.cons_append]

theorem collapse_eq_self {s : Bytes} (h : ∀ b ∈ collapse s, isSpace b = false) :
    collapse s = s := by
  induction s using runInduction with
  | nil => rfl
  | byte b s hb ih =>
      rw [collapse_byte hb] at h ⊢
      rw [ih fun c hc => h c (List.mem_cons_of_mem b hc)]
  | run w s hne hw hs ih =>
      rw [collapse_run hne hw hs] at h
      exact absurd (h 32 List.mem_cons_self) (by decide)

theorem spaces_of_collapse {s : Bytes} (h : ∀ b ∈ collapse s, isSpace b) :
    ∀ b ∈ s, isSpace b := by
  induction s using runInduction with
  | nil => simp
  | byte b s hb ih =>
      rw [collapse_byte hb] at h
      simp [hb] at h
  | run w s hne hw hs ih =>
      rw [collapse_run hne hw hs] at h
      have rest := ih fun c hc => h c (List.mem_cons_of_mem 32 hc)
      intro b hb
      rcases List.mem_append.mp hb with hb | hb
      · exact hw b hb
      · exact rest b hb

theorem collapse_spaces_append {w : Bytes} (hw : ∀ b ∈ w, isSpace b) (s : Bytes) :
    collapse (w ++ s) = collapse s ∨ collapse (w ++ s) = 32 :: collapse s := by
  by_cases hne : w = []
  · simp [hne]
  · cases s using runInduction with
    | nil => exact .inr (by simpa using collapse_spaces hne hw)
    | byte b s hb => exact .inr (collapse_run hne hw (stops_cons.mpr hb))
    | run v s hv hspace hs =>
        refine .inl ?_
        rw [← List.append_assoc, collapse_run (by simp [hne]) _ hs, collapse_run hv hspace hs]
        intro b hb
        rcases List.mem_append.mp hb with hb | hb
        · exact hw b hb
        · exact hspace b hb

theorem exists_of_collapse_eq_append {s a b : Bytes} (h : collapse s = a ++ b) :
    ∃ u v, s = u ++ v ∧ collapse u = a ∧ collapse v = b := by
  refine ⟨_, _, (List.take_append_drop (origin (ofBytes s) a.length) s).symm, ?_, ?_⟩
  · rw [collapse_take_origin, h, List.take_left]
  · rw [collapse_drop_origin, h, List.drop_left]

section Language

variable {seg : Segment} {segs : List Segment}

theorem admits_of_collapse {w : Bytes} (free : seg.SpaceFree) (h : seg.Admits (collapse w)) :
    seg.Admits w := by
  cases seg with
  | literal t =>
      have hw : collapse w = t := h
      have whole : collapse w = w := collapse_eq_self fun b hb => free b (hw ▸ hb)
      exact whole.symm.trans hw
  | whitespace _ => exact spaces_of_collapse h
  | placeholder _ =>
      have whole : collapse w = w := collapse_eq_self fun b hb => isSpace_of_isWord (h.2 b hb)
      rwa [whole] at h

theorem spells_of_collapse (free : ∀ seg ∈ segs, seg.SpaceFree) {s : Bytes}
    (h : Segment.Spells segs (collapse s)) : Segment.Spells segs s := by
  induction segs generalizing s with
  | nil =>
      have hs := Segment.spells_nil.mp h
      have whole : collapse s = s := collapse_eq_self (by simp [hs])
      exact Segment.spells_nil.mpr (whole.symm.trans hs)
  | cons seg rest ih =>
      obtain ⟨a, b, hab, ha, hb⟩ := Segment.spells_cons.mp h
      obtain ⟨u, v, rfl, rfl, rfl⟩ := exists_of_collapse_eq_append hab
      exact .cons (admits_of_collapse (free seg List.mem_cons_self) ha)
        (ih (fun x hx => free x (List.mem_cons_of_mem seg hx)) hb)

theorem spells_collapse_of_spells (free : ∀ seg ∈ segs, seg.SpaceFree) {s : Bytes}
    (h : Segment.Spells segs s) : Segment.Spells segs (collapse s) := by
  induction h with
  | nil => exact .nil
  | @cons seg rest w s hw _ ih =>
      have tail := ih fun x hx => free x (List.mem_cons_of_mem seg hx)
      have solid : (∀ b ∈ w, isSpace b = false) →
          Segment.Spells (seg :: rest) (collapse (w ++ s)) := by
        intro hsolid
        rw [collapse_append_of_solid hsolid]
        exact .cons hw tail
      cases seg with
      | literal t =>
          obtain rfl : w = t := hw
          exact solid (free (.literal w) List.mem_cons_self)
      | whitespace t =>
          rcases collapse_spaces_append hw s with heq | heq
          · rw [heq]
            exact .cons (w := []) (by simp [Segment.Admits]) tail
          · rw [heq]
            exact .cons (w := [32]) (by simp [Segment.Admits, isSpace]) tail
      | placeholder t => exact solid fun b hb => isSpace_of_isWord (hw.2 b hb)

theorem spells_collapse (free : ∀ seg ∈ segs, seg.SpaceFree) {s : Bytes} :
    Segment.Spells segs (collapse s) ↔ Segment.Spells segs s :=
  ⟨spells_of_collapse free, spells_collapse_of_spells free⟩

end Language

end Condensed
end WasmPackager
