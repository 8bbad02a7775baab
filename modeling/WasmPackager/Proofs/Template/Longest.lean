/-
# `Proofs.Template.Longest` — the search finds the longest text of the language

`Pattern.measure` is a backtracking search: each whitespace segment and each
placeholder first takes as many bytes as it can, and the first way in which
everything fits decides.  In general such a search need not find the longest
text that fits.  Here it does: `measure` gives the greatest length of a
beginning that the segments spell, and nothing if they spell none.

The induction is on the segments.  A longer match than the one found would
have to leave the segment at hand fewer bytes than the search gave it, so the
two cross, and `Spells.exchange` makes of them a longer match of the rest from
the place where the search went on, which the induction hypothesis excludes.

For a pattern tied to the end there is nothing to compare but the place where
it begins, and the places are tried from the left.
-/
import Mathlib.Order.Bounds.Basic
import WasmPackager.Proofs.Template.Language
import WasmPackager.Template.Pattern

namespace WasmPackager
namespace Pattern

open Segment

/-! ## One segment -/

section Greedy

variable {p : UInt8 → Bool} {rest : Bytes → Option Nat} {s : Bytes} {n : Nat}

/-- What a greedy piece gives comes from a way to cut off bytes of the class. -/
theorem cut_of_greedy (h : greedy p rest s = some n) :
    ∃ w r m, s = w ++ r ∧ (∀ b ∈ w, p b) ∧ rest r = some m ∧ n = w.length + m := by
  induction s generalizing n with
  | nil => exact ⟨[], [], n, rfl, by simp, h, by simp⟩
  | cons b s ih =>
      have stay : rest (b :: s) = some n → ∃ w r m, b :: s = w ++ r ∧ (∀ b ∈ w, p b) ∧
          rest r = some m ∧ n = w.length + m :=
        fun h => ⟨[], b :: s, n, rfl, by simp, h, by simp⟩
      rw [greedy] at h
      by_cases hb : p b
      · rw [if_pos hb] at h
        cases hs : greedy p rest s with
        | none => exact stay (by simpa [hs] using h)
        | some k =>
            obtain ⟨w, r, m, rfl, hw, hr, rfl⟩ := ih hs
            refine ⟨b :: w, r, m, rfl, by simpa using ⟨hb, hw⟩, hr, ?_⟩
            simp only [hs, Option.some.injEq] at h
            simp only [List.length_cons]
            omega
      · exact stay (by simpa [hb] using h)

/-- A greedy piece cuts off at least as many bytes as can be cut off. -/
theorem greedy_of_cut {w r : Bytes} {m : Nat} (hw : ∀ b ∈ w, p b) (hr : rest r = some m) :
    ∃ u r' m', r = u ++ r' ∧ (∀ b ∈ w ++ u, p b) ∧ rest r' = some m' ∧
      greedy p rest (w ++ r) = some ((w ++ u).length + m') := by
  induction w with
  | nil =>
      -- The search may go on into `r`: what it then gives is itself a cut of `r`.
      cases hs : greedy p rest r with
      | some k =>
          obtain ⟨u, r', m', rfl, hu, hr', rfl⟩ := cut_of_greedy hs
          exact ⟨u, r', m', rfl, by simpa using hu, hr', by simpa using hs⟩
      | none =>
          cases r with
          | nil => simp [greedy, hr] at hs
          | cons b r =>
              rw [greedy, hr] at hs
              split at hs
              · split at hs <;> simp at hs
              · simp at hs
  | cons b w ih =>
      obtain ⟨u, r', m', rfl, hu, hr', hs⟩ := ih fun c hc => hw c (List.mem_cons_of_mem b hc)
      have hb : p b := hw b List.mem_cons_self
      refine ⟨u, r', m', rfl, by simpa using ⟨hb, by simpa using hu⟩, hr', ?_⟩
      rw [List.cons_append, greedy, if_pos hb, hs]
      simp only [List.cons_append, List.length_cons, Option.some.injEq]
      omega

end Greedy

/-! ## All segments -/

/-- The segments spell the first `n` bytes of the text, which are all of it if `toEnd`. -/
def Takes (toEnd : Bool) (segs : List Segment) (s : Bytes) (n : Nat) : Prop :=
  ∃ w r, s = w ++ r ∧ w.length = n ∧ Spells segs w ∧ (toEnd → r = [])

section Measure

variable {toEnd : Bool} {segs : List Segment} {s : Bytes} {n : Nat}

/-- A match that begins before another one and does not end before it reaches as far from where
the other one begins. -/
theorem Takes.exchange {u : Bytes} {m : Nat} (inner : Takes toEnd segs s n)
    (outer : Takes toEnd segs (u ++ s) m) (h : u.length + n ≤ m) :
    Takes toEnd segs s (m - u.length) := by
  obtain ⟨v, z, rfl, rfl, hv, -⟩ := inner
  obtain ⟨x, r, hx, rfl, hsx, hr⟩ := outer
  rw [← List.append_assoc] at hx
  rcases List.append_eq_append_iff.mp hx with ⟨y, rfl, rfl⟩ | ⟨y, huv, rfl⟩
  · exact ⟨v ++ y, r, by simp, by simp, hv.exchange hsx, hr⟩
  · -- The outer match ends where the inner one does.
    have hlen := congrArg List.length huv
    simp only [List.length_append] at hlen
    have hy : y = [] := List.length_eq_zero_iff.mp (by omega)
    subst hy
    exact ⟨v, z, rfl, by omega, hv, by simpa using hr⟩

theorem Takes.cons {seg : Segment} {w r : Bytes} (hw : seg.Admits w) (h : Takes toEnd segs r n) :
    Takes toEnd (seg :: segs) (w ++ r) (w.length + n) := by
  obtain ⟨x, z, rfl, rfl, hx, hz⟩ := h
  exact ⟨w ++ x, z, by simp, by simp, .cons hw hx, hz⟩

theorem takes_cons {seg : Segment} (h : Takes toEnd (seg :: segs) s n) :
    ∃ w r m, s = w ++ r ∧ seg.Admits w ∧ Takes toEnd segs r m ∧ n = w.length + m := by
  obtain ⟨x, z, rfl, rfl, hx, hz⟩ := h
  obtain ⟨w, y, rfl, hw, hy⟩ := spells_cons.mp hx
  exact ⟨w, y ++ z, y.length, by simp, hw, ⟨y, z, rfl, rfl, hy, hz⟩, by simp⟩

theorem takes_of_measure (h : measure toEnd segs s = some n) : Takes toEnd segs s n := by
  induction segs generalizing s n with
  | nil =>
      rw [measure] at h
      split at h
      · simp at h
      · next hs =>
          obtain rfl : 0 = n := by simpa using h
          exact ⟨[], s, rfl, rfl, .nil, fun ht => by simpa [ht] using hs⟩
  | cons seg rest ih =>
      cases seg with
      | literal t =>
          rw [measure] at h
          split at h
          · next ht =>
              obtain ⟨r, rfl⟩ := List.isPrefixOf_iff_prefix.mp ht
              rw [List.drop_left, Option.map_eq_some_iff] at h
              obtain ⟨m, hm, rfl⟩ := h
              have admitted : (Segment.literal t).Admits t := rfl
              exact .cons admitted (ih hm)
          · simp at h
      | whitespace t =>
          rw [measure] at h
          obtain ⟨w, r, m, rfl, hw, hr, rfl⟩ := cut_of_greedy h
          have admitted : (Segment.whitespace t).Admits w := hw
          exact .cons admitted (ih hr)
      | placeholder t =>
          cases s with
          | nil => simp [measure] at h
          | cons b s =>
              rw [measure] at h
              split at h
              · next hb =>
                  obtain ⟨k, hk, rfl⟩ := Option.map_eq_some_iff.mp h
                  obtain ⟨w, r, m, rfl, hw, hr, rfl⟩ := cut_of_greedy hk
                  have piece : (placeholder t).Admits (b :: w) :=
                    ⟨by simp, by simpa using ⟨hb, hw⟩⟩
                  simpa [Nat.add_right_comm] using Takes.cons piece (ih hr)
              · simp at h

/-- A greedy piece in front of segments whose longest matches are found leaves none of the
matches it could begin longer than its own. -/
theorem greedy_longest {p : UInt8 → Bool} {w r : Bytes}
    (longest : ∀ {s m}, Takes toEnd segs s m → ∃ n, measure toEnd segs s = some n ∧ m ≤ n)
    (hw : ∀ b ∈ w, p b) (h : Takes toEnd segs r n) :
    ∃ k, greedy p (measure toEnd segs) (w ++ r) = some k ∧ w.length + n ≤ k := by
  obtain ⟨k, hk, -⟩ := longest h
  obtain ⟨u, r', m, rfl, -, hm, hgreedy⟩ := greedy_of_cut hw hk
  refine ⟨_, hgreedy, ?_⟩
  suffices n ≤ u.length + m by
    simp only [List.length_append]
    omega
  rcases Nat.lt_or_ge n (u.length + m) with hlt | hge
  · omega
  · have beyond : Takes toEnd segs r' (n - u.length) := (takes_of_measure hm).exchange h hge
    obtain ⟨k', hk', hle⟩ := longest beyond
    have : m = k' := Option.some.inj (hm.symm.trans hk')
    omega

/-- No match is longer than the one the search finds, and it finds one if there is any. -/
theorem measure_of_takes (h : Takes toEnd segs s n) :
    ∃ k, measure toEnd segs s = some k ∧ n ≤ k := by
  induction segs generalizing s n with
  | nil =>
      obtain ⟨w, r, rfl, rfl, hw, hr⟩ := h
      obtain rfl := spells_nil.mp hw
      refine ⟨0, ?_, Nat.le_refl 0⟩
      rw [measure, if_neg]
      intro ht
      simp only [List.nil_append, Bool.and_eq_true] at ht
      simp [hr ht.1] at ht
  | cons seg rest ih =>
      obtain ⟨w, r, m, rfl, hw, hr, rfl⟩ := takes_cons h
      cases seg with
      | literal t =>
          obtain rfl : w = t := hw
          obtain ⟨k, hk, hle⟩ := ih hr
          refine ⟨w.length + k, ?_, by omega⟩
          rw [measure, if_pos (List.isPrefixOf_iff_prefix.mpr (List.prefix_append w r)),
            List.drop_left, hk, Option.map_some]
      | whitespace t =>
          rw [measure]
          exact greedy_longest ih hw hr
      | placeholder t =>
          obtain ⟨hne, hword⟩ := hw
          cases w with
          | nil => exact absurd rfl hne
          | cons b w =>
              obtain ⟨k, hk, hle⟩ :=
                greedy_longest ih (fun c hc => hword c (List.mem_cons_of_mem b hc)) hr
              refine ⟨k + 1, ?_, by simp only [List.length_cons]; omega⟩
              rw [List.cons_append, measure, if_pos (hword b List.mem_cons_self), hk,
                Option.map_some]

theorem measure_eq_some_iff :
    measure toEnd segs s = some n ↔ IsGreatest {m | Takes toEnd segs s m} n := by
  constructor
  · intro h
    refine ⟨takes_of_measure h, fun m hm => ?_⟩
    obtain ⟨k, hk, hle⟩ := measure_of_takes hm
    rwa [← Option.some.inj (h.symm.trans hk)] at hle
  · rintro ⟨hn, greatest⟩
    obtain ⟨k, hk, hle⟩ := measure_of_takes hn
    rw [hk, Nat.le_antisymm (greatest (takes_of_measure hk)) hle]

theorem measure_eq_none_iff : measure toEnd segs s = none ↔ ∀ m, ¬ Takes toEnd segs s m := by
  constructor
  · intro h m hm
    obtain ⟨k, hk, -⟩ := measure_of_takes hm
    simp [h] at hk
  · intro h
    rw [Option.eq_none_iff_forall_not_mem]
    exact fun n hn => h n (takes_of_measure hn)

end Measure

/-! ## Both ends -/

section Ends

variable {segs : List Segment} {s : Bytes}

def beginnings (segs : List Segment) (s : Bytes) : Set Nat :=
  {e | e ≤ s.length ∧ Spells segs (s.take e)}

/-- The offsets from which the segments spell the rest of a text. -/
def endings (segs : List Segment) (s : Bytes) : Set Nat :=
  {i | i ≤ s.length ∧ Spells segs (s.drop i)}

theorem mem_beginnings {e : Nat} :
    e ∈ beginnings segs s ↔ e ≤ s.length ∧ Spells segs (s.take e) := Iff.rfl

theorem mem_endings {i : Nat} :
    i ∈ endings segs s ↔ i ≤ s.length ∧ Spells segs (s.drop i) := Iff.rfl

theorem mem_beginnings_append {w r : Bytes} :
    w.length ∈ beginnings segs (w ++ r) ↔ Spells segs w := by
  simp [mem_beginnings]

theorem mem_endings_append {w r : Bytes} :
    w.length ∈ endings segs (w ++ r) ↔ Spells segs r := by
  simp [mem_endings]

theorem takes_iff_mem_beginnings {n : Nat} : Takes false segs s n ↔ n ∈ beginnings segs s := by
  constructor
  · rintro ⟨w, r, rfl, rfl, hw, -⟩
    exact mem_beginnings_append.mpr hw
  · rintro ⟨hle, hs⟩
    exact ⟨s.take n, s.drop n, (List.take_append_drop n s).symm, List.length_take_of_le hle, hs,
      by simp⟩

theorem takes_true_iff {n : Nat} : Takes true segs s n ↔ n = s.length ∧ Spells segs s := by
  constructor
  · rintro ⟨w, r, rfl, rfl, hw, hr⟩
    simp [hr rfl, hw]
  · rintro ⟨rfl, hs⟩
    exact ⟨s, [], by simp, rfl, hs, by simp⟩

theorem measure_true_eq_some_iff {n : Nat} :
    measure true segs s = some n ↔ n = s.length ∧ Spells segs s := by
  rw [measure_eq_some_iff, ← takes_true_iff]
  constructor
  · exact fun h => h.1
  · refine fun h => ⟨h, fun m hm => ?_⟩
    exact Nat.le_of_eq ((takes_true_iff.mp hm).1.trans (takes_true_iff.mp h).1.symm)

theorem measure_true_eq_none_iff : measure true segs s = none ↔ ¬ Spells segs s := by
  simp [measure_eq_none_iff, takes_true_iff]

/-- The search from left to right stops at the first place from which the segments spell the
rest. -/
theorem findLast_eq_some {offset : Nat} {span : Span}
    (h : findLast segs offset s = some span) :
    ∃ i, IsLeast (endings segs s) i ∧ span = ⟨offset + i, offset + s.length⟩ := by
  induction s generalizing offset with
  | nil =>
      obtain ⟨n, hn, rfl⟩ := Option.map_eq_some_iff.mp h
      obtain ⟨rfl, hs⟩ := measure_true_eq_some_iff.mp hn
      exact ⟨0, ⟨mem_endings.mpr ⟨Nat.le_refl 0, hs⟩, fun _ _ => Nat.zero_le _⟩, rfl⟩
  | cons b s ih =>
      rw [findLast] at h
      cases hm : measure true segs (b :: s) with
      | some n =>
          obtain ⟨rfl, hs⟩ := measure_true_eq_some_iff.mp hm
          simp only [hm, Option.some.injEq] at h
          exact ⟨0, ⟨mem_endings.mpr ⟨Nat.zero_le _, hs⟩, fun _ _ => Nat.zero_le _⟩, h.symm⟩
      | none =>
          simp only [hm] at h
          obtain ⟨i, ⟨hi, least⟩, rfl⟩ := ih h
          refine ⟨i + 1, ⟨mem_endings.mpr ⟨Nat.succ_le_succ hi.1, hi.2⟩, ?_⟩, ?_⟩
          · rintro (_ | j) hj
            · exact absurd hj.2 (measure_true_eq_none_iff.mp hm)
            · exact Nat.succ_le_succ (least ⟨Nat.le_of_succ_le_succ hj.1, hj.2⟩)
          · simp [Nat.add_assoc, Nat.add_comm 1]

theorem findLast_eq_none {offset : Nat} (h : findLast segs offset s = none) (i : Nat) :
    ¬ Spells segs (s.drop i) := by
  induction s generalizing offset i with
  | nil =>
      rw [findLast, Option.map_eq_none_iff] at h
      simpa using measure_true_eq_none_iff.mp h
  | cons b s ih =>
      rw [findLast] at h
      cases hm : measure true segs (b :: s) with
      | some n => simp [hm] at h
      | none =>
          simp only [hm] at h
          cases i with
          | zero => exact measure_true_eq_none_iff.mp hm
          | succ i => exact ih h i

end Ends

/-- Where a pattern lies in a text: at the end it is tied to, and as long as can be. -/
def Locates (p : Pattern) (s : Bytes) (span : Span) : Prop :=
  match p.anchor with
  | .atStart => span.start = 0 ∧ IsGreatest (beginnings p.segments s) span.stop
  | .atEnd => span.stop = s.length ∧ IsLeast (endings p.segments s) span.start

/-- Some beginning or ending of a text, whichever the pattern is tied to, is one its segments
spell. -/
def Fits (p : Pattern) (s : Bytes) : Prop :=
  match p.anchor with
  | .atStart => ∃ w, w <+: s ∧ Spells p.segments w
  | .atEnd => ∃ w, w <:+ s ∧ Spells p.segments w

/-- A text that is searched as it stands is searched for the longest match. -/
theorem findIn_eq_some {p : Pattern} {s : Bytes} {span : Span} (h : p.findIn s = some span) :
    p.Locates s span := by
  obtain ⟨segs, anchor⟩ := p
  cases anchor with
  | atStart =>
      obtain ⟨n, hn, rfl⟩ := Option.map_eq_some_iff.mp h
      have greatest := measure_eq_some_iff.mp hn
      simp only [takes_iff_mem_beginnings] at greatest
      exact ⟨rfl, greatest⟩
  | atEnd =>
      obtain ⟨i, least, rfl⟩ := findLast_eq_some h
      simpa [Locates] using least

theorem findIn_eq_none {p : Pattern} {s : Bytes} (h : p.findIn s = none) : ¬ p.Fits s := by
  obtain ⟨segs, anchor⟩ := p
  cases anchor with
  | atStart =>
      rintro ⟨w, ⟨r, rfl⟩, hw⟩
      have hnone := measure_eq_none_iff.mp (Option.map_eq_none_iff.mp h)
      exact hnone w.length (takes_iff_mem_beginnings.mpr (mem_beginnings_append.mpr hw))
  | atEnd =>
      rintro ⟨w, ⟨r, rfl⟩, hw⟩
      exact findLast_eq_none h r.length (by simpa using hw)

theorem Locates.unique {p : Pattern} {s : Bytes} {a b : Span} (ha : p.Locates s a)
    (hb : p.Locates s b) : a = b := by
  obtain ⟨segs, anchor⟩ := p
  obtain ⟨a₁, a₂⟩ := a
  obtain ⟨b₁, b₂⟩ := b
  cases anchor with
  | atStart =>
      obtain ⟨rfl, ha⟩ := ha
      obtain ⟨rfl, hb⟩ := hb
      exact congrArg (Span.mk 0) (ha.unique hb)
  | atEnd =>
      obtain ⟨rfl, ha⟩ := ha
      obtain ⟨rfl, hb⟩ := hb
      exact congrArg (Span.mk · s.length) (ha.unique hb)

theorem Locates.fits {p : Pattern} {s : Bytes} {span : Span} (h : p.Locates s span) : p.Fits s := by
  obtain ⟨segs, anchor⟩ := p
  cases anchor with
  | atStart => exact ⟨s.take span.stop, List.take_prefix _ _, h.2.1.2⟩
  | atEnd => exact ⟨s.drop span.start, List.drop_suffix _ _, h.2.1.2⟩

theorem findIn_eq_some_iff {p : Pattern} {s : Bytes} {span : Span} :
    p.findIn s = some span ↔ p.Locates s span := by
  constructor
  · exact findIn_eq_some
  · intro h
    cases hf : p.findIn s with
    | none => exact absurd h.fits (findIn_eq_none hf)
    | some other => rw [(findIn_eq_some hf).unique h]

theorem findIn_eq_none_iff {p : Pattern} {s : Bytes} : p.findIn s = none ↔ ¬ p.Fits s := by
  constructor
  · exact findIn_eq_none
  · intro h
    rw [Option.eq_none_iff_forall_not_mem]
    exact fun span hspan => h (findIn_eq_some hspan).fits

end Pattern
end WasmPackager
