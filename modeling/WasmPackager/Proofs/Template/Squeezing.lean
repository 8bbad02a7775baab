/-
# `Proofs.Template.Squeezing` — texts that differ in their whitespace runs only

`Segment.squeeze s` is the text `s` with one space in the place of each of its
maximal whitespace runs.  Two texts with the same squeezed form are
reformatted forms of each other.

The collapsed text that a search looks at is the squeezed one
(`collapse_eq_squeeze`), so everything a search finds in one of two such
texts it finds in the other, at the offsets that stand for the same cells.
Three facts carry that back to the full texts: cells keep their order under
`origin` (`origin_lt_iff`), what lies between two of them collapses to what lies
between them in the collapsed text (`collapse_between`), and a text without
whitespace stands in a text exactly if it stands in its collapsed form
(`within_collapse_iff`).
-/
import WasmPackager.Proofs.Template.Condensing
import WasmPackager.Proofs.Template.Reading

namespace WasmPackager

open Bytes WasmPackager.Condensed

namespace Segment

/-- A run as it stands in the squeezed text. -/
def squeezeRun (run : Bytes) : Bytes := if run.all isSpace then [32] else run

/-- The text with one space for each maximal run of whitespace. -/
def squeeze (s : Bytes) : Bytes := (runs s).flatMap squeezeRun

theorem collapse_flatten {pieces : List Bytes} (nonempty : [] ∉ pieces)
    (uniform : ∀ run ∈ pieces, (∀ b ∈ run, isSpace b) ∨ ∀ b ∈ run, isSpace b = false)
    (ends : pieces.IsChain fun a b =>
      ∃ ha hb, (isSpace (a.getLast ha) == isSpace (b.head hb)) = false) :
    collapse pieces.flatten = pieces.flatMap squeezeRun := by
  induction pieces with
  | nil => rfl
  | cons run rest ih =>
      have tail : collapse rest.flatten = rest.flatMap squeezeRun :=
        ih (fun h => nonempty (List.mem_cons_of_mem run h))
          (fun r hr => uniform r (List.mem_cons_of_mem run hr)) ends.tail
      have hrun : run ≠ [] := fun h => nonempty (by simp [h])
      rw [List.flatten_cons, List.flatMap_cons]
      rcases uniform run List.mem_cons_self with hspace | hsolid
      · have stops : Stops isSpace rest.flatten := by
          cases rest with
          | nil => exact stops_nil
          | cons next rest =>
              obtain ⟨⟨ha, hb, hne⟩, -⟩ := List.isChain_cons_cons.mp ends
              rw [hspace _ (List.getLast_mem ha)] at hne
              obtain ⟨b, next, rfl⟩ := List.exists_cons_of_ne_nil hb
              exact stops_cons.mpr (by simpa using hne)
        rw [collapse_run hrun hspace stops, tail, squeezeRun,
          if_pos (List.all_eq_true.mpr hspace)]
        rfl
      · have hmixed : run.all isSpace = false := by
          obtain ⟨b, run, rfl⟩ := List.exists_cons_of_ne_nil hrun
          simp [hsolid b List.mem_cons_self]
        rw [collapse_append_of_solid hsolid, tail, squeezeRun, hmixed]
        rfl

/-- The text a search looks at is the squeezed one. -/
theorem collapse_eq_squeeze (s : Bytes) : collapse s = squeeze s := by
  conv_lhs => rw [← List.flatten_splitBy (fun a b => isSpace a == isSpace b) s]
  exact collapse_flatten (List.nil_notMem_splitBy _ s) (fun _ => run_uniform)
    (List.isChain_getLast_head_splitBy (fun a b => isSpace a == isSpace b) s)

end Segment

namespace Condensed

/-! ## Offsets of cells -/

theorem width_pos (s : Bytes) : ∀ cell ∈ ofBytes s, 0 < cell.width := by
  induction s using runInduction with
  | nil => simp
  | byte b s hb ih => simpa [ofBytes_byte hb] using ih
  | run w s hne hw hs ih =>
      rw [ofBytes_run hne hw hs]
      simpa [List.length_pos_iff] using ⟨hne, ih⟩

theorem origin_lt {cells : Condensed} (wide : ∀ cell ∈ cells, 0 < cell.width) {i j : Nat}
    (hij : i < j) (hj : j ≤ cells.length) : origin cells i < origin cells j := by
  induction cells generalizing i j with
  | nil =>
      rw [List.length_nil] at hj
      omega
  | cons cell cells ih =>
      obtain ⟨j, rfl⟩ := Nat.exists_eq_add_one_of_ne_zero (Nat.ne_zero_of_lt hij)
      have hwide : 0 < cell.width := wide cell List.mem_cons_self
      cases i with
      | zero =>
          rw [origin_zero, origin_cons]
          omega
      | succ i =>
          have hj' : j ≤ cells.length := Nat.le_of_succ_le_succ hj
          have tail := ih (fun c hc => wide c (List.mem_cons_of_mem cell hc))
            (Nat.lt_of_succ_lt_succ hij) hj'
          rw [origin_cons, origin_cons]
          omega

theorem origin_lt_iff (s : Bytes) {i j : Nat} (hj : j ≤ (ofBytes s).length) :
    origin (ofBytes s) i < origin (ofBytes s) j ↔ i < j := by
  constructor
  · intro h
    by_contra hij
    have := origin_mono (ofBytes s) (Nat.le_of_not_lt hij)
    omega
  · exact fun h => origin_lt (width_pos s) h hj

theorem origin_take (cells : Condensed) {i j : Nat} (hij : i ≤ j) :
    origin (cells.take j) i = origin cells i := by
  rw [origin, origin, List.take_take, Nat.min_eq_left hij]

/-! ## Between two cells -/

/-- What lies between two cells squeezes to what lies between them in the squeezed text. -/
theorem collapse_between (s : Bytes) {i j : Nat} (hij : i ≤ j) :
    collapse ((s.drop (origin (ofBytes s) i)).take
        (origin (ofBytes s) j - origin (ofBytes s) i)) =
      ((collapse s).drop i).take (j - i) := by
  have same : origin (ofBytes (s.take (origin (ofBytes s) j))) i = origin (ofBytes s) i := by
    rw [ofBytes_take_origin, origin_take _ hij]
  rw [← List.drop_take, ← same, collapse_drop_origin, collapse_take_origin, List.drop_take]

/-! ## What stands behind a text -/

/-- What one more byte in front makes of a collapsed text. -/
def squeezeByte (b : UInt8) (s : Bytes) : Bytes :=
  if isSpace b then (if s.head? = some 32 then s else 32 :: s) else b :: s

theorem toBytes_push (b : UInt8) (cells : Condensed) :
    toBytes (push b cells) = squeezeByte b (toBytes cells) := by
  unfold push squeezeByte
  by_cases hb : isSpace b
  · rw [if_pos hb, if_pos hb]
    cases cells with
    | nil => rfl
    | cons cell rest => by_cases hc : cell.byte = 32 <;> simp [toBytes, hc]
  · rw [if_neg hb, if_neg hb]
    rfl

/-- Collapsing goes byte by byte from the end. -/
theorem collapse_eq_foldr (s : Bytes) : collapse s = s.foldr squeezeByte [] := by
  induction s with
  | nil => rfl
  | cons b s ih =>
      have step : collapse (b :: s) = squeezeByte b (collapse s) := toBytes_push b (ofBytes s)
      rw [step, ih, List.foldr_cons]

theorem foldr_squeezeByte_spaces {w : Bytes} (hne : w ≠ []) (hw : ∀ b ∈ w, isSpace b) (s : Bytes) :
    w.foldr squeezeByte s = squeezeByte 32 s := by
  have space : isSpace 32 = true := by decide
  induction w with
  | nil => exact absurd rfl hne
  | cons b w ih =>
      have hb : isSpace b := hw b List.mem_cons_self
      rw [List.foldr_cons]
      by_cases hempty : w = []
      · simp [hempty, squeezeByte, hb, space]
      · rw [ih hempty fun c hc => hw c (List.mem_cons_of_mem b hc)]
        by_cases hs : s.head? = some 32 <;> simp [squeezeByte, hb, space, hs]

/-- A text can be collapsed before something is put behind it. -/
theorem foldr_collapse (s q : Bytes) :
    (collapse s).foldr squeezeByte q = s.foldr squeezeByte q := by
  induction s using runInduction with
  | nil => rfl
  | byte b s hb ih => rw [collapse_byte hb, List.foldr_cons, ih, List.foldr_cons]
  | run w s hne hw hs ih =>
      rw [collapse_run hne hw hs, List.foldr_cons, ih, List.foldr_append,
        foldr_squeezeByte_spaces hne hw]

theorem collapse_append (s q : Bytes) :
    collapse (s ++ q) = (collapse s).foldr squeezeByte (collapse q) := by
  rw [foldr_collapse, collapse_eq_foldr, List.foldr_append, ← collapse_eq_foldr]

/-! ## What stands in a text -/

theorem prefix_collapse_iff {m : Bytes} (hm : ∀ b ∈ m, isSpace b = false) (s : Bytes) :
    m <+: collapse s ↔ m <+: s := by
  constructor
  · rintro ⟨r, hr⟩
    obtain ⟨u, v, rfl, hu, -⟩ := exists_of_collapse_eq_append hr.symm
    have whole : collapse u = u := collapse_eq_self fun b hb => hm b (hu ▸ hb)
    exact ⟨v, by rw [← whole, hu]⟩
  · rintro ⟨r, rfl⟩
    exact ⟨collapse r, (collapse_append_of_solid hm r).symm⟩

theorem within_collapse_iff {m : Bytes} (hne : m ≠ []) (hm : ∀ b ∈ m, isSpace b = false)
    (s : Bytes) : m <:+: collapse s ↔ m <:+: s := by
  induction s using runInduction with
  | nil => rfl
  | byte b s hb ih =>
      have front := prefix_collapse_iff hm (b :: s)
      rw [collapse_byte hb] at front ⊢
      rw [List.infix_cons_iff, List.infix_cons_iff, ih, front]
  | run w s hne' hw hs ih =>
      have space : ∀ b ∈ [(32 : UInt8)], isSpace b := fun b hb => by
        rw [List.mem_singleton.mp hb]
        decide
      rw [collapse_run hne' hw hs]
      constructor
      · intro h
        exact (ih.mp (within_of_within_run hne hm space h)).trans (List.suffix_append w s).isInfix
      · intro h
        exact (ih.mpr (within_of_within_run hne hm hw h)).trans
          (List.suffix_cons 32 (collapse s)).isInfix

end Condensed
end WasmPackager
