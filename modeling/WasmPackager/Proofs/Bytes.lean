/-
# `Proofs.Bytes` — runs of bytes of one class

Texts are cut where a run of bytes of a class ends.  `Bytes.Stops p s` says
that a run of class `p` does not go on into `s`; with it a text is a run and a
rest in one way only (`run_unique`), and stripping a text takes off the runs
at both ends and nothing else (`strip_cut`, `strip_of_stops`).
`Bytes.runInduction` follows a text in the steps in which whitespace is drawn
together: one byte that is no whitespace, or one whole run of whitespace.

Sorting texts changes their order and nothing else, and it leaves no choice: a
list that is in order is the sorted form of every list with the same members
(`sort_perm`, `eq_sort_iff`).
-/
import WasmPackager.Bytes

namespace WasmPackager.Bytes

/-- The text does not begin with a byte of the class. -/
def Stops (p : UInt8 → Bool) (s : Bytes) : Prop := ∀ b ∈ s.head?, p b = false

section Stops

variable {p : UInt8 → Bool}

theorem stops_nil : Stops p [] := by simp [Stops]

theorem stops_cons {b : UInt8} {s : Bytes} : Stops p (b :: s) ↔ p b = false := by simp [Stops]

theorem stops_of_forall {s : Bytes} (h : ∀ b ∈ s, p b = false) : Stops p s :=
  fun b hb => h b (List.mem_of_mem_head? hb)

theorem stops_append {s r : Bytes} (h : Stops p s) (hr : s = [] → Stops p r) :
    Stops p (s ++ r) := by
  cases s with
  | nil => exact hr rfl
  | cons b s => exact h

theorem stops_append_of_ne_nil {s : Bytes} (h : Stops p s) (hne : s ≠ []) (r : Bytes) :
    Stops p (s ++ r) :=
  stops_append h fun he => absurd he hne

theorem eq_nil_of_stops {w r : Bytes} (hw : ∀ b ∈ w, p b) (h : Stops p (w ++ r)) : w = [] := by
  cases w with
  | nil => rfl
  | cons b w => simpa [hw b List.mem_cons_self] using stops_cons.mp h

theorem stops_take {s : Bytes} (h : Stops p s) (n : Nat) : Stops p (s.take n) := by
  cases s with
  | nil => simpa using h
  | cons b s =>
      cases n with
      | zero => exact stops_nil
      | succ n => exact h

theorem stops_dropWhile (s : Bytes) : Stops p (s.dropWhile p) := by
  induction s with
  | nil => exact stops_nil
  | cons b s ih =>
      by_cases hb : p b
      · rwa [List.dropWhile_cons_of_pos hb]
      · rw [List.dropWhile_cons_of_neg hb]
        exact stops_cons.mpr (by simpa using hb)

theorem stops_of_prefix {s r : Bytes} (hs : Stops p s) (h : r <+: s) : Stops p r := by
  obtain ⟨t, rfl⟩ := h
  simpa using stops_take hs r.length

theorem dropWhile_of_stops {s : Bytes} (h : Stops p s) : s.dropWhile p = s := by
  cases s with
  | nil => rfl
  | cons b s => simp [stops_cons.mp h]

theorem takeWhile_of_stops {w r : Bytes} (hw : ∀ b ∈ w, p b) (hr : Stops p r) :
    (w ++ r).takeWhile p = w := by
  rw [List.takeWhile_append_of_pos hw]
  cases r with
  | nil => simp
  | cons b r => simp [stops_cons.mp hr]

/-- A text is a run of a class and a text that does not begin with the class in one way only. -/
theorem run_unique {w w' r r' : Bytes} (hw : ∀ b ∈ w, p b) (hw' : ∀ b ∈ w', p b)
    (hr : Stops p r) (hr' : Stops p r') (h : w ++ r = w' ++ r') : w = w' ∧ r = r' := by
  have hww : w = w' := by
    rw [← takeWhile_of_stops hw hr, h, takeWhile_of_stops hw' hr']
  subst hww
  exact ⟨rfl, List.append_cancel_left h⟩

theorem run_prefix {p : UInt8 → Bool} {u v r r' : Bytes} (hu : ∀ b ∈ u, p b) (hr : Stops p r')
    (h : u ++ r = v ++ r') : ∃ v', v = u ++ v' ∧ r = v' ++ r' := by
  rcases List.append_eq_append_iff.mp h with h | ⟨x, rfl, rfl⟩
  · exact h
  · obtain rfl := eq_nil_of_stops (fun b hb => hu b (List.mem_append_right v hb)) hr
    exact ⟨[], by simp, rfl⟩

/-- A text that begins with the class begins with a whole run of it. -/
theorem exists_run_of_not_stops {s : Bytes} (h : ¬ Stops p s) :
    ∃ w r, s = w ++ r ∧ w ≠ [] ∧ (∀ b ∈ w, p b) ∧ Stops p r := by
  refine ⟨s.takeWhile p, s.dropWhile p, List.takeWhile_append_dropWhile.symm, ?_,
    List.all_eq_true.mp List.all_takeWhile, stops_dropWhile s⟩
  cases s with
  | nil => exact absurd stops_nil h
  | cons b s =>
      have hb : p b := by simpa [stops_cons] using h
      simp [List.takeWhile_cons_of_pos hb]

/-! ## Stripped texts -/

theorem strip_cut (p : UInt8 → Bool) (s : Bytes) :
    ∃ y z, s = y ++ strip p s ++ z ∧ (∀ b ∈ y, p b) ∧ ∀ b ∈ z, p b := by
  refine ⟨s.takeWhile p, ((s.dropWhile p).reverse.takeWhile p).reverse, ?_, ?_, ?_⟩
  · rw [strip, List.append_assoc, ← List.reverse_append, List.takeWhile_append_dropWhile,
      List.reverse_reverse, List.takeWhile_append_dropWhile]
  · exact List.all_eq_true.mp List.all_takeWhile
  · intro b hb
    exact List.all_eq_true.mp List.all_takeWhile b (List.mem_reverse.mp hb)

theorem stops_strip_reverse (p : UInt8 → Bool) (s : Bytes) : Stops p (strip p s).reverse := by
  rw [strip, List.reverse_reverse]
  exact stops_dropWhile _

theorem stops_strip (p : UInt8 → Bool) (s : Bytes) : Stops p (strip p s) := by
  refine stops_of_prefix (stops_dropWhile s) ?_
  rw [strip, ← List.reverse_suffix, List.reverse_reverse]
  exact List.dropWhile_suffix p

theorem strip_of_stops {s : Bytes} (h : Stops p s) (hr : Stops p s.reverse) : strip p s = s := by
  rw [strip, dropWhile_of_stops h, dropWhile_of_stops hr, List.reverse_reverse]

theorem strip_ne_nil {s : Bytes} {b : UInt8} (hb : b ∈ s) (hp : p b = false) : strip p s ≠ [] := by
  intro hnil
  obtain ⟨y, z, hs, hy, hz⟩ := strip_cut p s
  rw [hs, hnil, List.append_nil] at hb
  have hrun : p b = true := (List.mem_append.mp hb).elim (hy b) (hz b)
  rw [hp] at hrun
  cases hrun

/-- A text without bytes of the class that stands in another one, behind some of them, stands in
what is behind them. -/
theorem within_of_within_run {m w c : Bytes} (hne : m ≠ []) (hm : ∀ b ∈ m, p b = false)
    (hw : ∀ b ∈ w, p b) (h : m <:+: w ++ c) : m <:+: c := by
  obtain ⟨a, b, hab⟩ := h
  rw [List.append_assoc] at hab
  rcases List.append_eq_append_iff.mp hab with ⟨y, rfl, hy⟩ | ⟨y, -, rfl⟩
  · -- The first byte of `m` would be one of the run.
    cases m with
    | nil => exact absurd rfl hne
    | cons d m =>
        cases y with
        | nil => exact ⟨[], b, hy⟩
        | cons e y =>
            obtain ⟨rfl, -⟩ := List.cons_eq_cons.mp hy
            have hd := hw d (by simp)
            simp [hm d List.mem_cons_self] at hd
  · exact ⟨y, b, by simp⟩

theorem within_strip_iff {m s : Bytes} (hne : m ≠ []) (hm : ∀ b ∈ m, p b = false) :
    m <:+: strip p s ↔ m <:+: s := by
  obtain ⟨y, z, hs, hy, hz⟩ := strip_cut p s
  constructor
  · intro h
    exact h.trans ⟨y, z, hs.symm⟩
  · intro h
    rw [hs, List.append_assoc] at h
    have left := within_of_within_run hne hm hy h
    rw [← List.reverse_infix, List.reverse_append] at left
    have right := within_of_within_run (m := m.reverse) (by simpa using hne) (by simpa using hm)
      (by simpa using hz) left
    exact List.reverse_infix.mp right

end Stops

/-! ## Searching -/

theorem occursIn_iff_within {token s : Bytes} : occursIn token s = true ↔ token <:+: s := by
  induction s with
  | nil => simp [occursIn]
  | cons b s ih =>
      rw [occursIn, Bool.or_eq_true, List.isPrefixOf_iff_prefix, ih, List.infix_cons_iff]

/-! ## Induction -/

/-- Texts byte by byte, except that a whitespace run is taken in one step. -/
@[elab_as_elim]
theorem runInduction {motive : Bytes → Prop} (nil : motive [])
    (byte : ∀ b s, isSpace b = false → motive s → motive (b :: s))
    (run : ∀ w s, w ≠ [] → (∀ b ∈ w, isSpace b) → Stops isSpace s → motive s → motive (w ++ s))
    (s : Bytes) : motive s := by
  induction hlen : s.length using Nat.strongRecOn generalizing s with
  | ind n ih =>
      cases s with
      | nil => exact nil
      | cons b s =>
          by_cases hb : isSpace b
          · have begins : ¬ Stops isSpace (b :: s) := by simp [stops_cons, hb]
            obtain ⟨w, r, hcut, hne, hw, hr⟩ := exists_run_of_not_stops begins
            have shorter : r.length < n := by
              rw [← hlen, hcut, List.length_append]
              exact Nat.lt_add_of_pos_left (List.length_pos_iff.mpr hne)
            rw [hcut]
            exact run w r hne hw hr (ih _ shorter r rfl)
          · refine byte b s (by simpa using hb) (ih s.length ?_ s rfl)
            rw [← hlen]
            exact Nat.lt_succ_self _

/-! ## Sorting -/

theorem insertBy_perm {α : Type} (key : α → Bytes) (x : α) (xs : List α) :
    (insertBy key x xs).Perm (x :: xs) := by
  induction xs with
  | nil => exact List.Perm.refl _
  | cons y ys ih =>
      rw [insertBy]
      split
      · exact List.Perm.refl _
      · exact (ih.cons y).trans (List.Perm.swap x y ys)

theorem sort_perm (xs : List Bytes) : (sort xs).Perm xs := by
  induction xs with
  | nil => exact List.Perm.refl _
  | cons x xs ih => exact (insertBy_perm id x _).trans (ih.cons x)

theorem le_iff {a b : Bytes} : le a b = true ↔ a ≤ b := by
  rw [le, Bool.not_eq_true', decide_eq_false_iff_not, List.not_lt]

theorem pairwise_insertBy (x : Bytes) {xs : List Bytes} (h : xs.Pairwise (· ≤ ·)) :
    (insertBy id x xs).Pairwise (· ≤ ·) := by
  induction xs with
  | nil => exact List.pairwise_singleton _ x
  | cons y ys ih =>
      obtain ⟨hy, hys⟩ := List.pairwise_cons.mp h
      rw [insertBy]
      split
      · next hle =>
        have hxy : x ≤ y := le_iff.mp hle
        refine List.pairwise_cons.mpr ⟨fun z hz => ?_, h⟩
        rcases List.mem_cons.mp hz with rfl | hz
        · exact hxy
        · exact List.le_trans hxy (hy z hz)
      · next hle =>
        have hyx : y ≤ x := (List.le_total y x).resolve_right (mt le_iff.mpr hle)
        refine List.pairwise_cons.mpr ⟨fun z hz => ?_, ih hys⟩
        rcases List.mem_cons.mp ((insertBy_perm id x ys).mem_iff.mp hz) with rfl | hz
        · exact hyx
        · exact hy z hz

theorem pairwise_sort (xs : List Bytes) : (sort xs).Pairwise (· ≤ ·) := by
  induction xs with
  | nil => exact List.Pairwise.nil
  | cons x xs ih => exact pairwise_insertBy x ih

/-- A list is sorted in one way only. -/
theorem eq_sort_iff {xs ys : List Bytes} : ys = sort xs ↔ ys.Perm xs ∧ ys.Pairwise (· ≤ ·) := by
  constructor
  · rintro rfl
    exact ⟨sort_perm xs, pairwise_sort xs⟩
  · rintro ⟨hperm, hys⟩
    exact (hperm.trans (sort_perm xs).symm).eq_of_pairwise
      (fun a b _ _ hab hba => List.le_antisymm hab hba) hys (pairwise_sort xs)

theorem sort_congr {xs ys : List Bytes} (h : xs.Perm ys) : sort xs = sort ys :=
  eq_sort_iff.mpr ⟨(sort_perm xs).trans h, pairwise_sort xs⟩

theorem sort_filter (p : Bytes → Bool) (xs : List Bytes) :
    (sort xs).filter p = sort (xs.filter p) :=
  eq_sort_iff.mpr ⟨(sort_perm xs).filter p, (pairwise_sort xs).filter p⟩

/-! ## Constants -/

/-- A constant has at most a byte for every one it is written in: every character takes one. -/
theorem length_ascii_le (s : String) : (ascii s).length ≤ s.utf8ByteSize := by
  have counted : ∀ cs : List Char, cs.length ≤ (cs.flatMap String.utf8EncodeChar).length := by
    intro cs
    induction cs with
    | nil => exact Nat.le_refl 0
    | cons c cs ih =>
        have hc := c.utf8Size_pos
        rw [List.flatMap_cons, List.length_append, String.length_utf8EncodeChar, List.length_cons]
        omega
  rw [ascii, List.length_map, String.utf8ByteSize, ← String.utf8Encode_toList, List.utf8Encode,
    List.size_toByteArray]
  exact counted s.toList

end WasmPackager.Bytes
