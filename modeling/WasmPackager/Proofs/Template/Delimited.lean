/-
# `Proofs.Template.Delimited` — templates that show where they end

A search finds the longest text that fits.  For a template whose every
whitespace segment and placeholder is followed by something that cannot
belong to it, there is only one text to find: a list of segments that passes
the check `delimited` spells at most one beginning of any text
(`Spells.prefix_unique`).  Both templates of the loader are of this kind up to
whitespace on their open side, which is what `OpenEnded` says.  Such a
template is found at the start of a text exactly where the text can be cut
into something it spells and something that does not begin with whitespace
(`find_start_iff`), and the mirror image of one at the end of a text
(`find_end_iff`).

What is at the open side matters: without the last whitespace segment the cut
would not be unique, since whitespace could go to either part.
-/
import WasmPackager.Proofs.Template.Matching

namespace WasmPackager

open Bytes

namespace Segment

/-! ## The check -/

def spaces : List UInt8 := [9, 10, 11, 12, 13, 32]

theorem mem_spaces {b : UInt8} (h : isSpace b) : b ∈ spaces := by
  revert h
  unfold isSpace spaces
  grind

/-- What the segments spell begins, and not with a byte of the class. -/
def clears (p : UInt8 → Bool) : List Segment → Bool
  | literal (b :: _) :: _ => !p b
  | whitespace _ :: rest => spaces.all (!p ·) && clears p rest
  | _ => false

/-- Behind each whitespace segment stands something that does not begin with whitespace, and
behind each placeholder something that does not begin with a byte of an identifier. -/
def delimited : List Segment → Bool
  | [] => true
  | literal _ :: rest => delimited rest
  | whitespace _ :: rest => clears isSpace rest && delimited rest
  | placeholder _ :: rest => clears isWord rest && delimited rest

section Delimited

variable {segs : List Segment}

theorem stops_of_clears {p : UInt8 → Bool} {s : Bytes} (hp : clears p segs) (h : Spells segs s) :
    s ≠ [] ∧ Stops p s := by
  induction h with
  | nil => simp [clears] at hp
  | @cons seg rest w s hw _ ih =>
      cases seg with
      | literal t =>
          obtain rfl : w = t := hw
          cases w with
          | nil => simp [clears] at hp
          | cons b w => exact ⟨by simp, stops_cons.mpr (by simpa [clears] using hp)⟩
      | whitespace t =>
          obtain ⟨hspaces, hrest⟩ := Bool.and_eq_true_iff.mp hp
          obtain ⟨hne, hstops⟩ := ih hrest
          refine ⟨by simp [hne], ?_⟩
          cases w with
          | nil => exact hstops
          | cons b w =>
              have hb := List.all_eq_true.mp hspaces b (mem_spaces (hw b List.mem_cons_self))
              exact stops_cons.mpr (by simpa using hb)
      | placeholder t => simp [clears] at hp

theorem Spells.run_unique {p : UInt8 → Bool} {w w' s s' x y : Bytes} (hp : clears p segs)
    (hw : ∀ b ∈ w, p b) (hw' : ∀ b ∈ w', p b) (hs : Spells segs s) (hs' : Spells segs s')
    (h : w ++ s ++ x = w' ++ s' ++ y) : w = w' ∧ s ++ x = s' ++ y := by
  obtain ⟨hne, hstops⟩ := stops_of_clears hp hs
  obtain ⟨hne', hstops'⟩ := stops_of_clears hp hs'
  refine Bytes.run_unique hw hw' (stops_append_of_ne_nil hstops hne _)
    (stops_append_of_ne_nil hstops' hne' _) ?_
  simpa only [List.append_assoc] using h

theorem Spells.prefix_unique {s s' x y : Bytes} (hd : delimited segs) (hs : Spells segs s)
    (hs' : Spells segs s') (h : s ++ x = s' ++ y) : s = s' := by
  induction segs generalizing s s' x y with
  | nil => rw [spells_nil.mp hs, spells_nil.mp hs']
  | cons seg rest ih =>
      obtain ⟨w, r, rfl, hw, hr⟩ := spells_cons.mp hs
      obtain ⟨w', r', rfl, hw', hr'⟩ := spells_cons.mp hs'
      have pieces : delimited rest ∧ w = w' := by
        cases seg with
        | literal t => exact ⟨hd, Eq.trans hw (Eq.symm hw')⟩
        | whitespace t =>
            obtain ⟨hclear, hrest⟩ := Bool.and_eq_true_iff.mp hd
            exact ⟨hrest, (Spells.run_unique hclear hw hw' hr hr' h).1⟩
        | placeholder t =>
            obtain ⟨hclear, hrest⟩ := Bool.and_eq_true_iff.mp hd
            exact ⟨hrest, (Spells.run_unique hclear hw.2 hw'.2 hr hr' h).1⟩
      obtain ⟨hrest, rfl⟩ := pieces
      simp only [List.append_assoc, List.append_cancel_left_eq] at h
      rw [ih hrest hr hr' h]

end Delimited

/-! ## An open end -/

/-- The segments end in whitespace, and what those before it spell shows where it ends. -/
def OpenEnded (segs : List Segment) : Prop :=
  ∃ front t, segs = front ++ [whitespace t] ∧ delimited front

/-- Decision procedure for `OpenEnded`. -/
def openEnded (segs : List Segment) : Bool :=
  match segs.reverse with
  | whitespace _ :: front => delimited front.reverse
  | _ => false

theorem openEnded_iff {segs : List Segment} : openEnded segs = true ↔ OpenEnded segs := by
  constructor
  · intro h
    rw [openEnded] at h
    split at h
    · next t front hrev =>
        refine ⟨front.reverse, t, ?_, h⟩
        rw [← List.reverse_reverse segs, hrev, List.reverse_cons]
    · simp at h
  · rintro ⟨front, t, rfl, hd⟩
    simpa [openEnded] using hd

instance decOpenEnded (segs : List Segment) : Decidable (OpenEnded segs) :=
  decidable_of_iff _ openEnded_iff

section OpenEnded

variable {segs : List Segment}

theorem OpenEnded.append_spaces {s y : Bytes} (ho : OpenEnded segs) (hs : Spells segs s)
    (hy : ∀ b ∈ y, isSpace b) : Spells segs (s ++ y) := by
  obtain ⟨front, t, rfl, -⟩ := ho
  obtain ⟨u, v, rfl, hu, hv⟩ := spells_append.mp hs
  have hv : ∀ b ∈ v, isSpace b := spells_singleton.mp hv
  refine spells_append.mpr ⟨u, v ++ y, List.append_assoc u v y, hu, spells_singleton.mpr ?_⟩
  intro b hb
  exact (List.mem_append.mp hb).elim (hv b) (hy b)

theorem OpenEnded.spaces_of_append {s y : Bytes} (ho : OpenEnded segs) (hs : Spells segs s)
    (hsy : Spells segs (s ++ y)) : ∀ b ∈ y, isSpace b := by
  obtain ⟨front, t, rfl, hd⟩ := ho
  obtain ⟨u, v, rfl, hu, -⟩ := spells_append.mp hs
  obtain ⟨u', v', huv, hu', hv'⟩ := spells_append.mp hsy
  rw [List.append_assoc] at huv
  obtain rfl := hu.prefix_unique hd hu' huv
  obtain rfl := List.append_cancel_left huv
  exact fun b hb => spells_singleton.mp hv' b (List.mem_append_right v hb)

end OpenEnded

/-! ## Read backwards -/

def mirror : Segment → Segment
  | literal t => literal t.reverse
  | whitespace t => whitespace t
  | placeholder t => placeholder t

def mirrored (segs : List Segment) : List Segment := (segs.map mirror).reverse

theorem mirrored_append (front back : List Segment) :
    mirrored (front ++ back) = mirrored back ++ mirrored front := by
  simp [mirrored]

theorem admits_mirror {seg : Segment} {w : Bytes} : seg.mirror.Admits w.reverse ↔ seg.Admits w := by
  cases seg <;> simp [mirror, Admits]

theorem spells_mirrored_of_spells {segs : List Segment} {s : Bytes} (h : Spells segs s) :
    Spells (mirrored segs) s.reverse := by
  induction h with
  | nil => exact .nil
  | @cons seg rest w s hw _ ih =>
      have split : mirrored (seg :: rest) = mirrored rest ++ [seg.mirror] := by simp [mirrored]
      rw [split, List.reverse_append]
      exact spells_append.mpr ⟨_, _, rfl, ih, spells_singleton.mpr (admits_mirror.mpr hw)⟩

theorem mirror_mirror (seg : Segment) : seg.mirror.mirror = seg := by
  cases seg <;> simp [mirror]

theorem mirrored_mirrored (segs : List Segment) : mirrored (mirrored segs) = segs := by
  simp [mirrored, mirror_mirror, Function.comp_def]

theorem spells_mirrored {segs : List Segment} {s : Bytes} :
    Spells (mirrored segs) s.reverse ↔ Spells segs s := by
  constructor
  · intro h
    have back := spells_mirrored_of_spells h
    rwa [mirrored_mirrored, List.reverse_reverse] at back
  · exact spells_mirrored_of_spells

/-- Whitespace at the open end can be left out, if what is before it does not end in whitespace. -/
theorem OpenEnded.of_append_spaces {segs : List Segment} {s y : Bytes} (ho : OpenEnded segs)
    (hclear : clears isSpace (mirrored segs).tail) (hsy : Spells segs (s ++ y))
    (hy : ∀ b ∈ y, isSpace b) (hs : Stops isSpace s.reverse) : Spells segs s := by
  obtain ⟨front, t, rfl, -⟩ := ho
  obtain ⟨u, v, huv, hu, hv⟩ := spells_append.mp hsy
  rw [mirrored_append] at hclear
  obtain ⟨-, hstops⟩ := stops_of_clears hclear (spells_mirrored.mpr hu)
  have backwards := congrArg List.reverse huv
  rw [List.reverse_append, List.reverse_append] at backwards
  have hv : ∀ b ∈ v, isSpace b := spells_singleton.mp hv
  obtain ⟨-, heq⟩ := run_unique (by simpa using hy) (by simpa using hv) hs hstops backwards
  rw [List.reverse_inj.mp heq]
  have nothing : (whitespace t).Admits [] := by simp [Admits]
  exact spells_append.mpr ⟨u, [], (List.append_nil u).symm, hu, spells_singleton.mpr nothing⟩

end Segment

namespace Pattern

open Segment

/-! ## Where an open-ended template is found -/

section Ends

variable {segs : List Segment} {text : Bytes} {span : Span}

theorem find_start_of_cut {h z : Bytes} (ho : OpenEnded segs)
    (free : ∀ seg ∈ segs, seg.SpaceFree) (hh : Spells segs h) (hz : Stops isSpace z) :
    (Pattern.mk segs .atStart).find (h ++ z) = some ⟨0, h.length⟩ := by
  refine (find_eq_some_iff free).mpr ⟨rfl, mem_beginnings_append.mpr hh, fun e he => ?_⟩
  rcases Nat.lt_or_ge h.length e with hlt | hge
  · -- A longer beginning would put whitespace at the front of `z`.
    obtain ⟨k, rfl⟩ := Nat.exists_eq_add_of_lt hlt
    have hspell := he.2
    have hk := he.1
    rw [Nat.add_assoc, List.take_length_add_append] at hspell
    have hspaces := ho.spaces_of_append hh hspell
    cases z with
    | nil =>
        rw [List.append_nil] at hk
        omega
    | cons b z =>
        have hb := hspaces b (by simp)
        simp [stops_cons.mp hz] at hb
  · exact hge

/-- A template open at its end is found at the start of a text exactly where the text can be cut
into what the template spells and what does not begin with whitespace. -/
theorem find_start_iff (ho : OpenEnded segs) (free : ∀ seg ∈ segs, seg.SpaceFree) :
    (Pattern.mk segs .atStart).find text = some span ↔
      ∃ h z, text = h ++ z ∧ Spells segs h ∧ Stops isSpace z ∧ span = ⟨0, h.length⟩ := by
  constructor
  · intro hfind
    obtain ⟨start, stop⟩ := span
    obtain ⟨hstart, ⟨hle, hspell⟩, greatest⟩ := (find_eq_some_iff free).mp hfind
    obtain rfl : start = 0 := hstart
    have hlen : (text.take stop).length = stop := List.length_take_of_le hle
    refine ⟨text.take stop, text.drop stop, (List.take_append_drop stop text).symm, hspell, ?_, ?_⟩
    · cases hz : text.drop stop with
      | nil => exact stops_nil
      | cons b z =>
          refine stops_cons.mpr (Bool.eq_false_iff.mpr fun hb => ?_)
          have cut : text = (text.take stop ++ [b]) ++ z := by
            rw [List.append_assoc, List.singleton_append, ← hz, List.take_append_drop]
          have longer := mem_beginnings_append (r := z).mpr
            (ho.append_spaces (y := [b]) hspell (by simpa using hb))
          rw [← cut] at longer
          have hle := greatest longer
          simp only [List.length_append, hlen, List.length_singleton] at hle
          omega
    · rw [hlen]
  · rintro ⟨h, z, rfl, hh, hz, rfl⟩
    exact find_start_of_cut ho free hh hz

theorem find_start_eq_none_iff (free : ∀ seg ∈ segs, seg.SpaceFree) :
    (Pattern.mk segs .atStart).find text = none ↔ ¬ ∃ h, h <+: text ∧ Spells segs h :=
  find_eq_none_iff free

theorem find_end_of_cut {z t : Bytes} (ho : OpenEnded (mirrored segs))
    (free : ∀ seg ∈ segs, seg.SpaceFree) (ht : Spells segs t) (hz : Stops isSpace z.reverse) :
    (Pattern.mk segs .atEnd).find (z ++ t) = some ⟨z.length, (z ++ t).length⟩ := by
  refine (find_eq_some_iff free).mpr ⟨rfl, mem_endings_append.mpr ht, fun e he => ?_⟩
  rcases Nat.lt_or_ge e z.length with hlt | hge
  · have hspell := spells_mirrored.mpr he.2
    rw [List.drop_append_of_le_length (Nat.le_of_lt hlt), List.reverse_append] at hspell
    have hspaces := ho.spaces_of_append (spells_mirrored.mpr ht) hspell
    -- The last byte of `z` would be whitespace.
    cases hr : (z.drop e).reverse with
    | nil =>
        rw [List.reverse_eq_nil_iff, List.drop_eq_nil_iff] at hr
        omega
    | cons b r =>
        have hb := hspaces b (by simp [hr])
        have hstop : Stops isSpace ((z.drop e).reverse ++ (z.take e).reverse) := by
          rwa [← List.reverse_append, List.take_append_drop]
        rw [hr] at hstop
        simp [stops_cons.mp hstop] at hb
  · exact hge

/-- A template that read backwards is open at its end is found at the end of a text exactly where
the text can be cut into what does not end in whitespace and what the template spells. -/
theorem find_end_iff (ho : OpenEnded (mirrored segs)) (free : ∀ seg ∈ segs, seg.SpaceFree) :
    (Pattern.mk segs .atEnd).find text = some span ↔
      ∃ z t, text = z ++ t ∧ Spells segs t ∧ Stops isSpace z.reverse ∧
        span = ⟨z.length, text.length⟩ := by
  constructor
  · intro hfind
    obtain ⟨start, stop⟩ := span
    obtain ⟨hstop, ⟨hle, hspell⟩, least⟩ := (find_eq_some_iff free).mp hfind
    obtain rfl : stop = text.length := hstop
    have hlen : (text.take start).length = start := List.length_take_of_le hle
    refine ⟨text.take start, text.drop start, (List.take_append_drop start text).symm, hspell, ?_,
      ?_⟩
    · cases hz : (text.take start).reverse with
      | nil => exact stops_nil
      | cons b z =>
          refine stops_cons.mpr (Bool.eq_false_iff.mpr fun hb => ?_)
          have hpre : text.take start = z.reverse ++ [b] := by
            rw [← List.reverse_reverse (text.take start), hz, List.reverse_cons]
          have cut : text = z.reverse ++ ([b] ++ text.drop start) := by
            rw [← List.append_assoc, ← hpre, List.take_append_drop]
          have longer : Spells segs ([b] ++ text.drop start) := by
            rw [← spells_mirrored, List.reverse_append]
            exact ho.append_spaces (spells_mirrored.mpr hspell) (by simpa using hb)
          have earlier := mem_endings_append (w := z.reverse).mpr longer
          rw [← cut] at earlier
          have hle : start ≤ z.reverse.length := least earlier
          have hsum := congrArg List.length hpre
          simp only [List.length_append, hlen, List.length_singleton] at hsum
          omega
    · rw [hlen]
  · rintro ⟨z, t, rfl, ht, hz, rfl⟩
    exact find_end_of_cut ho free ht hz

theorem find_end_eq_none_iff (free : ∀ seg ∈ segs, seg.SpaceFree) :
    (Pattern.mk segs .atEnd).find text = none ↔ ¬ ∃ t, t <:+ text ∧ Spells segs t :=
  find_eq_none_iff free

end Ends

end Pattern

end WasmPackager
