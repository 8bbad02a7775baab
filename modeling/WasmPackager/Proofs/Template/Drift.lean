/-
# `Proofs.Template.Drift` — a text that is off by a little is not spelled any more

A text that a list of segments spells can go wrong in two small ways: a byte
of a literal is another one, or whitespace stands where none may stand, inside
a literal or an identifier or between the two (`Drifts`).  Neither is
forgotten: for a `rigid` list of segments no beginning of the altered text,
whatever is behind it, is one that the segments spell (`Drifts.not_spells`).

Until the altered place is reached every piece of such a beginning is where it
was, since the pieces show where they end.  There is one way to get past it:
an identifier right in front of a replaced byte can swallow it if it has become
a byte of an identifier.  Then what comes next has to be found further on, and
the check `misses` says that it is not there.

Drifting is the same thing read backwards (`Drifts.mirrored`), so all this holds
of endings as well.
-/
import WasmPackager.Proofs.Template.Delimited

namespace WasmPackager.Segment

open Bytes

/-! ## Alterations -/

/-- The segment is a literal or a placeholder: no whitespace belongs to it. -/
def IsSolid : Segment → Prop
  | literal _ | placeholder _ => True
  | whitespace _ => False

def IsGap (y : Bytes) : Prop := y ≠ [] ∧ ∀ b ∈ y, isSpace b

/-- The segments, one or two of them, admit a text, and it is altered in one place. -/
inductive Slips : List Segment → Bytes → Bytes → Prop
  /-- A byte of a literal is replaced by another one that is no whitespace. -/
  | replaced {a b : Bytes} {c x : UInt8} :
      x ≠ c → isSpace x = false → Slips [literal (a ++ c :: b)] (a ++ c :: b) (a ++ x :: b)
  /-- Whitespace is put between two bytes of a literal or of an identifier. -/
  | parted {seg : Segment} {a b y : Bytes} :
      seg.IsSolid → seg.Admits (a ++ b) → a ≠ [] → b ≠ [] → IsGap y →
      Slips [seg] (a ++ b) (a ++ y ++ b)
  /-- Whitespace is put between two neighbours that are literals or identifiers. -/
  | between {seg next : Segment} {a b y : Bytes} :
      seg.IsSolid → next.IsSolid → seg.Admits a → next.Admits b → a ≠ [] → b ≠ [] → IsGap y →
      Slips [seg, next] (a ++ b) (a ++ y ++ b)

/-- `Drifts segs s s'`: the segments spell `s`, and `s'` is `s` altered in one place. -/
inductive Drifts : List Segment → Bytes → Bytes → Prop
  | here {segs rest : List Segment} {w w' s : Bytes} :
      Slips segs w w' → Spells rest s → Drifts (segs ++ rest) (w ++ s) (w' ++ s)
  | behind {seg : Segment} {rest : List Segment} {w s s' : Bytes} :
      seg.Admits w → Drifts rest s s' → Drifts (seg :: rest) (w ++ s) (w ++ s')

section Drifts

variable {segs front back : List Segment} {s s' w : Bytes}

theorem Slips.spells (h : Slips segs s s') : Spells segs s := by
  cases h with
  | replaced _ _ => exact spells_singleton.mpr rfl
  | parted _ hab _ _ _ => exact spells_singleton.mpr hab
  | between _ _ ha hb _ _ _ => exact .cons ha (spells_singleton.mpr hb)

theorem Drifts.spells (h : Drifts segs s s') : Spells segs s := by
  induction h with
  | here hslip hs => exact spells_append.mpr ⟨_, _, rfl, hslip.spells, hs⟩
  | behind hw _ ih => exact .cons hw ih

theorem Drifts.append_left (hw : Spells front w) (h : Drifts back s s') :
    Drifts (front ++ back) (w ++ s) (w ++ s') := by
  induction hw with
  | nil => exact h
  | cons hu _ ih =>
      rw [List.cons_append, List.append_assoc, List.append_assoc]
      exact .behind hu ih

theorem Drifts.append_right (h : Drifts front s s') (hw : Spells back w) :
    Drifts (front ++ back) (s ++ w) (s' ++ w) := by
  induction h with
  | here hslip hs =>
      rw [List.append_assoc, List.append_assoc, List.append_assoc]
      exact .here hslip (spells_append.mpr ⟨_, _, rfl, hs, hw⟩)
  | behind hu _ ih =>
      rw [List.append_assoc, List.append_assoc]
      exact .behind hu ih

/-- A text drifts where some of the segments slip, whatever is spelled on both sides. -/
theorem drifts_of_cut {mid : List Segment} {u v w' : Bytes} (hcut : segs = front ++ (mid ++ back))
    (hu : Spells front u) (hslip : Slips mid w w') (hv : Spells back v) :
    Drifts segs (u ++ w ++ v) (u ++ w' ++ v) := by
  rw [hcut, List.append_assoc, List.append_assoc]
  exact (Drifts.here hslip hv).append_left hu

/-! ### Read backwards -/

theorem isSolid_mirror {seg : Segment} : seg.mirror.IsSolid ↔ seg.IsSolid := by
  cases seg <;> exact Iff.rfl

theorem IsGap.reverse {y : Bytes} (h : IsGap y) : IsGap y.reverse :=
  ⟨by simpa using h.1, by simpa using h.2⟩

theorem spaceFree_mirrored (free : ∀ seg ∈ segs, seg.SpaceFree) :
    ∀ seg ∈ mirrored segs, seg.SpaceFree := by
  intro seg hseg
  rw [mirrored, List.mem_reverse, List.mem_map] at hseg
  obtain ⟨seg, hmem, rfl⟩ := hseg
  cases seg with
  | literal t => exact fun b hb => free _ hmem b (List.mem_reverse.mp hb)
  | whitespace t => trivial
  | placeholder t => trivial

theorem Slips.mirrored (h : Slips segs s s') : Slips (mirrored segs) s.reverse s'.reverse := by
  cases h with
  | replaced hne hx =>
      simpa [Segment.mirrored, mirror] using Slips.replaced hne hx
  | @parted seg a b y hseg hab ha hb hy =>
      have admitted : seg.mirror.Admits (b.reverse ++ a.reverse) := by
        rw [← List.reverse_append]
        exact admits_mirror.mpr hab
      simpa [Segment.mirrored] using Slips.parted (isSolid_mirror.mpr hseg) admitted
        (List.reverse_ne_nil_iff.mpr hb) (List.reverse_ne_nil_iff.mpr ha) hy.reverse
  | between hseg hnext hw hv ha hb hy =>
      simpa [Segment.mirrored] using Slips.between (isSolid_mirror.mpr hnext)
        (isSolid_mirror.mpr hseg) (admits_mirror.mpr hv) (admits_mirror.mpr hw)
        (List.reverse_ne_nil_iff.mpr hb) (List.reverse_ne_nil_iff.mpr ha) hy.reverse

theorem Drifts.mirrored (h : Drifts segs s s') : Drifts (mirrored segs) s.reverse s'.reverse := by
  induction h with
  | here hslip hs =>
      rw [mirrored_append, List.reverse_append, List.reverse_append]
      have first : Drifts _ _ _ := .here hslip.mirrored .nil
      simp only [List.append_nil] at first
      exact first.append_left (spells_mirrored.mpr hs)
  | @behind seg rest w s s' hw _ ih =>
      have split : Segment.mirrored (seg :: rest) = Segment.mirrored rest ++ [seg.mirror] :=
        mirrored_append [seg] rest
      rw [split, List.reverse_append, List.reverse_append]
      exact ih.append_right (spells_singleton.mpr (admits_mirror.mpr hw))

end Drifts

/-! ## The check -/

/-- A text with something behind it does not go on with identifier bytes, then whitespace, then
`c`; `next` says so of what is behind it, should the text be all identifier bytes. -/
def missesIn (c : UInt8) (next : Bool) : Bytes → Bool
  | [] => next
  | d :: t => if isWord d then missesIn c next t else !isSpace d && d != c

/-- What the segments spell does not begin with identifier bytes, then whitespace, then `c`. -/
def misses (c : UInt8) : List Segment → Bool
  | literal t :: rest => missesIn c (misses c rest) t
  | whitespace _ :: rest => clears (· == c) rest && misses c rest
  | _ => false

/-- The segments begin with a literal, perhaps behind whitespace, and its first byte cannot be
found further on in its place. -/
def firm : List Segment → Bool
  | literal (c :: t) :: rest => misses c (literal t :: rest)
  | whitespace _ :: literal (c :: t) :: rest => misses c (literal t :: rest)
  | _ => false

/-- Every whitespace segment but the last one, and every placeholder, shows where it ends, and
what is behind a placeholder is firm. -/
def rigid : List Segment → Bool
  | [] => true
  | literal _ :: rest => rigid rest
  | whitespace _ :: rest => (rest.isEmpty || clears isSpace rest) && rigid rest
  | placeholder _ :: rest => clears isWord rest && firm rest && rigid rest

section Rigid

variable {segs rest : List Segment} {c : UInt8} {s s' v y q z : Bytes}

theorem isWord_of_isSpace {b : UInt8} (h : isSpace b) : isWord b = false := by
  refine Bool.eq_false_iff.mpr fun hb => ?_
  rw [isSpace_of_isWord hb] at h
  cases h

theorem behind_gap_unique {c d : UInt8} {y y' q q' : Bytes} (hc : isSpace c = false)
    (hd : isSpace d = false) (hy : ∀ b ∈ y, isSpace b) (hy' : ∀ b ∈ y', isSpace b)
    (h : y ++ c :: q = y' ++ d :: q') : y = y' ∧ c = d ∧ q = q' := by
  obtain ⟨rfl, hq⟩ := run_unique hy hy' (stops_cons.mpr hc) (stops_cons.mpr hd) h
  exact ⟨rfl, List.cons.inj hq⟩

theorem stops_gap (hc : isWord c = false) (hy : ∀ b ∈ y, isSpace b) :
    Stops isWord (y ++ c :: q) :=
  stops_append (stops_of_forall fun b hb => isWord_of_isSpace (hy b hb)) fun _ => stops_cons.mpr hc

theorem missesIn_text {next : Bool} {t r : Bytes} (hc : isWord c = false)
    (hc' : isSpace c = false) (hm : missesIn c next t) (hv : ∀ b ∈ v, isWord b)
    (hy : ∀ b ∈ y, isSpace b) (h : t ++ r = v ++ (y ++ c :: q)) :
    next ∧ ∃ v', (∀ b ∈ v', isWord b) ∧ r = v' ++ (y ++ c :: q) := by
  induction t generalizing v with
  | nil => exact ⟨hm, v, hv, h⟩
  | cons d t ih =>
      rw [missesIn] at hm
      by_cases hd : isWord d
      · rw [if_pos hd] at hm
        cases v with
        | nil =>
            have stops : Stops isWord (d :: (t ++ r)) := by
              rw [← List.cons_append, h]
              exact stops_gap hc hy
            rw [stops_cons.mp stops] at hd
            cases hd
        | cons e v =>
            exact ih hm (fun b hb => hv b (List.mem_cons_of_mem e hb)) (List.cons.inj h).2
      · rw [if_neg hd, Bool.and_eq_true, Bool.not_eq_true', bne_iff_ne] at hm
        obtain ⟨hspace, hne⟩ := hm
        rw [Bool.not_eq_true] at hd
        obtain ⟨rfl, htail⟩ := run_unique (w := []) (by simp) hv (stops_cons.mpr hd)
          (stops_gap hc hy) h
        exact absurd (behind_gap_unique (y := []) hspace hc' (by simp) hy htail).2.1 hne

theorem first_of_clears {p : UInt8 → Bool} (free : ∀ seg ∈ segs, seg.SpaceFree)
    (hp : clears p segs) (hs : Spells segs s) :
    ∃ y d r, s = y ++ d :: r ∧ (∀ b ∈ y, isSpace b) ∧ isSpace d = false ∧ p d = false := by
  induction hs with
  | nil => simp [clears] at hp
  | @cons seg rest w s hw _ ih =>
      cases seg with
      | literal t =>
          obtain rfl : w = t := hw
          cases w with
          | nil => simp [clears] at hp
          | cons d w =>
              exact ⟨[], d, w ++ s, rfl, by simp, free _ List.mem_cons_self d List.mem_cons_self,
                by simpa [clears] using hp⟩
      | whitespace t =>
          obtain ⟨-, hrest⟩ := Bool.and_eq_true_iff.mp hp
          obtain ⟨y, d, r, rfl, hy, hd, hpd⟩ :=
            ih (fun x hx => free x (List.mem_cons_of_mem _ hx)) hrest
          refine ⟨w ++ y, d, r, (List.append_assoc w y (d :: r)).symm, fun b hb => ?_, hd, hpd⟩
          exact (List.mem_append.mp hb).elim (hw b) (hy b)
      | placeholder t => simp [clears] at hp

theorem misses_text (hc : isWord c = false) (hc' : isSpace c = false)
    (free : ∀ seg ∈ segs, seg.SpaceFree) (hm : misses c segs) (hs : Spells segs s)
    (hv : ∀ b ∈ v, isWord b) (hy : ∀ b ∈ y, isSpace b) : s ++ z ≠ v ++ (y ++ c :: q) := by
  induction hs generalizing v with
  | nil => simp [misses] at hm
  | @cons seg rest w s hw hs ih =>
      have ih {v} := @ih v fun x hx => free x (List.mem_cons_of_mem _ hx)
      intro h
      rw [List.append_assoc] at h
      cases seg with
      | literal t =>
          obtain rfl : w = t := hw
          obtain ⟨hrest, v', hv', htail⟩ := missesIn_text hc hc' hm hv hy h
          exact ih hrest hv' htail
      | whitespace t =>
          obtain ⟨hclear, hrest⟩ := Bool.and_eq_true_iff.mp hm
          cases w with
          | nil => exact ih hrest hv h
          | cons e w =>
              -- The identifier bytes are at an end, and what follows the whitespace is not `c`.
              have hword : isWord e = false := isWord_of_isSpace (hw e List.mem_cons_self)
              obtain ⟨y', d, r, rfl, hy', hd, hne⟩ :=
                first_of_clears (fun x hx => free x (List.mem_cons_of_mem _ hx)) hclear hs
              have htail : e :: w ++ (y' ++ d :: r ++ z) = y ++ c :: q :=
                (run_unique (w := []) (by simp) hv (stops_cons.mpr hword) (stops_gap hc hy) h).2
              have regroup : e :: w ++ (y' ++ d :: r ++ z) = (e :: w ++ y') ++ d :: (r ++ z) := by
                simp
              have hspaces : ∀ b ∈ e :: w ++ y', isSpace b := fun b hb =>
                (List.mem_append.mp hb).elim (hw b) (hy' b)
              rw [regroup] at htail
              obtain ⟨-, rfl, -⟩ := behind_gap_unique hd hc' hspaces hy htail
              simp at hne
      | placeholder t => simp [misses] at hm

/-! ## Altered texts -/

/-- A text that slips behind the literal it begins with, or in it, begins as before, unless it is
the first byte that is replaced. -/
theorem Drifts.literal_cases {t : Bytes} (ht : isSpace c = false)
    (h : Drifts (literal (c :: t) :: rest) s s') :
    (∃ r, s' = c :: r) ∨ ∃ x r, s' = x :: (t ++ r) ∧ isSpace x = false ∧ Spells rest r := by
  generalize hlist : literal (c :: t) :: rest = segs at h
  cases h with
  | here hslip hs =>
      cases hslip with
      | @replaced a b _ x hne hx =>
          obtain ⟨hhead, rfl⟩ := List.cons.inj hlist
          cases a with
          | nil =>
              obtain ⟨rfl, rfl⟩ := List.cons.inj (Segment.literal.inj hhead)
              exact .inr ⟨x, _, rfl, hx, hs⟩
          | cons d a =>
              obtain ⟨rfl, -⟩ := List.cons.inj (Segment.literal.inj hhead)
              exact .inl ⟨_, rfl⟩
      | @parted _ a b y _ hab ha _ _ =>
          obtain ⟨rfl, rfl⟩ := List.cons.inj hlist
          obtain ⟨d, a, rfl⟩ := List.exists_cons_of_ne_nil ha
          obtain ⟨rfl, -⟩ := List.cons.inj (show d :: a ++ b = c :: t from hab)
          exact .inl ⟨_, rfl⟩
      | between _ _ ha _ _ _ _ =>
          obtain ⟨rfl, -⟩ := List.cons.inj hlist
          obtain rfl : _ = c :: t := ha
          exact .inl ⟨_, rfl⟩
  | behind hw _ =>
      obtain ⟨rfl, -⟩ := List.cons.inj hlist
      obtain rfl : _ = c :: t := hw
      exact .inl ⟨_, rfl⟩

theorem Drifts.stops_space (hp : clears isSpace segs) (h : Drifts segs s s') :
    s' ≠ [] ∧ Stops isSpace s' := by
  match segs, hp with
  | literal (c :: t) :: rest, hp =>
    have hc : isSpace c = false := by simpa [clears] using hp
    rcases h.literal_cases hc with ⟨r, rfl⟩ | ⟨x, r, rfl, hx, -⟩
    · exact ⟨by simp, stops_cons.mpr hc⟩
    · exact ⟨by simp, stops_cons.mpr hx⟩
  | whitespace t :: rest, hp =>
    simp [clears, spaces, isSpace] at hp

theorem Drifts.of_whitespace {t : Bytes} (h : Drifts (whitespace t :: rest) s s') :
    ∃ w r r', s' = w ++ r' ∧ (∀ b ∈ w, isSpace b) ∧ Drifts rest r r' := by
  generalize hlist : whitespace t :: rest = segs at h
  cases h with
  | here hslip _ =>
      cases hslip with
      | replaced _ _ => cases hlist
      | parted hseg _ _ _ _ =>
          obtain ⟨rfl, -⟩ := List.cons.inj hlist
          cases hseg
      | between hseg _ _ _ _ _ _ =>
          obtain ⟨rfl, -⟩ := List.cons.inj hlist
          cases hseg
  | behind hw hrest =>
      obtain ⟨rfl, rfl⟩ := List.cons.inj hlist
      exact ⟨_, _, _, rfl, hw, hrest⟩

/-- What the segments spell begins with `c`, perhaps behind whitespace.  If it is altered, it still
shows where an identifier in front of it ends, or an identifier that goes on into it does not end
at a `c`. -/
structure Landmark (segs : List Segment) (c : UInt8) : Prop where
  solid : isSpace c = false
  noWord : isWord c = false
  begins : ∀ {s}, Spells segs s → ∃ y q, s = y ++ c :: q ∧ ∀ b ∈ y, isSpace b
  drifted : ∀ {s s'}, Drifts segs s s' → s' ≠ [] ∧ Stops isWord s' ∨
    ∃ x r, s' = x :: r ∧ isWord x ∧ ∀ {v y q z}, (∀ b ∈ v, isWord b) → (∀ b ∈ y, isSpace b) →
      r ++ z ≠ v ++ (y ++ c :: q)

theorem landmark_literal {t : Bytes} (hc : isWord c = false)
    (free : ∀ seg ∈ literal (c :: t) :: rest, seg.SpaceFree) (hm : misses c (literal t :: rest)) :
    Landmark (literal (c :: t) :: rest) c := by
  have hc' : isSpace c = false := free _ List.mem_cons_self c List.mem_cons_self
  have free' : ∀ seg ∈ literal t :: rest, seg.SpaceFree := by
    rw [List.forall_mem_cons] at free ⊢
    exact ⟨fun b hb => free.1 b (List.mem_cons_of_mem c hb), free.2⟩
  refine ⟨hc', hc, fun hs => ?_, fun h => ?_⟩
  · obtain ⟨w, r, rfl, rfl, -⟩ := spells_cons.mp hs
    exact ⟨[], t ++ r, rfl, by simp⟩
  · rcases h.literal_cases hc' with ⟨r, rfl⟩ | ⟨x, r, rfl, -, hr⟩
    · exact .inl ⟨by simp, stops_cons.mpr hc⟩
    · cases hx : isWord x with
      | false => exact .inl ⟨by simp, stops_cons.mpr hx⟩
      | true => exact .inr ⟨x, t ++ r, rfl, hx, misses_text hc hc' free' hm (.cons rfl hr)⟩

theorem Landmark.behind_whitespace (h : Landmark segs c) (t : Bytes) :
    Landmark (whitespace t :: segs) c := by
  refine ⟨h.solid, h.noWord, fun hs => ?_, fun hdrift => ?_⟩
  · obtain ⟨w, r, rfl, hw, hr⟩ := spells_cons.mp hs
    obtain ⟨y, q, rfl, hy⟩ := h.begins hr
    exact ⟨w ++ y, q, (List.append_assoc w y _).symm, fun b hb =>
      (List.mem_append.mp hb).elim (hw b) (hy b)⟩
  · obtain ⟨w, r, r', rfl, hw, hrest⟩ := hdrift.of_whitespace
    cases w with
    | nil => exact h.drifted hrest
    | cons b w =>
        exact .inl ⟨by simp, stops_cons.mpr (isWord_of_isSpace (hw b List.mem_cons_self))⟩

theorem landmark_of_firm (free : ∀ seg ∈ segs, seg.SpaceFree) (hp : clears isWord segs)
    (hf : firm segs) : ∃ c, Landmark segs c := by
  match segs, hf with
  | literal (c :: t) :: rest, hf =>
    exact ⟨c, landmark_literal (by simpa [clears] using hp) free hf⟩
  | whitespace x :: literal (c :: t) :: rest, hf =>
    obtain ⟨-, hc⟩ := Bool.and_eq_true_iff.mp hp
    have tail : Landmark (literal (c :: t) :: rest) c :=
      landmark_literal (by simpa [clears] using hc) (fun seg hseg => free seg (.tail _ hseg)) hf
    exact ⟨c, tail.behind_whitespace x⟩

theorem landmark_of_rigid {t : Bytes} (free : ∀ seg ∈ placeholder t :: rest, seg.SpaceFree)
    (hr : rigid (placeholder t :: rest)) : (∃ c, Landmark rest c) ∧ rigid rest := by
  obtain ⟨hfirm, hrest⟩ := Bool.and_eq_true_iff.mp hr
  obtain ⟨hclear, hfirm⟩ := Bool.and_eq_true_iff.mp hfirm
  exact ⟨landmark_of_firm (fun seg hseg => free seg (.tail _ hseg)) hclear hfirm, hrest⟩

theorem Landmark.stops_isWord (mark : Landmark segs c) (hs : Spells segs s) (r : Bytes) :
    Stops isWord (s ++ r) := by
  obtain ⟨y, q, rfl, hy⟩ := mark.begins hs
  rw [List.append_assoc]
  exact stops_gap mark.noWord hy

theorem Drifts.ne_nil (h : Drifts segs s s') : segs ≠ [] := by
  cases h with
  | here hslip _ => cases hslip <;> simp
  | behind _ _ => simp

theorem IsGap.append_ne {t : Bytes} (hy : IsGap y) (ht : Stops isSpace t) : y ++ q ≠ t := by
  rintro rfl
  exact hy.1 (eq_nil_of_stops hy.2 ht)

theorem IsGap.stops_isWord (hy : IsGap y) : Stops isWord (y ++ q) :=
  stops_append_of_ne_nil (stops_of_forall fun b hb => isWord_of_isSpace (hy.2 b hb)) hy.1 q

/-- A literal or a placeholder that admits some text admits none without bytes, and none that
begins with whitespace. -/
theorem stops_of_isSolid {seg : Segment} {w u : Bytes} (free : seg.SpaceFree) (hseg : seg.IsSolid)
    (hw : seg.Admits w) (hne : w ≠ []) (hu : seg.Admits u) : u ≠ [] ∧ Stops isSpace u := by
  cases seg with
  | literal t =>
      obtain rfl : w = t := hw
      obtain rfl : u = w := hu
      exact ⟨hne, stops_of_forall free⟩
  | whitespace t => cases hseg
  | placeholder t => exact ⟨hu.1, stops_of_forall fun b hb => isSpace_of_isWord (hu.2 b hb)⟩

theorem Slips.not_spells {u w r : Bytes} (h : Slips segs s s')
    (free : ∀ seg ∈ segs ++ rest, seg.SpaceFree) (hr : rigid (segs ++ rest))
    (heq : s' ++ u ++ z = w ++ r) : ¬ Spells (segs ++ rest) w := by
  intro hw
  cases h with
  | @replaced a b c x hne hx =>
      obtain ⟨v, w, rfl, rfl, -⟩ := spells_cons.mp hw
      simp only [List.append_assoc, List.cons_append] at heq
      exact hne (List.cons.inj (List.append_cancel_left heq)).1
  | @parted seg a b y hseg hab ha hb hy =>
      obtain ⟨v, w, rfl, hv, hrest⟩ := spells_cons.mp hw
      obtain ⟨d, b, rfl⟩ := List.exists_cons_of_ne_nil hb
      simp only [List.append_assoc] at heq
      cases seg with
      | literal t =>
          obtain rfl : a ++ d :: b = t := hab
          obtain rfl : v = a ++ d :: b := hv
          have hd : isSpace d = false := free _ List.mem_cons_self d (by simp)
          rw [List.append_assoc] at heq
          exact hy.append_ne (stops_cons.mpr hd) (List.append_cancel_left heq)
      | whitespace t => cases hseg
      | placeholder t =>
          obtain ⟨⟨c, mark⟩, -⟩ := landmark_of_rigid free hr
          obtain ⟨y', q, rfl, hy'⟩ := mark.begins hrest
          rw [List.append_assoc] at heq
          -- The identifier ends at the gap; what is behind the gap is not what follows it.
          obtain ⟨-, htail⟩ := run_unique (fun x hx => hab.2 x (List.mem_append_left _ hx)) hv.2
            hy.stops_isWord (stops_gap mark.noWord hy') heq
          have hd : isWord d := hab.2 d (by simp)
          obtain ⟨-, rfl, -⟩ :=
            behind_gap_unique (isSpace_of_isWord hd) mark.solid hy.2 hy' htail
          rw [mark.noWord] at hd
          cases hd
  | @between seg next a b y hseg hnext ha hb hane hbne hy =>
      obtain ⟨v, w, rfl, hv, hnexts⟩ := spells_cons.mp hw
      obtain ⟨v', w, rfl, hv', hrest⟩ := spells_cons.mp hnexts
      obtain ⟨hne, hstops⟩ := stops_of_isSolid (free _ (by simp)) hnext hb hbne hv'
      simp only [List.append_assoc] at heq
      have htail : y ++ (b ++ (u ++ z)) = v' ++ (w ++ r) := by
        cases seg with
        | literal t =>
            obtain rfl : a = t := ha
            obtain rfl : v = a := hv
            exact List.append_cancel_left heq
        | whitespace t => cases hseg
        | placeholder t =>
            obtain ⟨⟨c, mark⟩, -⟩ := landmark_of_rigid free hr
            have hstop := mark.stops_isWord (.cons hv' hrest) r
            rw [List.append_assoc] at hstop
            exact (run_unique ha.2 hv.2 hy.stops_isWord hstop heq).2
      exact hy.append_ne (stops_append_of_ne_nil hstops hne _) htail

/-- No beginning of an altered text, whatever is behind it, is one that the segments spell. -/
theorem Drifts.not_spells (h : Drifts segs s s') (free : ∀ seg ∈ segs, seg.SpaceFree)
    (hr : rigid segs) {w r : Bytes} (heq : s' ++ z = w ++ r) : ¬ Spells segs w := by
  induction h generalizing w with
  | here hslip hs => exact hslip.not_spells free hr heq
  | @behind seg rest u s s' hu hdrift ih =>
      intro hw
      obtain ⟨v, x, rfl, hv, hx⟩ := spells_cons.mp hw
      have ih := fun hr heq => ih (fun y hy => free y (.tail _ hy)) hr heq hx
      rw [List.append_assoc, List.append_assoc] at heq
      cases seg with
      | literal t =>
          obtain rfl : u = t := hu
          obtain rfl : v = u := hv
          exact ih hr (List.append_cancel_left heq)
      | whitespace t =>
          obtain ⟨hclear, hr⟩ := Bool.and_eq_true_iff.mp hr
          have hclear : clears isSpace rest := by simpa [hdrift.ne_nil] using hclear
          obtain ⟨hne, hstops⟩ := hdrift.stops_space hclear
          obtain ⟨hne', hstops'⟩ := stops_of_clears hclear hx
          obtain ⟨-, htail⟩ := run_unique hu hv (stops_append_of_ne_nil hstops hne _)
            (stops_append_of_ne_nil hstops' hne' _) heq
          exact ih hr htail
      | placeholder t =>
          obtain ⟨⟨c, mark⟩, hr⟩ := landmark_of_rigid free hr
          obtain ⟨y, q, rfl, hy⟩ := mark.begins hx
          rw [List.append_assoc] at heq
          have hstop : Stops isWord (y ++ (c :: q ++ r)) := stops_gap mark.noWord hy
          rcases mark.drifted hdrift with ⟨hne, hstops⟩ | ⟨b, s', rfl, hb, hmiss⟩
          · obtain ⟨-, htail⟩ := run_unique hu.2 hv.2
              (stops_append_of_ne_nil hstops hne _) hstop heq
            exact ih hr (by rw [htail, List.append_assoc])
          · -- The identifier has swallowed `b` and goes on behind it.
            have swallowed : (u ++ [b]) ++ (s' ++ z) = v ++ (y ++ (c :: q ++ r)) := by
              rw [List.append_assoc]
              exact heq
            have hword : ∀ a ∈ u ++ [b], isWord a := by
              simpa [or_imp, forall_and, hb] using hu.2
            obtain ⟨v', rfl, htail⟩ := run_prefix hword hstop swallowed
            exact hmiss (fun a ha => hv.2 a (List.mem_append_right _ ha)) hy htail

end Rigid

end WasmPackager.Segment
