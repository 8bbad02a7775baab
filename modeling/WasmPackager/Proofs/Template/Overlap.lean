/-
# `Proofs.Template.Overlap` — two templates whose texts can share whitespace only

Searches for two templates in one text are made independently, so the end of
what the first one finds can be the beginning of what the second one finds.
Whether the two can share anything but whitespace is a question about the texts
without their whitespace, since whitespace can stand anywhere and in any
amount.

Without whitespace a template with one placeholder is a constant, an
identifier, and a constant.  An ending of such a text is an ending of the last
constant, or an ending of the identifier with the last constant behind it, or an
ending of the first constant with both behind it.  The check `apart` looks at
each, and compares it with the constant that the other template begins with.
-/
import WasmPackager.Proofs.Template.Delimited

namespace WasmPackager.Segment

open Bytes

/-! ## Texts without whitespace -/

/-- The text without its whitespace. -/
def solid (s : Bytes) : Bytes := s.filter (!isSpace ·)

theorem solid_append (s r : Bytes) : solid (s ++ r) = solid s ++ solid r := List.filter_append s r

theorem solid_eq_nil_iff {s : Bytes} : solid s = [] ↔ ∀ b ∈ s, isSpace b := by
  simp [solid]

theorem solid_eq_self {s : Bytes} (h : ∀ b ∈ s, isSpace b = false) : solid s = s :=
  List.filter_eq_self.mpr (by simpa using h)

def isFixed : Segment → Bool
  | literal _ | whitespace _ => true
  | placeholder _ => false

/-- The literals, side by side. -/
def constant : List Segment → Bytes
  | [] => []
  | literal t :: rest => t ++ constant rest
  | whitespace _ :: rest | placeholder _ :: rest => constant rest

/-- Segments without a placeholder spell one text only, up to whitespace. -/
theorem solid_of_isFixed {segs : List Segment} {s : Bytes} (free : ∀ seg ∈ segs, seg.SpaceFree)
    (fixed : ∀ seg ∈ segs, seg.isFixed) (hs : Spells segs s) : solid s = constant segs := by
  induction hs with
  | nil => rfl
  | @cons seg rest w s hw _ ih =>
      have tail : solid s = constant rest :=
        ih (fun x hx => free x (.tail _ hx)) fun x hx => fixed x (.tail _ hx)
      rw [solid_append, tail]
      cases seg with
      | literal t =>
          obtain rfl : w = t := hw
          rw [constant, solid_eq_self (free _ List.mem_cons_self)]
      | whitespace t => rw [constant, solid_eq_nil_iff.mpr hw, List.nil_append]
      | placeholder t => cases fixed _ List.mem_cons_self

/-! ## The check -/

/-- No ending of the first text, but the empty one, agrees with the second text as far as both
go. -/
def endsApart : Bytes → Bytes → Bool
  | [], _ => true
  | b :: s, r => !(b :: s).isPrefixOf r && !r.isPrefixOf (b :: s) && endsApart s r

/-- Identifier bytes and the first text behind them do not agree with the second text: they end at
another byte than the identifier bytes it begins with. -/
def turnsApart (s r : Bytes) : Bool :=
  match s, r.dropWhile isWord with
  | c :: _, d :: _ => !isWord c && c != d
  | [], _ | _, [] => false

/-- There is one placeholder among the segments, and nothing but whitespace at the end of what they
spell can be the beginning of what the other segments spell. -/
def apart (segs others : List Segment) : Bool :=
  let start := constant (others.takeWhile isFixed)
  match segs.dropWhile isFixed with
  | [] => false
  | _ :: back =>
    back.all isFixed && endsApart (constant (segs.takeWhile isFixed)) start &&
      endsApart (constant back) start && turnsApart (constant back) start

section Apart

theorem ne_of_endsApart {e r x y : Bytes} (u : Bytes) (h : endsApart (u ++ e) r) (hne : e ≠ []) :
    e ++ x ≠ r ++ y := by
  induction u with
  | nil =>
      obtain ⟨b, e, rfl⟩ := List.exists_cons_of_ne_nil hne
      rw [List.nil_append, endsApart, Bool.and_eq_true, Bool.and_eq_true] at h
      intro heq
      rcases List.append_eq_append_iff.mp heq with ⟨v, rfl, -⟩ | ⟨v, hv, -⟩
      · have hpre : (b :: e).isPrefixOf (b :: e ++ v) :=
          List.isPrefixOf_iff_prefix.mpr (List.prefix_append _ v)
        rw [hpre] at h
        cases h.1.1
      · have hpre : r.isPrefixOf (b :: e) :=
          List.isPrefixOf_iff_prefix.mpr (hv ▸ List.prefix_append r v)
        rw [hpre] at h
        cases h.1.2
  | cons b u ih =>
      rw [List.cons_append, endsApart, Bool.and_eq_true] at h
      exact ih h.2

theorem ne_of_turnsApart {s r v x y : Bytes} (h : turnsApart s r) (hv : ∀ b ∈ v, isWord b) :
    (v ++ s) ++ x ≠ r ++ y := by
  intro heq
  unfold turnsApart at h
  split at h
  · next c s d r' hr =>
    obtain ⟨hc, hne⟩ := Bool.and_eq_true_iff.mp h
    have hcut : r = r.takeWhile isWord ++ d :: r' := by
      rw [← hr, List.takeWhile_append_dropWhile]
    have hd : Stops isWord (d :: r' ++ y) := stops_append (hr ▸ stops_dropWhile r) (by simp)
    have hstop : Stops isWord (c :: s ++ x) := stops_cons.mpr (by simpa using hc)
    rw [hcut, List.append_assoc, List.append_assoc] at heq
    obtain ⟨-, htail⟩ := run_unique hv (List.all_eq_true.mp List.all_takeWhile) hstop hd heq
    obtain ⟨rfl, -⟩ := List.cons.inj htail
    simp at hne
  · cases h
  · cases h

/-- An ending of a constant, an identifier and a constant that agrees with another constant as far
as both go is empty. -/
theorem eq_nil_of_apart {a name b z o r x y : Bytes} (frontApart : endsApart a r)
    (backApart : endsApart b r) (turns : turnsApart b r) (hname : ∀ c ∈ name, isWord c)
    (hcut : z ++ o = a ++ (name ++ b)) (hagree : o ++ x = r ++ y) : o = [] := by
  rcases List.append_eq_append_iff.mp hcut with ⟨e, rfl, rfl⟩ | ⟨e, -, hrest⟩
  · -- It begins in the first constant, or with the identifier.
    cases e with
    | nil =>
        rw [List.nil_append] at hagree
        exact absurd hagree (ne_of_turnsApart turns hname)
    | cons c e =>
        rw [List.append_assoc] at hagree
        exact absurd hagree (ne_of_endsApart z frontApart (by simp))
  rcases List.append_eq_append_iff.mp hrest with ⟨u, rfl, rfl⟩ | ⟨u, rfl, rfl⟩
  · -- It begins in the last constant.
    by_contra hne
    exact ne_of_endsApart u backApart hne hagree
  · -- It begins in the identifier.
    have hu : ∀ c ∈ u, isWord c := fun c hc => hname c (List.mem_append_right e hc)
    exact absurd hagree (ne_of_turnsApart turns hu)

variable {segs others : List Segment} {z o z' : Bytes}

theorem solid_of_named {seg : Segment} {back : List Segment} {s : Bytes}
    (hdrop : segs.dropWhile isFixed = seg :: back) (hback : back.all isFixed)
    (free : ∀ seg ∈ segs, seg.SpaceFree) (hs : Spells segs s) :
    ∃ name, (∀ c ∈ name, isWord c) ∧
      solid s = constant (segs.takeWhile isFixed) ++ (name ++ constant back) := by
  have hsegs : segs.takeWhile isFixed ++ seg :: back = segs := by
    rw [← hdrop, List.takeWhile_append_dropWhile]
  have hseg : seg.isFixed = false := by
    have hstop := List.head?_dropWhile_not isFixed segs
    rw [hdrop] at hstop
    simpa using hstop
  rw [← hsegs] at free hs
  obtain ⟨a, r, rfl, ha, hr⟩ := spells_append.mp hs
  obtain ⟨name, b, rfl, hname, hb⟩ := spells_cons.mp hr
  have hword : ∀ c ∈ name, isWord c := by
    cases seg with
    | literal t => cases hseg
    | whitespace t => cases hseg
    | placeholder t => exact hname.2
  have front : solid a = constant (segs.takeWhile isFixed) :=
    solid_of_isFixed (fun y hy => free y (List.mem_append_left _ hy))
      (List.all_eq_true.mp List.all_takeWhile) ha
  have behind : solid b = constant back :=
    solid_of_isFixed (fun y hy => free y (List.mem_append_right _ (.tail _ hy)))
      (List.all_eq_true.mp hback) hb
  refine ⟨name, hword, ?_⟩
  rw [solid_append, solid_append, front, behind,
    solid_eq_self fun c hc => isSpace_of_isWord (hword c hc)]

theorem solid_begins {s : Bytes} (free : ∀ seg ∈ segs, seg.SpaceFree) (hs : Spells segs s) :
    ∃ r, solid s = constant (segs.takeWhile isFixed) ++ r := by
  have hsegs : segs.takeWhile isFixed ++ segs.dropWhile isFixed = segs :=
    List.takeWhile_append_dropWhile
  rw [← hsegs] at free hs
  obtain ⟨a, r, rfl, ha, -⟩ := spells_append.mp hs
  refine ⟨solid r, ?_⟩
  rw [solid_append, solid_of_isFixed (fun y hy => free y (List.mem_append_left _ hy))
    (List.all_eq_true.mp List.all_takeWhile) ha]

/-- What ends a text of the one template and begins a text of the other is whitespace. -/
theorem spaces_of_overlap (hapart : apart segs others) (free : ∀ seg ∈ segs, seg.SpaceFree)
    (free' : ∀ seg ∈ others, seg.SpaceFree) (h : Spells segs (z ++ o))
    (h' : Spells others (o ++ z')) : ∀ b ∈ o, isSpace b := by
  rw [apart] at hapart
  split at hapart
  · cases hapart
  next seg back hdrop =>
    simp only [Bool.and_eq_true] at hapart
    obtain ⟨⟨⟨hback, frontApart⟩, backApart⟩, turns⟩ := hapart
    obtain ⟨name, hname, hcut⟩ := solid_of_named hdrop hback free h
    obtain ⟨y, hagree⟩ := solid_begins free' h'
    rw [solid_append] at hcut hagree
    exact solid_eq_nil_iff.mp (eq_nil_of_apart frontApart backApart turns hname hcut hagree)

end Apart

end WasmPackager.Segment
