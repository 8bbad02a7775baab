/-
# `Proofs.Template.Segmentation` — the one way in which a template is cut

A template can be cut into segments in many ways.  `Canonical` says which one is
meant: whitespace is taken in whole runs, a literal goes on as far as it can,
and it ends where the token is found for the first time, not at an occurrence
further behind that overlaps with that one.  A token that is empty or holds
whitespace is not found at all.

Every text has one canonical cut and no other, and it is the one that is read
(`eq_ofTemplate_iff`).  Both halves rest on what is read off the front of a
text: a run of whitespace, the token, or a literal up to the first place where
one ends (`Ends`).  `cutInduction` follows a text in these steps.
-/
import Mathlib.Data.List.Infix
import Mathlib.Data.List.SplitBy
import WasmPackager.Proofs.Bytes
import WasmPackager.Template.Segment

namespace WasmPackager.Segment

open Bytes

def texts (segs : List Segment) : Bytes := segs.flatMap text

theorem texts_cons (seg : Segment) (rest : List Segment) :
    texts (seg :: rest) = seg.text ++ texts rest := rfl

/-! ## Canonical cuts -/

/-- The token can be found in a template. -/
def Findable (token : Bytes) : Prop := token ≠ [] ∧ ∀ b ∈ token, isSpace b = false

/-- The first occurrence of the token in the text is at the offset. -/
def FirstAt (token : Bytes) (n : Nat) (s : Bytes) : Prop :=
  token <+: s.drop n ∧ ∀ k < n, ¬ token <+: s.drop k

/-- The segment is a piece of a canonical cut. -/
def Fit (token : Bytes) : Segment → Prop
  | literal t => t ≠ [] ∧ (∀ b ∈ t, isSpace b = false) ∧ (token ≠ [] → ¬ token <:+: t)
  | whitespace t => t ≠ [] ∧ ∀ b ∈ t, isSpace b
  | placeholder t => t = token ∧ Findable token

/-- The second segment may stand directly behind the first. -/
def MayFollow (token : Bytes) : Segment → Segment → Prop
  | literal _, literal _ => False
  | whitespace _, whitespace _ => False
  | literal t, placeholder u => FirstAt token t.length (t ++ u)
  | _, _ => True

/-- The segments are the canonical cut of their text. -/
@[mk_iff]
structure Canonical (token : Bytes) (segs : List Segment) : Prop where
  fit : ∀ seg ∈ segs, seg.Fit token
  chain : segs.IsChain (MayFollow token)

section

variable {token s t w r pending : Bytes} {seg : Segment} {segs rest : List Segment}

theorem canonical_nil : Canonical token [] := ⟨by simp, .nil⟩

theorem canonical_cons :
    Canonical token (seg :: rest) ↔
      seg.Fit token ∧ (∀ next ∈ rest.head?, MayFollow token seg next) ∧ Canonical token rest := by
  rw [canonical_iff, canonical_iff, List.forall_mem_cons, List.isChain_cons, and_and_and_comm,
    and_assoc]

/-! ## Where a literal ends -/

/-- A literal that has been read as far as the text ends in front of it. -/
def Ends (token s : Bytes) : Prop := Stops (!isSpace ·) s ∨ Findable token ∧ token <+: s

/-- A literal that begins with `t` does not end before `t` does. -/
def Reaches (token t s : Bytes) : Prop := ∀ k < t.length, ¬ Ends token ((t ++ s).drop k)

theorem reaches_nil : Reaches token [] s := fun _ hk => absurd hk (Nat.not_lt_zero _)

theorem reaches_cons {b : UInt8} :
    Reaches token (b :: t) s ↔ ¬ Ends token (b :: t ++ s) ∧ Reaches token t s := by
  rw [Reaches, List.length_cons, Nat.forall_lt_succ_left]
  rfl

theorem Reaches.solid (h : Reaches token t s) : ∀ b ∈ t, isSpace b = false := by
  induction t with
  | nil => simp
  | cons b t ih =>
      obtain ⟨hb, ht⟩ := reaches_cons.mp h
      refine List.forall_mem_cons.mpr ⟨?_, ih ht⟩
      by_contra hspace
      exact hb (.inl (stops_cons.mpr (by simpa using hspace)))

theorem exists_reaches (token s : Bytes) :
    ∃ t r, s = t ++ r ∧ Reaches token t r ∧ Ends token r := by
  induction s with
  | nil => exact ⟨[], [], rfl, reaches_nil, .inl stops_nil⟩
  | cons b s ih =>
      by_cases hends : Ends token (b :: s)
      · exact ⟨[], b :: s, rfl, reaches_nil, hends⟩
      · obtain ⟨t, r, rfl, ht, hr⟩ := ih
        exact ⟨b :: t, r, rfl, reaches_cons.mpr ⟨hends, ht⟩, hr⟩

/-- Texts in the steps in which they are cut: a run of whitespace, the token, or a literal up to
where it ends. -/
@[elab_as_elim]
theorem cutInduction {motive : Bytes → Prop} (token : Bytes) (nil : motive [])
    (spaces : ∀ w s, w ≠ [] → (∀ b ∈ w, isSpace b) → Stops isSpace s → motive s → motive (w ++ s))
    (found : ∀ s, Findable token → motive s → motive (token ++ s))
    (words : ∀ t s, t ≠ [] → Reaches token t s → Ends token s → motive s → motive (t ++ s))
    (s : Bytes) : motive s := by
  induction hlen : s.length using Nat.strongRecOn generalizing s with
  | ind n ih =>
      have shorter : ∀ {front back : Bytes}, s = front ++ back → front ≠ [] → motive back := by
        intro front back hcut hne
        refine ih back.length ?_ back rfl
        have hpos := List.length_pos_iff.mpr hne
        rw [← hlen, hcut, List.length_append]
        omega
      obtain ⟨t, r, hcut, ht, hr⟩ := exists_reaches token s
      by_cases hne : t = []
      · rw [hne, List.nil_append] at hcut
        rw [← hcut] at hr
        rcases hr with hspace | ⟨hfind, r, hfound⟩
        · cases s with
          | nil => exact nil
          | cons b s =>
              have hb : isSpace b := by simpa using stops_cons.mp hspace
              have begins : ¬ Stops isSpace (b :: s) := by simp [stops_cons, hb]
              obtain ⟨w, r, hruns, hw, hwspace, hr⟩ := exists_run_of_not_stops begins
              rw [hruns]
              exact spaces w r hw hwspace hr (shorter hruns hw)
        · rw [← hfound]
          exact found r hfind (shorter hfound.symm hfind.1)
      · rw [hcut]
        exact words t r hne ht hr (shorter hcut hne)

/-! ## Reading from the front -/

theorem ofWordsAux_skip (token w r : Bytes) :
    ofWordsAux token w.length [] (w ++ r) = ofWordsAux token 0 [] r := by
  induction w with
  | nil => rfl
  | cons b w ih => rw [List.length_cons, List.cons_append, ofWordsAux, ih]

theorem ofWordsAux_token (hne : token ≠ []) (pending r : Bytes) :
    ofWordsAux token 0 pending (token ++ r) =
      ofPending pending ++ placeholder token :: ofWordsAux token 0 [] r := by
  obtain ⟨b, w, rfl⟩ := List.exists_cons_of_ne_nil hne
  rw [List.cons_append, ofWordsAux, if_pos (by simp [List.isPrefixOf_iff_prefix]),
    List.length_cons, Nat.add_sub_cancel, ofWordsAux_skip]

theorem ofWordsAux_literal
    (hreach : ∀ k < t.length, ¬ (token ≠ [] ∧ token <+: (t ++ r).drop k))
    (hends : r = [] ∨ token ≠ [] ∧ token <+: r) (hne : pending.reverse ++ t ≠ []) :
    ofWordsAux token 0 pending (t ++ r) =
      literal (pending.reverse ++ t) :: ofWordsAux token 0 [] r := by
  induction t generalizing pending with
  | nil =>
      rw [List.append_nil] at hne ⊢
      have hliteral : ofPending pending = [literal pending.reverse] := by
        rw [ofPending, if_neg (by simpa using hne)]
      rcases hends with rfl | ⟨htoken, r, rfl⟩
      · rw [List.append_nil, ofWordsAux, hliteral]
        rfl
      · rw [List.nil_append, ofWordsAux_token htoken, ofWordsAux_token htoken, hliteral]
        rfl
  | cons b t ih =>
      rw [List.length_cons, Nat.forall_lt_succ_left] at hreach
      obtain ⟨hb, ht⟩ := hreach
      rw [List.cons_append, ofWordsAux, if_neg, ih ht (by simp), List.reverse_cons,
        List.append_assoc, List.singleton_append]
      simpa [List.isPrefixOf_iff_prefix] using hb

theorem runs_append {kind : Bool} (hne : w ≠ []) (hw : ∀ b ∈ w, isSpace b = kind)
    (hs : ∀ b ∈ s.head?, isSpace b ≠ kind) : runs (w ++ s) = w :: runs s := by
  have uniform : w.IsChain fun a b => (isSpace a == isSpace b) = true := by
    refine (List.pairwise_of_forall_mem_list fun a ha b hb => ?_).isChain
    rw [hw a ha, hw b hb, beq_self_eq_true]
  have breaks : ∀ a ∈ w.getLast?, ∀ b ∈ s.head?, (isSpace a == isSpace b) = false := by
    intro a ha b hb
    rw [hw a (List.mem_of_mem_getLast? ha), beq_eq_false_iff_ne]
    exact (hs b hb).symm
  rw [runs, List.splitBy_append breaks, List.splitBy_of_isChain hne uniform]
  rfl

theorem ofTemplate_spaces (hne : w ≠ []) (hw : ∀ b ∈ w, isSpace b) (hs : Stops isSpace s)
    (token : Bytes) : ofTemplate (w ++ s) token = whitespace w :: ofTemplate s token := by
  rw [ofTemplate, runs_append hne hw (fun b hb => by simp [hs b hb]), List.flatMap_cons]
  obtain ⟨b, w, rfl⟩ := List.exists_cons_of_ne_nil hne
  rw [ofRun, if_pos (hw b List.mem_cons_self)]
  rfl

theorem ofTemplate_words (hw : ∀ b ∈ w, isSpace b = false) (hs : Stops (!isSpace ·) s)
    (token : Bytes) :
    ofTemplate (w ++ s) token = ofWordsAux token 0 [] w ++ ofTemplate s token := by
  by_cases hne : w = []
  · rw [hne]
    rfl
  · rw [ofTemplate, runs_append hne hw (fun b hb => by simpa using hs b hb), List.flatMap_cons]
    obtain ⟨b, w, rfl⟩ := List.exists_cons_of_ne_nil hne
    rw [ofRun, if_neg (by simp [hw b List.mem_cons_self])]
    rfl

theorem exists_words (s : Bytes) :
    ∃ w r, s = w ++ r ∧ (∀ b ∈ w, isSpace b = false) ∧ Stops (!isSpace ·) r := by
  refine ⟨s.takeWhile (!isSpace ·), s.dropWhile (!isSpace ·),
    List.takeWhile_append_dropWhile.symm, ?_, stops_dropWhile s⟩
  intro b hb
  simpa using List.all_eq_true.mp List.all_takeWhile b hb

theorem ofTemplate_token (hfind : Findable token) (s : Bytes) :
    ofTemplate (token ++ s) token = placeholder token :: ofTemplate s token := by
  obtain ⟨w, r, rfl, hw, hr⟩ := exists_words s
  have solid : ∀ b ∈ token ++ w, isSpace b = false := fun b hb =>
    (List.mem_append.mp hb).elim (hfind.2 b) (hw b)
  rw [← List.append_assoc, ofTemplate_words solid hr, ofWordsAux_token hfind.1,
    ofTemplate_words hw hr]
  rfl

theorem ofTemplate_literal (hne : t ≠ []) (hreach : Reaches token t s) (hends : Ends token s) :
    ofTemplate (t ++ s) token = literal t :: ofTemplate s token := by
  obtain ⟨w, r, rfl, hw, hr⟩ := exists_words s
  have solid : ∀ b ∈ t ++ w, isSpace b = false := fun b hb =>
    (List.mem_append.mp hb).elim (hreach.solid b) (hw b)
  have unfound : ∀ k < t.length, ¬ (token ≠ [] ∧ token <+: (t ++ w).drop k) := by
    rintro k hk ⟨htoken, hfound⟩
    have hfind : Findable token :=
      ⟨htoken, fun b hb => solid b (List.mem_of_mem_drop (hfound.subset hb))⟩
    refine hreach k hk (.inr ⟨hfind, hfound.trans ?_⟩)
    rw [← List.append_assoc]
    exact (List.prefix_append (t ++ w) r).drop k
  have hwords : w = [] ∨ token ≠ [] ∧ token <+: w := by
    rcases hends with hstops | ⟨hfind, y, hy⟩
    · exact .inl (eq_nil_of_stops (by simpa using hw) hstops)
    · obtain ⟨v, hv, -⟩ := run_prefix (fun b hb => by simpa using hfind.2 b hb) hr hy
      exact .inr ⟨hfind.1, v, hv.symm⟩
  rw [← List.append_assoc, ofTemplate_words solid hr, ofWordsAux_literal unfound hwords (by simpa),
    ofTemplate_words hw hr]
  rfl

theorem texts_ofTemplate (s token : Bytes) : texts (ofTemplate s token) = s := by
  induction s using cutInduction token with
  | nil => rfl
  | spaces w s hne hw hs ih =>
      rw [ofTemplate_spaces hne hw hs, texts_cons, ih]
      rfl
  | found s hfind ih =>
      rw [ofTemplate_token hfind, texts_cons, ih]
      rfl
  | words t s hne hreach hends ih =>
      rw [ofTemplate_literal hne hreach hends, texts_cons, ih]
      rfl

/-! ## The canonical cut -/

theorem Canonical.stops_space (h : Canonical token (whitespace t :: rest)) :
    Stops isSpace (texts rest) := by
  obtain ⟨-, hfollow, hrest⟩ := canonical_cons.mp h
  cases rest with
  | nil => exact stops_nil
  | cons next rest =>
      have hfit := (canonical_cons.mp hrest).1
      cases next with
      | literal u => exact stops_append_of_ne_nil (stops_of_forall hfit.2.1) hfit.1 _
      | whitespace u => exact absurd (hfollow _ rfl) id
      | placeholder u =>
          obtain ⟨rfl, hfind⟩ := hfit
          exact stops_append_of_ne_nil (stops_of_forall hfind.2) hfind.1 _

theorem Canonical.ends (h : Canonical token (literal t :: rest)) : Ends token (texts rest) := by
  obtain ⟨-, hfollow, hrest⟩ := canonical_cons.mp h
  cases rest with
  | nil => exact .inl stops_nil
  | cons next rest =>
      have hfit := (canonical_cons.mp hrest).1
      cases next with
      | literal u => exact absurd (hfollow _ rfl) id
      | whitespace u =>
          obtain ⟨hne, hu⟩ := hfit
          exact .inl (stops_append_of_ne_nil (stops_of_forall (by simpa using hu)) hne _)
      | placeholder u =>
          obtain ⟨rfl, hfind⟩ := hfit
          exact .inr ⟨hfind, List.prefix_append _ _⟩

/-- In a canonical cut the token is not found within a literal, nor in what it makes with the next
segment. -/
theorem Canonical.unfound (h : Canonical token (literal t :: rest)) (hfind : Findable token)
    {k : Nat} (hk : k < t.length) : ¬ token <+: t.drop k ++ texts rest := by
  rintro ⟨y, hy⟩
  obtain ⟨⟨-, -, hunnamed⟩, hfollow, hrest⟩ := canonical_cons.mp h
  have within : ¬ token <+: t.drop k := fun hfound =>
    hunnamed hfind.1 (hfound.isInfix.trans (List.drop_suffix k t).isInfix)
  rcases List.append_eq_append_iff.mp hy with ⟨x, hx, -⟩ | ⟨x, hx, hcut⟩
  · exact within ⟨x, hx.symm⟩
  -- The occurrence would go on in the next segment.
  have hne : x ≠ [] := by
    rintro rfl
    rw [List.append_nil] at hx
    exact within ⟨[], by rw [hx, List.append_nil]⟩
  cases rest with
  | nil => exact hne (List.append_eq_nil_iff.mp hcut.symm).1
  | cons next rest =>
      have hfit := (canonical_cons.mp hrest).1
      cases next with
      | literal u => exact hfollow _ rfl
      | whitespace u =>
          have solid : ∀ b ∈ x, isSpace b = false := fun b hb => hfind.2 b (by simp [hx, hb])
          have hstops : Stops isSpace (x ++ y) :=
            stops_append_of_ne_nil (stops_of_forall solid) hne y
          rw [← hcut, texts_cons] at hstops
          exact hfit.1 (eq_nil_of_stops hfit.2 hstops)
      | placeholder u =>
          obtain rfl : u = token := hfit.1
          refine (hfollow _ rfl).2 k hk ?_
          have shorter : x.length ≤ u.length := by
            rw [hx, List.length_append]
            exact Nat.le_add_left _ _
          have hprefix : x <+: u :=
            List.prefix_of_prefix_length_le ⟨y, hcut.symm⟩ (List.prefix_append u _) shorter
          rw [List.drop_append_of_le_length (Nat.le_of_lt hk)]
          have hfound := (List.prefix_append_right_inj (t.drop k)).mpr hprefix
          rwa [← hx] at hfound

theorem Canonical.reaches (h : Canonical token (literal t :: rest)) :
    Reaches token t (texts rest) := by
  intro k hk hends
  rw [List.drop_append_of_le_length (Nat.le_of_lt hk)] at hends
  rcases hends with hstops | ⟨hfind, hfound⟩
  · have hne : t.drop k ≠ [] := mt List.drop_eq_nil_iff.mp (Nat.not_le.mpr hk)
    have solid := (canonical_cons.mp h).1.2.1
    exact hne (eq_nil_of_stops (fun b hb => by simp [solid b (List.mem_of_mem_drop hb)]) hstops)
  · exact h.unfound hfind hk hfound

theorem Canonical.eq_ofTemplate (h : Canonical token segs) :
    ofTemplate (texts segs) token = segs := by
  induction segs with
  | nil => rfl
  | cons seg rest ih =>
      obtain ⟨hfit, -, hrest⟩ := canonical_cons.mp h
      rw [texts_cons]
      cases seg with
      | literal t =>
          rw [text, ofTemplate_literal hfit.1 h.reaches h.ends, ih hrest]
      | whitespace t =>
          rw [text, ofTemplate_spaces hfit.1 hfit.2 h.stops_space, ih hrest]
      | placeholder t =>
          obtain ⟨rfl, hfind⟩ := hfit
          rw [text, ofTemplate_token hfind, ih hrest]

theorem Canonical.cons_whitespace (h : Canonical token segs) (hne : w ≠ [])
    (hw : ∀ b ∈ w, isSpace b) (hs : Stops isSpace (texts segs)) :
    Canonical token (whitespace w :: segs) := by
  refine canonical_cons.mpr ⟨⟨hne, hw⟩, fun next hnext => ?_, h⟩
  obtain ⟨tail, rfl⟩ := List.head?_eq_some_iff.mp hnext
  cases next with
  | literal u => trivial
  | whitespace u =>
      obtain ⟨hu, hspaces⟩ := (canonical_cons.mp h).1
      exact absurd (eq_nil_of_stops hspaces hs) hu
  | placeholder u => trivial

theorem Canonical.cons_literal (h : Canonical token segs) (hne : t ≠ [])
    (hreach : Reaches token t (texts segs)) (hends : Ends token (texts segs)) :
    Canonical token (literal t :: segs) := by
  have unnamed : token ≠ [] → ¬ token <:+: t := by
    rintro htoken ⟨x, y, hcut⟩
    have hfind : Findable token := ⟨htoken, fun b hb => hreach.solid b (by simp [← hcut, hb])⟩
    have hk : x.length < t.length := by
      have hpos := List.length_pos_iff.mpr htoken
      simp only [← hcut, List.length_append]
      omega
    refine hreach x.length hk (.inr ⟨hfind, ?_⟩)
    rw [← hcut, List.append_assoc, List.append_assoc, List.drop_left]
    exact List.prefix_append _ _
  refine canonical_cons.mpr ⟨⟨hne, hreach.solid, unnamed⟩, fun next hnext => ?_, h⟩
  obtain ⟨tail, rfl⟩ := List.head?_eq_some_iff.mp hnext
  cases next with
  | literal u =>
      have hpos := List.length_pos_iff.mpr (canonical_cons.mp h).1.1
      exact absurd hends (h.reaches 0 hpos)
  | whitespace u => trivial
  | placeholder u =>
      obtain ⟨rfl, hfind⟩ := (canonical_cons.mp h).1
      have here : u <+: (t ++ u).drop t.length := by
        simp only [List.drop_left, List.prefix_refl]
      refine ⟨here, fun k hk hfound => hreach k hk (.inr ⟨hfind, hfound.trans ?_⟩)⟩
      rw [texts_cons, text, ← List.append_assoc]
      exact (List.prefix_append (t ++ u) (texts tail)).drop k

theorem canonical_ofTemplate (s token : Bytes) : Canonical token (ofTemplate s token) := by
  induction s using cutInduction token with
  | nil => exact canonical_nil
  | spaces w s hne hw hs ih =>
      rw [ofTemplate_spaces hne hw hs]
      exact ih.cons_whitespace hne hw (by rwa [texts_ofTemplate])
  | found s hfind ih =>
      rw [ofTemplate_token hfind]
      exact canonical_cons.mpr ⟨⟨rfl, hfind⟩, fun next _ => by cases next <;> trivial, ih⟩
  | words t s hne hreach hends ih =>
      rw [ofTemplate_literal hne hreach hends]
      exact ih.cons_literal hne (by rwa [texts_ofTemplate]) (by rwa [texts_ofTemplate])

end

/-- A text is cut into segments in one canonical way, and that is how it is read. -/
theorem eq_ofTemplate_iff (s token : Bytes) (segs : List Segment) :
    segs = ofTemplate s token ↔ segs.flatMap text = s ∧ Canonical token segs := by
  constructor
  · rintro rfl
    exact ⟨texts_ofTemplate s token, canonical_ofTemplate s token⟩
  · rintro ⟨rfl, h⟩
    exact h.eq_ofTemplate.symm

/-- Of two occurrences that overlap the first one counts. -/
example : ofTemplate (ascii "ababa") (ascii "aba") =
    [placeholder (ascii "aba"), literal (ascii "ba")] := by
  decide

end WasmPackager.Segment
