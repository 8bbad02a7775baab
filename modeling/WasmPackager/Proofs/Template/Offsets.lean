/-
# `Proofs.Template.Offsets` — the collapsed text within the full one

Every span the packager reports was found in a collapsed text and carried back
by `Condensed.origin`.  `Condensed.origins` lists the values of that map: where
the cells begin, in order, and behind them where the text ends.

The map embeds the collapsed text in the full one, whatever the full one is
(`origins_embed`).  Three things have to be told apart there.

* *Order.*  Every cell has a width, so no two entries are the same
  (`pairwise_origins`).
* *Contents.*  What lies between two entries collapses to what lies between
  the two bytes they stand for.
* *What is left out.*  An offset is no entry exactly if a whitespace run goes
  on across it (`mem_origins_iff`): a run is one cell, so nothing begins within
  it (`not_mem_origins_of_insideRun`), and where no run goes on, the two parts
  of the text are condensed one by one (`ofBytes_append`), so that a cell
  begins where they meet.

Collapsing twice is collapsing once because of what a collapsed text looks
like (`Tight`); the two runs are not compared.
-/
import WasmPackager.Proofs.Template.Squeezing

namespace WasmPackager

open Bytes

/-- The offset lies strictly inside a maximal run of whitespace. -/
def Bytes.InsideRun (s : Bytes) (e : Nat) : Prop :=
  ∃ u w v, s = u ++ w ++ v ∧ (∀ b ∈ w, isSpace b) ∧ Stops isSpace u.reverse ∧ Stops isSpace v ∧
    u.length < e ∧ e < u.length + w.length

/-- A text that is cut with whitespace on both sides is cut inside a run: the one made of the
whitespace in front of the cut and behind it. -/
theorem Bytes.insideRun_of_not_stops {l r : Bytes} (hl : ¬ Stops isSpace l.reverse)
    (hr : ¬ Stops isSpace r) : InsideRun (l ++ r) l.length := by
  obtain ⟨x, u, hcut, hx, hxspace, hu⟩ := exists_run_of_not_stops hl
  obtain ⟨y, v, rfl, hy, hyspace, hv⟩ := exists_run_of_not_stops hr
  obtain rfl : l = u.reverse ++ x.reverse := by
    rw [← List.reverse_append, ← hcut, List.reverse_reverse]
  refine ⟨u.reverse, x.reverse ++ y, v, by simp, ?_, by simpa using hu, hv, ?_, ?_⟩
  · intro b hb
    rcases List.mem_append.mp hb with hb | hb
    · exact hxspace b (List.mem_reverse.mp hb)
    · exact hyspace b hb
  · simpa [List.length_pos_iff] using hx
  · simpa [List.length_pos_iff] using hy

namespace Condensed

/-! ## What a collapsed text looks like -/

/-- No two whitespace bytes stand side by side, and all of them are spaces. -/
structure Tight (s : Bytes) : Prop where
  apart : s.IsChain fun a b => ¬ (isSpace a ∧ isSpace b)
  plain : ∀ b ∈ s, isSpace b → b = 32

theorem tight_nil : Tight [] := ⟨.nil, by simp⟩

theorem tight_cons {b : UInt8} {s : Bytes} :
    Tight (b :: s) ↔ (isSpace b → b = 32 ∧ Stops isSpace s) ∧ Tight s := by
  constructor
  · rintro ⟨apart, plain⟩
    obtain ⟨front, rest⟩ := List.isChain_cons.mp apart
    refine ⟨fun hb => ⟨plain b List.mem_cons_self hb, fun c hc => ?_⟩,
      rest, fun c hc => plain c (List.mem_cons_of_mem b hc)⟩
    simpa [hb] using front c hc
  · rintro ⟨front, rest⟩
    refine ⟨List.isChain_cons.mpr ⟨fun c hc both => ?_, rest.apart⟩, fun c hc hspace => ?_⟩
    · have hsolid : isSpace c = false := (front both.1).2 c hc
      rw [both.2] at hsolid
      cases hsolid
    · rcases List.mem_cons.mp hc with rfl | hc
      · exact (front hspace).1
      · exact rest.plain c hc hspace

def orSpace (b : UInt8) : UInt8 := if isSpace b then 32 else b

theorem head?_collapse (s : Bytes) : (collapse s).head? = s.head?.map orSpace := by
  cases s using runInduction with
  | nil => rfl
  | byte b s hb => simp [collapse_byte hb, orSpace, hb]
  | run w s hne hw hs =>
      obtain ⟨b, w, rfl⟩ := List.exists_cons_of_ne_nil hne
      rw [collapse_run hne hw hs]
      simp [orSpace, hw b List.mem_cons_self]

theorem stops_collapse {s : Bytes} (h : Stops isSpace s) : Stops isSpace (collapse s) := by
  intro b hb
  rw [head?_collapse] at hb
  obtain ⟨c, hc, rfl⟩ := Option.map_eq_some_iff.mp hb
  have hsolid : isSpace c = false := h c hc
  simp [orSpace, hsolid]

theorem tight_collapse (s : Bytes) : Tight (collapse s) := by
  induction s using runInduction with
  | nil => exact tight_nil
  | byte b s hb ih =>
      rw [collapse_byte hb]
      exact tight_cons.mpr ⟨fun h => absurd h (by simp [hb]), ih⟩
  | run w s hne hw hs ih =>
      rw [collapse_run hne hw hs]
      exact tight_cons.mpr ⟨fun _ => ⟨rfl, stops_collapse hs⟩, ih⟩

theorem Tight.collapse_eq {s : Bytes} (h : Tight s) : collapse s = s := by
  induction s with
  | nil => rfl
  | cons b s ih =>
      obtain ⟨front, rest⟩ := tight_cons.mp h
      by_cases hb : isSpace b
      · obtain ⟨rfl, hs⟩ := front hb
        have single : ∀ c ∈ [(32 : UInt8)], isSpace c := List.forall_mem_singleton.mpr hb
        calc collapse (32 :: s) = 32 :: collapse s := collapse_run (by simp) single hs
          _ = 32 :: s := by rw [ih rest]
      · rw [collapse_byte (by simpa using hb), ih rest]

theorem getElem?_collapse (s : Bytes) (i : Nat) :
    (collapse s)[i]? = s[origin (ofBytes s) i]?.map orSpace := by
  rw [← List.head?_drop, ← collapse_drop_origin, head?_collapse, List.head?_drop]

/-! ## The offsets of all cells -/

/-- The offsets at which the cells begin, and behind them the one at which the text ends. -/
def origins (cells : Condensed) : List Nat :=
  cells.scanl (fun offset cell => offset + cell.width) 0

theorem getElem?_origins (cells : Condensed) (i : Nat) :
    (origins cells)[i]? = if i ≤ cells.length then some (origin cells i) else none :=
  List.getElem?_scanl

theorem mem_origins {cells : Condensed} {e : Nat} :
    e ∈ origins cells ↔ ∃ i ≤ cells.length, origin cells i = e := by
  simp [List.mem_iff_getElem?, getElem?_origins]

theorem length_origins (s : Bytes) :
    (origins (ofBytes s)).length = (collapse s).length + 1 := by
  rw [length_collapse]
  exact List.length_scanl

theorem getLast?_origins (s : Bytes) : (origins (ofBytes s)).getLast? = some s.length := by
  rw [← origin_length s, origin, List.take_length]
  exact List.getLast?_scanl

theorem pairwise_origins (s : Bytes) : (origins (ofBytes s)).Pairwise (· < ·) := by
  refine List.pairwise_iff_getElem.mpr fun i j hi hj hij => ?_
  rw [length_origins, length_collapse] at hj
  have hlt : origin (ofBytes s) i < origin (ofBytes s) j :=
    origin_lt (width_pos s) hij (Nat.le_of_lt_succ hj)
  simpa only [origins, List.getElem_scanl, origin] using hlt

theorem origin_succ {cells : Condensed} {i : Nat} {cell : Cell} (h : cells[i]? = some cell) :
    origin cells (i + 1) = origin cells i + cell.width := by
  rw [origin, List.take_add_one, h, List.foldl_append]
  rfl

theorem origin_append (cells rest : Condensed) :
    origin (cells ++ rest) cells.length = origin cells cells.length := by
  rw [← origin_take (cells ++ rest) (Nat.le_refl _), List.take_left]

/-! ## Where cells begin -/

/-- Two texts are condensed one by one, unless a whitespace run goes on from the first into the
second. -/
theorem ofBytes_append {l r : Bytes} (h : Stops isSpace l.reverse ∨ Stops isSpace r) :
    ofBytes (l ++ r) = ofBytes l ++ ofBytes r := by
  induction l using runInduction with
  | nil => rfl
  | byte b l hb ih =>
      have rest : Stops isSpace l.reverse ∨ Stops isSpace r :=
        h.imp_left fun hl => stops_of_prefix hl (by simp)
      rw [List.cons_append, ofBytes_byte hb, ofBytes_byte hb, ih rest, List.cons_append]
  | run w l hne hw hl ih =>
      have rest : Stops isSpace l.reverse ∨ Stops isSpace r :=
        h.imp_left fun hl => stops_of_prefix hl (by simp)
      have stops : Stops isSpace (l ++ r) := by
        refine stops_append hl fun hnil => h.resolve_left fun hends => hne ?_
        -- With nothing behind it the run is what the first text ends in.
        subst hnil
        rw [List.append_nil, ← List.append_nil w.reverse] at hends
        exact List.reverse_eq_nil_iff.mp (eq_nil_of_stops (by simpa using hw) hends)
      rw [List.append_assoc, ofBytes_run hne hw stops, ofBytes_run hne hw hl, ih rest,
        List.cons_append]

theorem length_mem_origins {l r : Bytes} (h : Stops isSpace l.reverse ∨ Stops isSpace r) :
    l.length ∈ origins (ofBytes (l ++ r)) := by
  refine mem_origins.mpr ⟨(ofBytes l).length, ?_, ?_⟩
  · rw [ofBytes_append h, List.length_append]
    exact Nat.le_add_right _ _
  · rw [ofBytes_append h, origin_append, origin_length]

theorem not_mem_origins_of_insideRun {s : Bytes} {e : Nat} (h : InsideRun s e) :
    e ∉ origins (ofBytes s) := by
  obtain ⟨u, w, v, rfl, hw, hu, hv, hstart, hstop⟩ := h
  have hne : w ≠ [] := by
    rintro rfl
    rw [List.length_nil] at hstop
    omega
  have cells : ofBytes (u ++ w ++ v) = ofBytes u ++ ⟨32, w.length⟩ :: ofBytes v := by
    rw [List.append_assoc, ofBytes_append (.inl hu), ofBytes_run hne hw hv]
  have begins : origin (ofBytes (u ++ w ++ v)) (ofBytes u).length = u.length := by
    rw [cells, origin_append, origin_length]
  have ends : origin (ofBytes (u ++ w ++ v)) ((ofBytes u).length + 1) = u.length + w.length := by
    have cell : (ofBytes (u ++ w ++ v))[(ofBytes u).length]? = some ⟨32, w.length⟩ := by
      rw [cells]
      simp
    rw [origin_succ cell, begins]
  intro hmem
  obtain ⟨i, -, rfl⟩ := mem_origins.mp hmem
  rcases Nat.lt_or_ge (ofBytes u).length i with hlt | hge
  · have behind := origin_mono (ofBytes (u ++ w ++ v)) (Nat.add_one_le_iff.mpr hlt)
    omega
  · have before := origin_mono (ofBytes (u ++ w ++ v)) hge
    omega

theorem mem_origins_iff {s : Bytes} {e : Nat} (he : e ≤ s.length) :
    e ∈ origins (ofBytes s) ↔ ¬ InsideRun s e := by
  constructor
  · exact fun hmem hinside => not_mem_origins_of_insideRun hinside hmem
  · intro hnot
    obtain ⟨l, r, rfl, rfl⟩ : ∃ l r, s = l ++ r ∧ e = l.length :=
      ⟨s.take e, s.drop e, by simp, by simp [he]⟩
    refine length_mem_origins (Classical.byContradiction fun hspace => hnot ?_)
    obtain ⟨hl, hr⟩ := not_or.mp hspace
    exact insideRun_of_not_stops hl hr

/-! ## The embedding -/

/-- The collapsed text is embedded in the full one.  There is an offset for each of its bytes and
one for its end, from the beginning of the full text to its end and in strict order, and they are
what `origin` gives.  Each byte is the one at its origin, or a space for whitespace there; no two
whitespace bytes stand side by side, and none is other than a space.  What lies between two
origins collapses to what lies between the two bytes, and the collapsed text to itself.  The
offsets of the full text that are left out are those strictly inside a whitespace run. -/
theorem origins_embed (s : Bytes) :
    (origins (ofBytes s)).length = (collapse s).length + 1 ∧
    (origins (ofBytes s)).head? = some 0 ∧
    (origins (ofBytes s)).getLast? = some s.length ∧
    (origins (ofBytes s)).Pairwise (· < ·) ∧
    (∀ i ≤ (collapse s).length, (origins (ofBytes s))[i]? = some (origin (ofBytes s) i)) ∧
    (∀ i, (collapse s)[i]? = s[origin (ofBytes s) i]?.map orSpace) ∧
    Tight (collapse s) ∧
    (∀ i j, i ≤ j →
      collapse (s.extract (origin (ofBytes s) i) (origin (ofBytes s) j)) =
        (collapse s).extract i j) ∧
    collapse (collapse s) = collapse s ∧
    ∀ e ≤ s.length, e ∈ origins (ofBytes s) ↔ ¬ InsideRun s e := by
  refine ⟨length_origins s, List.head?_scanl, getLast?_origins s, pairwise_origins s,
    fun i hi => ?_, getElem?_collapse s, tight_collapse s, fun i j => collapse_between s,
    (tight_collapse s).collapse_eq, fun e => mem_origins_iff⟩
  rw [length_collapse] at hi
  rw [getElem?_origins, if_pos hi]

/-- A mixed run at the beginning, a space, and a run at the end. -/
theorem origins_embed_sample :
    let s := ascii " \ta b\n\n"
    origins (ofBytes s) = [0, 2, 3, 4, 5, 7] ∧ collapse s = ascii " a b " ∧
      4 ≤ (collapse s).length ∧ (origins (ofBytes s))[4]? = some (origin (ofBytes s) 4) ∧
      1 ≤ 4 ∧ collapse (s.extract 2 5) = (collapse s).extract 1 4 ∧
      6 ≤ s.length ∧ 6 ∉ origins (ofBytes s) ∧ InsideRun s 6 := by
  intro s
  obtain ⟨-, -, -, -, entry, -, -, slice, -, image⟩ := origins_embed s
  have inside : 4 ≤ (collapse s).length := by decide
  have missing : 6 ∉ origins (ofBytes s) := by decide
  exact ⟨by decide, by decide, inside, entry 4 inside, by decide, slice 1 4 (by decide), by decide,
    missing, Classical.not_not.mp (mt (image 6 (by decide)).mpr missing)⟩

end Condensed
end WasmPackager
