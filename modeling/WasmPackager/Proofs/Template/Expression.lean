/-
# `Proofs.Template.Expression` — a pattern finds what its expression says

A pattern is known by its `source`, a regular expression, and the search goes
by segments.  This is where the two meet: of its segments the search uses the
terms that the source is read as and nothing else (`measure_terms`), a literal
being searched for as the row of its characters.  So patterns tied to the same
end find the same spans if their sources are read as the same terms
(`find_eq_of_reads`), in particular what the segments find that the source
denotes (`find_eq_of_denotes`), and patterns with one source are one pattern to
whoever searches (`find_eq_of_source_eq`): the source also tells the end.
-/
import WasmPackager.Proofs.Template.Escaping
import WasmPackager.Template.Pattern

namespace WasmPackager

open Segment

namespace Segment

theorem Reads.head?_ne {lenient : UInt8 → Prop} {s : Bytes} {read : List Term}
    (h : Reads lenient s read) : s.head? ≠ some 94 := by
  have hmark : 94 ∈ syntaxBytes := by decide
  cases h with
  | nil => nofun
  | cons hw _ =>
      cases hw with
      | escaped | whitespace | identifier => simp [spaces_bytes, word_bytes]
      | plain hplain =>
          intro heq
          obtain rfl := Option.some.inj heq
          exact hplain hmark

end Segment

namespace Pattern

section Measure

variable {toEnd : Bool} {segs segs' rest rest' : List Segment}

/-! ## Only the terms matter -/

theorem measure_cons_congr (h : measure toEnd rest = measure toEnd rest') (seg : Segment) :
    measure toEnd (seg :: rest) = measure toEnd (seg :: rest') := by
  funext s
  cases seg with
  | literal t => rw [measure, measure, h]
  | whitespace t => rw [measure, measure, h]
  | placeholder t =>
      cases s with
      | nil => rfl
      | cons b s => rw [measure, measure, h]

theorem measure_literal_nil (toEnd : Bool) (rest : List Segment) :
    measure toEnd (literal [] :: rest) = measure toEnd rest := by
  funext s
  simp [measure]

theorem measure_literal_cons (toEnd : Bool) (b : UInt8) (t : Bytes) (rest : List Segment) :
    measure toEnd (literal (b :: t) :: rest) =
      measure toEnd (literal [b] :: literal t :: rest) := by
  funext s
  cases s with
  | nil => simp [measure]
  | cons c s =>
      by_cases hb : b = c
      · subst hb
        by_cases ht : t.isPrefixOf s
        · simp only [measure, List.isPrefixOf_cons_cons, BEq.rfl, Bool.true_and, ht, if_true,
            List.isPrefixOf_nil_left, List.length_cons, List.drop_succ_cons, List.length_nil,
            List.drop_zero, Option.map_map]
          congr 1
          funext n
          simp only [Function.comp_apply]
          omega
        · simp [measure, ht]
      · simp [measure, hb]

/-- The text a wildcard was read from is not searched for. -/
theorem measure_terms_append (toEnd : Bool) (seg : Segment) (read : List Term) :
    measure toEnd ((seg.terms ++ read).map Term.segment) =
      measure toEnd (seg :: read.map Term.segment) := by
  cases seg with
  | literal t =>
      induction t with
      | nil => rw [measure_literal_nil]; rfl
      | cons b t ih => rw [measure_literal_cons]; exact measure_cons_congr ih (literal [b])
  | whitespace t => funext s; rw [measure]; rfl
  | placeholder t => funext s; cases s <;> rfl

theorem measure_terms (toEnd : Bool) (segs : List Segment) :
    measure toEnd ((segs.flatMap terms).map Term.segment) = measure toEnd segs := by
  induction segs with
  | nil => rfl
  | cons seg rest ih =>
      rw [List.flatMap_cons, measure_terms_append]
      exact measure_cons_congr ih seg

theorem findLast_congr (h : measure true segs = measure true segs') :
    findLast segs = findLast segs' := by
  funext offset s
  induction s generalizing offset with
  | nil => rw [findLast, findLast, h]
  | cons b s ih => rw [findLast, findLast, h, ih]

end Measure

/-! ## Patterns with the same terms -/

section Find

variable {p q : Pattern} {lenient : UInt8 → Prop}

theorem find_eq_of_terms (hanchor : p.anchor = q.anchor)
    (hterms : p.segments.flatMap terms = q.segments.flatMap terms) : p.find = q.find := by
  have hmeasure : ∀ toEnd, measure toEnd p.segments = measure toEnd q.segments := by
    intro toEnd
    rw [← measure_terms toEnd p.segments, hterms, measure_terms]
  have hfindIn : p.findIn = q.findIn := by
    funext s
    rw [findIn, findIn, hanchor, hmeasure, findLast_congr (hmeasure true)]
  funext s
  rw [find, find, hfindIn]

/-- Patterns whose sources are read as the same terms find the same spans. -/
theorem find_eq_of_reads (hanchor : p.anchor = q.anchor) {read : List Term}
    (hp : Reads lenient (Segment.source p.segments) read)
    (hq : Reads lenient (Segment.source q.segments) read) : p.find = q.find :=
  find_eq_of_terms hanchor
    (((reads_source_iff _ _).mp hp).symm.trans ((reads_source_iff _ _).mp hq))

theorem find_eq_of_denotes {out : List Segment}
    (h : Denotes lenient (Segment.source p.segments) out) :
    p.find = (Pattern.mk out p.anchor).find :=
  find_eq_of_terms rfl ((reads_source_iff _ _).mp h.reads).symm

/-- Patterns with one source find the same spans. -/
theorem find_eq_of_source_eq (h : p.source = q.source) : p.find = q.find := by
  have reads : ∀ segs, Reads (fun _ => False) (Segment.source segs) (segs.flatMap terms) :=
    reads_source
  have marks : ∀ segs segs',
      ascii "^" ++ Segment.source segs ≠ Segment.source segs' ++ ascii "$" := by
    intro segs segs' heq
    have hhead := congrArg List.head? heq
    cases hs : Segment.source segs' with
    | nil => rw [hs] at hhead; exact absurd hhead (by simp [ascii])
    | cons b s =>
        rw [hs] at hhead
        exact (reads segs').head?_ne (hs ▸ hhead.symm)
  have same : p.anchor = q.anchor ∧ Segment.source p.segments = Segment.source q.segments := by
    cases hp : p.anchor <;> cases hq : q.anchor <;> simp only [source, hp, hq] at h
    · exact ⟨rfl, List.append_cancel_left h⟩
    · exact absurd h (marks _ _)
    · exact absurd h.symm (marks _ _)
    · exact ⟨rfl, List.append_cancel_right h⟩
  have hread := reads p.segments
  rw [same.2] at hread
  exact find_eq_of_terms same.1 ((reads_source_iff _ _).mp hread)

end Find

end Pattern
end WasmPackager
