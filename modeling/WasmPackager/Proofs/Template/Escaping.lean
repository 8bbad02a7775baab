/-
# `Proofs.Template.Escaping` — a regular expression says its segments and nothing else

`Term` and `Reads` are the part of the ECMAScript pattern grammar that the
expressions of a template need: a pattern is a row of terms, and a term is a
character, escaped or not, or one of the two wildcards.  The grammar is given
without looking at `Segment.source`; which bytes are syntax is listed in
`syntaxBytes`, as the standard lists them.  The standard lets a backslash stand
in front of these; other readers let it stand in front of more.  What they add
is a parameter, `lenient`, and all that is said here holds of every one of them.

A pattern has at most one reading (`Reads.unique`), since no written form of a
term is the beginning of another one.  The source of a list of segments is read
as what the segments stand for, so an escaped literal never turns into a
wildcard, whatever its bytes are and whatever stands next to it.  What cannot
be read back is what the source does not hold: where one literal ends and the
next begins, and the texts that whitespace and placeholders were read from.
`normalForm` forgets just that (`denotes_source_iff`).
-/
import Mathlib.Data.List.Chain
import WasmPackager.Template.Segment

namespace WasmPackager.Segment

/-! ## Reading a pattern -/

/-- What a term of a pattern stands for. -/
inductive Term
  | character (b : UInt8)
  | whitespace
  | identifier
deriving DecidableEq

/-- The bytes that do not stand for themselves in a pattern. -/
def syntaxBytes : Bytes := ascii r"^$\.*+?()[]{}|"

/-- The term is written by these bytes.  A backslash makes a character of an operator, and of what
else a lenient reader allows; in front of `s` it is a class, and only its closure is a term here. -/
inductive Term.Written (lenient : UInt8 → Prop) : Term → Bytes → Prop
  | escaped {b : UInt8} : b ∈ syntaxBytes ∨ lenient b ∧ b ≠ 115 →
      Written lenient (.character b) [92, b]
  | plain {b : UInt8} : b ∉ syntaxBytes → Written lenient (.character b) [b]
  | whitespace : Written lenient .whitespace (ascii "\\s*")
  | identifier : Written lenient .identifier (ascii "[A-Za-z0-9_]+")

/-- The pattern is read as these terms. -/
inductive Reads (lenient : UInt8 → Prop) : Bytes → List Term → Prop
  | nil : Reads lenient [] []
  | cons {term : Term} {w rest : Bytes} {terms : List Term} :
      term.Written lenient w → Reads lenient rest terms →
      Reads lenient (w ++ rest) (term :: terms)

def terms : Segment → List Term
  | literal t => t.map .character
  | whitespace _ => [.whitespace]
  | placeholder _ => [.identifier]

section

variable {lenient : UInt8 → Prop} {s s' w w' : Bytes} {term term' : Term} {read read' : List Term}

theorem spaces_bytes : ascii "\\s*" = [92, 115, 42] := by decide

theorem word_bytes : ascii "[A-Za-z0-9_]+" = 91 :: ascii "A-Za-z0-9_]+" := by decide

theorem backslash_mem : 92 ∈ syntaxBytes := by decide

theorem bracket_mem : 91 ∈ syntaxBytes := by decide

theorem letter_not_mem : 115 ∉ syntaxBytes := by decide

/-- What a pattern begins with fixes its first term and where that ends. -/
theorem Term.Written.determined (h : term.Written lenient w) (h' : term'.Written lenient w')
    (heq : w ++ s = w' ++ s') : term = term' ∧ s = s' := by
  have hback := backslash_mem
  have hopen := bracket_mem
  have hletter := letter_not_mem
  -- The first byte tells the forms apart, but for the two that begin with a backslash: those
  -- differ in the second.
  cases h <;> cases h'
  all_goals
    simp only [spaces_bytes, word_bytes, List.cons_append, List.nil_append, List.cons.injEq,
      List.append_cancel_left_eq] at heq
    grind

theorem Term.Written.ne_nil (h : term.Written lenient w) : w ≠ [] := by
  cases h <;> simp [spaces_bytes, word_bytes]

theorem Reads.unique (h : Reads lenient s read) (h' : Reads lenient s read') : read = read' := by
  induction h generalizing read' with
  | nil =>
      generalize hs : ([] : Bytes) = s at h'
      cases h' with
      | nil => rfl
      | cons hw _ => exact absurd (List.append_eq_nil_iff.mp hs.symm).1 hw.ne_nil
  | @cons term w rest terms hw hrest ih =>
      generalize hs : w ++ rest = s at h'
      cases h' with
      | nil => exact absurd (List.append_eq_nil_iff.mp hs).1 hw.ne_nil
      | cons hw' hrest' =>
          obtain ⟨rfl, rfl⟩ := hw.determined hw' hs
          rw [ih hrest']

theorem Reads.append (h : Reads lenient s read) (h' : Reads lenient s' read') :
    Reads lenient (s ++ s') (read ++ read') := by
  induction h with
  | nil => exact h'
  | cons hw _ ih => rw [List.append_assoc]; exact .cons hw ih

theorem Term.Written.reads (h : term.Written lenient w) : Reads lenient w [term] := by
  simpa using Reads.cons h .nil

/-! ## The source is read as its segments -/

theorem mem_syntaxBytes_iff (b : UInt8) : b ∈ syntaxBytes ↔ isOperator b := by
  have hperm : syntaxBytes.Perm (ascii r"\^$.|?*+()[]{}") := by decide
  simp [isOperator, hperm.mem_iff]

/-- Every byte is written as itself, by the bytes that `escape` gives. -/
theorem written_escape (b : UInt8) : (Term.character b).Written lenient (escape b) := by
  unfold escape
  split
  · next hop => exact .escaped (.inl ((mem_syntaxBytes_iff b).mpr hop))
  · next hop => exact .plain (by rwa [mem_syntaxBytes_iff])

theorem reads_pattern (seg : Segment) : Reads lenient seg.pattern seg.terms := by
  cases seg with
  | literal t =>
      change Reads lenient (t.flatMap escape) (t.map .character)
      induction t with
      | nil => exact .nil
      | cons b t ih => exact .cons (written_escape b) ih
  | whitespace t => exact Term.Written.whitespace.reads
  | placeholder t => exact Term.Written.identifier.reads

theorem reads_source (segs : List Segment) : Reads lenient (source segs) (segs.flatMap terms) := by
  induction segs with
  | nil => exact .nil
  | cons seg rest ih => exact (reads_pattern seg).append ih

end

/-! ## Normal forms -/

/-- A segment of a normal list. -/
def Bare : Segment → Prop
  | literal t => t ≠ []
  | whitespace t | placeholder t => t = []

/-- The second segment may stand directly behind the first in a normal list. -/
def Apart : Segment → Segment → Prop
  | literal _, literal _ => False
  | _, _ => True

/-- No literal is empty or followed by another one, and wildcards have no text. -/
@[mk_iff]
structure Normal (segs : List Segment) : Prop where
  bare : ∀ seg ∈ segs, seg.Bare
  apart : segs.IsChain Apart

/-- The pattern says the segments: they are in normal form, and it is read as their terms. -/
structure Denotes (lenient : UInt8 → Prop) (s : Bytes) (segs : List Segment) : Prop where
  reads : Reads lenient s (segs.flatMap terms)
  normal : Normal segs

/-- A segment put in front of a normal list. -/
def push : Segment → List Segment → List Segment
  | literal [], rest => rest
  | literal (b :: t), literal u :: rest => literal (b :: t ++ u) :: rest
  | literal (b :: t), rest => literal (b :: t) :: rest
  | whitespace _, rest => whitespace [] :: rest
  | placeholder _, rest => placeholder [] :: rest

/-- The segments with adjacent literals merged, empty literals dropped and the texts of
wildcards forgotten. -/
def normalForm (segs : List Segment) : List Segment := segs.foldr push []

section

variable {seg : Segment} {rest segs : List Segment}

theorem normalForm_cons (seg : Segment) (rest : List Segment) :
    normalForm (seg :: rest) = push seg (normalForm rest) := rfl

theorem normal_nil : Normal [] := ⟨by simp, .nil⟩

theorem normal_cons :
    Normal (seg :: rest) ↔
      seg.Bare ∧ (∀ next ∈ rest.head?, Apart seg next) ∧ Normal rest := by
  rw [normal_iff, normal_iff, List.forall_mem_cons, List.isChain_cons, and_and_and_comm, and_assoc]

theorem terms_push (seg : Segment) (rest : List Segment) :
    (push seg rest).flatMap terms = seg.terms ++ rest.flatMap terms := by
  fun_cases push seg rest <;> simp [terms]

theorem source_push (seg : Segment) (rest : List Segment) :
    source (push seg rest) = seg.pattern ++ source rest := by
  fun_cases push seg rest <;> simp [source, pattern]

/-- What may stand behind a literal does not depend on its text. -/
theorem Apart.of_literal {t : Bytes} {next : Segment} (h : Apart (literal t) next) (u : Bytes) :
    Apart (literal u) next := by
  cases next <;> exact h

theorem normal_push (h : Normal rest) : Normal (push seg rest) := by
  fun_cases push seg rest with
  | case1 => exact h
  | case2 b t u rest =>
      obtain ⟨-, hnext, hrest⟩ := normal_cons.mp h
      exact normal_cons.mpr
        ⟨List.cons_ne_nil _ _, fun next hmem => (hnext next hmem).of_literal _, hrest⟩
  | case3 b t rest hfree =>
      refine normal_cons.mpr ⟨List.cons_ne_nil _ _, fun next hnext => ?_, h⟩
      cases next with
      | literal u =>
          obtain ⟨tail, rfl⟩ := List.head?_eq_some_iff.mp hnext
          exact hfree u tail rfl
      | whitespace u => trivial
      | placeholder u => trivial
  | case4 t rest => exact normal_cons.mpr ⟨rfl, fun _ _ => trivial, h⟩
  | case5 t rest => exact normal_cons.mpr ⟨rfl, fun _ _ => trivial, h⟩

theorem normal_normalForm (segs : List Segment) : Normal (normalForm segs) := by
  induction segs with
  | nil => exact normal_nil
  | cons seg rest ih => exact normal_push ih

theorem terms_normalForm (segs : List Segment) :
    (normalForm segs).flatMap terms = segs.flatMap terms := by
  induction segs with
  | nil => rfl
  | cons seg rest ih => rw [normalForm_cons, terms_push, ih, List.flatMap_cons]

theorem source_normalForm (segs : List Segment) : source (normalForm segs) = source segs := by
  induction segs with
  | nil => rfl
  | cons seg rest ih => rw [normalForm_cons, source_push, ih]; rfl

/-! ## Terms as segments -/

def Term.segment : Term → Segment
  | .character b => .literal [b]
  | .whitespace => .whitespace []
  | .identifier => .placeholder []

theorem push_literal_cons (b : UInt8) (t : Bytes) (rest : List Segment) :
    push (literal [b]) (push (literal t) rest) = push (literal (b :: t)) rest := by
  cases t with
  | nil => rfl
  | cons c t =>
      cases rest with
      | nil => rfl
      | cons next rest => cases next <;> rfl

theorem normalForm_terms_append (seg : Segment) (read : List Term) :
    normalForm ((seg.terms ++ read).map Term.segment) =
      push seg (normalForm (read.map Term.segment)) := by
  cases seg with
  | literal t =>
      induction t with
      | nil => rfl
      | cons b t ih => rw [← push_literal_cons, ← ih]; rfl
  | whitespace t => rfl
  | placeholder t => rfl

theorem normalForm_terms (segs : List Segment) :
    normalForm ((segs.flatMap terms).map Term.segment) = normalForm segs := by
  induction segs with
  | nil => rfl
  | cons seg rest ih => rw [List.flatMap_cons, normalForm_terms_append, ih, normalForm_cons]

theorem push_of_normal (h : Normal (seg :: rest)) : push seg rest = seg :: rest := by
  obtain ⟨hbare, hnext, -⟩ := normal_cons.mp h
  fun_cases push seg rest with
  | case1 => exact absurd rfl hbare
  | case2 b t u rest => exact (hnext (literal u) rfl).elim
  | case3 b t rest => rfl
  | case4 t rest => rw [show t = [] from hbare]
  | case5 t rest => rw [show t = [] from hbare]

theorem Normal.normalForm_eq (h : Normal segs) : normalForm segs = segs := by
  induction segs with
  | nil => rfl
  | cons seg rest ih =>
      rw [normalForm_cons, ih (normal_cons.mp h).2.2, push_of_normal h]

end

/-! ## What the source denotes -/

section

variable {lenient : UInt8 → Prop}

theorem reads_source_iff (segs : List Segment) (read : List Term) :
    Reads lenient (source segs) read ↔ read = segs.flatMap terms := by
  constructor
  · intro h
    exact h.unique (reads_source segs)
  · rintro rfl
    exact reads_source segs

theorem denotes_source (segs : List Segment) :
    Denotes lenient (source segs) (normalForm segs) where
  reads := by rw [terms_normalForm]; exact reads_source segs
  normal := normal_normalForm segs

theorem Denotes.eq_normalForm {segs out : List Segment} (h : Denotes lenient (source segs) out) :
    out = normalForm segs := by
  have hterms : out.flatMap terms = segs.flatMap terms := (reads_source_iff segs _).mp h.reads
  calc out = normalForm out := h.normal.normalForm_eq.symm
    _ = normalForm ((out.flatMap terms).map Term.segment) := (normalForm_terms out).symm
    _ = normalForm ((segs.flatMap terms).map Term.segment) := by rw [hterms]
    _ = normalForm segs := normalForm_terms segs

theorem source_eq_iff {segs others : List Segment} :
    source segs = source others ↔ normalForm segs = normalForm others := by
  constructor
  · intro heq
    have h : Denotes (fun _ => False) (source segs) (normalForm segs) := denotes_source segs
    exact Denotes.eq_normalForm (heq ▸ h)
  · intro heq
    rw [← source_normalForm segs, heq, source_normalForm others]

end

/-- The source of segments is read in one way only, every byte of a literal as a character and
only whitespace and placeholders as wildcards, whatever else a reader lets stand behind a backslash.
It denotes the normal form of the segments and nothing else, so two lists have the same source just
if they have the same normal form. -/
theorem denotes_source_iff (lenient : UInt8 → Prop) (segs : List Segment) :
    (∀ read, Reads lenient (source segs) read ↔ read = segs.flatMap terms) ∧
      (∀ out, Denotes lenient (source segs) out ↔ out = normalForm segs) ∧
      ∀ others, source segs = source others ↔ normalForm segs = normalForm others := by
  refine ⟨reads_source_iff segs, fun out => ⟨Denotes.eq_normalForm, ?_⟩, fun _ => source_eq_iff⟩
  rintro rfl
  exact denotes_source segs

/-- A literal that spells a wildcard, next to that wildcard. -/
example : source [literal (ascii "\\s*"), whitespace (ascii " ")] = ascii "\\\\s\\*\\s*" := by
  decide

end WasmPackager.Segment
