/-
# `Proofs.Project.Rearranging` — what may be changed about a manifest

The lines of a manifest that count have a normal form, in which one space stands
between a directive and its value.  Two manifests with the same lines in normal
form, in whatever order, come to the same: nothing can be said twice, so that
there is nothing the order could decide.

Which line is at fault does depend on the order.  What does not change even that
is the blanks at the ends of lines, and with them the carriage returns in front
of the line feeds.
-/
import WasmPackager.Proofs.Project.Manifest

namespace WasmPackager.Manifest

open Bytes

variable {text other path path' line line' directive value : Bytes} {ls ls' : List Bytes}
  {entry : Entry} {entries entries' : List Entry} {base config : Config} {p : Progress}
  {number : Nat}

/-! ## The order of the lines -/

/-- A line with one space between its directive and its value. -/
def normal (line : Bytes) : Bytes :=
  let value := (line.dropWhile (!isBlank ·)).dropWhile isBlank
  if value = [] then line else line.takeWhile (!isBlank ·) ++ 32 :: value

def normalForm (text : Bytes) : List Bytes := (significant (lines text)).map normal

theorem splits_normal : Splits (normal line) directive value ↔ Splits line directive value := by
  by_cases hvalue : (line.dropWhile (!isBlank ·)).dropWhile isBlank = []
  · rw [normal, if_pos hvalue]
  have hline : Splits line (line.takeWhile (!isBlank ·))
      ((line.dropWhile (!isBlank ·)).dropWhile isBlank) := splits_iff.mpr ⟨rfl, rfl, hvalue⟩
  have hnormal : Splits (normal line) (line.takeWhile (!isBlank ·))
      ((line.dropWhile (!isBlank ·)).dropWhile isBlank) := by
    refine ⟨hline.solid, ⟨[32], by simp, List.forall_mem_singleton.mpr rfl, ?_⟩, hline.stops,
      hvalue⟩
    rw [normal, if_neg hvalue, List.append_assoc, List.singleton_append]
  obtain ⟨hfirst, hsecond, -⟩ := splits_iff.mp hnormal
  rw [splits_iff, splits_iff, hfirst, hsecond]

theorem reads_normal : Reads (normal line) entry ↔ Reads line entry := by
  simp only [Reads, splits_normal]

theorem Settles.congr (h : Settles entries base config) (hsame : ∀ e, e ∈ entries' ↔ e ∈ entries) :
    Settles entries' base config := by
  refine ⟨h.root, fun hmem => h.cargo ((hsame _).mp hmem), fun hno => h.cargoKept ?_,
    fun hmem => h.release ((hsame _).mp hmem), fun hno => h.releaseKept ?_⟩
  · exact fun value hmem => hno value ((hsame _).mpr hmem)
  · exact fun on hmem => hno on ((hsame _).mpr hmem)

theorem Describes.congr (h : Describes ls base config)
    (hperm : ((significant ls).map normal).Perm ((significant ls').map normal)) :
    Describes ls' base config := by
  obtain ⟨entries, hentries, hdistinct, hsettles⟩ := h
  have hnormals : List.Forall₂ Reads ((significant ls).map normal) entries :=
    List.forall₂_map_left_iff.mpr (hentries.imp fun _ _ => reads_normal.mpr)
  obtain ⟨entries', hentries', hsame⟩ := List.perm_comp_forall₂ hperm.symm hnormals
  refine ⟨entries', ?_, (hsame.map _).nodup_iff.mpr hdistinct,
    hsettles.congr fun _ => hsame.mem_iff⟩
  exact (List.forall₂_map_left_iff.mp hentries').imp fun _ _ => reads_normal.mp

/-! ## The ends of the lines -/

/-- The second line is the first one with bytes more at its ends that do not count. -/
def Padded (line line' : Bytes) : Prop :=
  ∃ y z, line' = y ++ line ++ z ∧ (∀ b ∈ y, isMargin b = true) ∧ ∀ b ∈ z, isMargin b = true

theorem readLine_padded (h : Padded line line') : readLine p line' = readLine p line := by
  obtain ⟨y, z, rfl, hy, hz⟩ := h
  rw [readLine, readLine, strip_padded hy hz]

/-- Padded lines are read as the lines themselves, the numbers of faults included; the induction is
on the lines. -/
theorem readLines_padded (h : List.Forall₂ Padded ls ls') :
    readLines number p ls' = readLines number p ls := by
  induction h generalizing number p with
  | nil => rfl
  | cons hline _ ih =>
      rw [readLines, readLines, readLine_padded hline]
      cases readLine p _ with
      | error fault => rfl
      | ok q => exact ih

/-- The text with a carriage return in front of every line feed. -/
def crlf (text : Bytes) : Bytes := text.flatMap fun b => if b == 10 then [13, 10] else [b]

/-- A carriage return in front of a line feed stands at the end of a line; the induction is on the
text, and goes through because nothing is added at the beginning of a line. -/
theorem padded_crlf (text : Bytes) :
    List.Forall₂ Padded (splitOn 10 text) (splitOn 10 (crlf text)) := by
  suffices trailed : List.Forall₂ (fun piece piece' => ∃ z, piece' = piece ++ z ∧
      ∀ b ∈ z, isMargin b = true) (splitOn 10 text) (splitOn 10 (crlf text)) from
    trailed.imp fun _ _ ⟨z, hpiece, hz⟩ => ⟨[], z, hpiece, by simp, hz⟩
  induction text with
  | nil => exact .cons ⟨[], rfl, by simp⟩ .nil
  | cons b text ih =>
      by_cases hb : b = 10
      · subst hb
        have hcrlf : crlf (10 :: text) = 13 :: 10 :: crlf text := rfl
        rw [hcrlf, splitOn_cons, splitOn_cons, splitOn_cons]
        exact .cons ⟨[13], rfl, List.forall_mem_singleton.mpr rfl⟩ ih
      · have hcrlf : crlf (b :: text) = b :: crlf text := by simp [crlf, hb]
        rw [hcrlf, splitOn_cons, splitOn_cons, if_neg (by simpa using hb),
          if_neg (by simpa using hb)]
        obtain ⟨piece, rest, hpieces⟩ := List.exists_cons_of_ne_nil (splitOn_ne_nil 10 text)
        rw [hpieces] at ih ⊢
        obtain ⟨piece', rest', ⟨z, rfl, hz⟩, hrest, hpieces'⟩ := List.forall₂_cons_left_iff.mp ih
        rw [hpieces']
        exact .cons ⟨z, rfl, hz⟩ hrest

/-- Two manifests with the same lines that count, but for their order and for the blanks in them,
are both refused or give the same configuration.  The line feeds of a manifest may get carriage
returns in front of them, and its lines may be padded, without any difference in what comes of
it. -/
theorem parse_of_rearranged (text : Bytes) (base : Config) :
    (∀ other path path', (normalForm text).Perm (normalForm other) →
      (parse path' other base).toOption = (parse path text base).toOption) ∧
    (∀ path, parse path (crlf text) base = parse path text base) ∧
    ∀ other path, List.Forall₂ Padded (lines text) (lines other) →
      parse path other base = parse path text base := by
  refine ⟨fun other path path' hperm => ?_, fun path => ?_, fun other path hpadded => ?_⟩
  · have hok : ∀ config,
        parse path' other base = .ok config ↔ parse path text base = .ok config := by
      intro config
      rw [parse_eq_ok_iff, parse_eq_ok_iff]
      exact ⟨fun h => h.congr hperm.symm, fun h => h.congr hperm⟩
    cases hparse : parse path text base with
    | ok config => rw [(hok config).mpr hparse]
    | error failure =>
        cases hother : parse path' other base with
        | ok config =>
            rw [(hok config).mp hother] at hparse
            cases hparse
        | error failure' => rfl
  · rw [parse, parse, readLines_padded (padded_crlf text)]
  · rw [parse_eq, parse_eq, readLines_padded hpadded]

example : (parse [] (ascii "release \t no\ncargo  ./c") ⟨[], [], true⟩).toOption =
    (parse [] (ascii "\r\n\tcargo ./c\r\n# cargo\nrelease no\n") ⟨[], [], true⟩).toOption := by
  decide

end WasmPackager.Manifest
