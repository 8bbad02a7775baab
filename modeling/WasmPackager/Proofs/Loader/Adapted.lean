/-
# `Proofs.Loader.Adapted` — an adapted loader is not adapted again

What is adapted ends in the initializing call.  A generated loader ends in a
closing, and a closing ends in its last literal, but for whitespace.  The call
ends otherwise.  So no end of an adapted loader is a closing, whatever the
payload in front of the call holds (`not_hasClosing_assemble`), and the text is
refused for its form before anybody looks into its payload
(`adapted_unexpected`).
-/
import WasmPackager.Proofs.Loader.Verdicts

namespace WasmPackager.Loader

open Bytes Segment

def closingMark : Bytes := ascii r"}));"

theorem isClosing_ends {t : Bytes} (ht : IsClosing t) :
    ∃ front spaces, t = front ++ (closingMark ++ spaces) ∧ ∀ b ∈ spaces, isSpace b := by
  have hends : [literal closingMark, whitespace [10]] <:+
      Segment.ofTemplate closingTemplate placeholder := by decide +kernel
  obtain ⟨segs, hcut⟩ := hends
  rw [IsClosing, ← hcut] at ht
  obtain ⟨front, last, rfl, -, hlast⟩ := spells_append.mp ht
  obtain ⟨mark, spaces, rfl, rfl, hspaces⟩ := spells_cons.mp hlast
  exact ⟨front, spaces, rfl, spells_singleton.mp hspaces⟩

/-- The call ends in a line feed.  What is in front of that ends in no whitespace, and not in the
last literal of the closing. -/
theorem initializeCall_ends : ∃ body, initializeCall = body ++ [10] ∧
    Stops isSpace body.reverse ∧ closingMark.length ≤ body.length ∧ ¬ closingMark <:+ body :=
  ⟨initializeCall.dropLast, by decide, stops_cons.mpr rfl, by decide, by decide⟩

theorem not_hasClosing_assemble (payload : Bytes) : ¬ HasClosing (assemble payload) := by
  rintro ⟨t, ⟨front, hcut⟩, ht⟩
  obtain ⟨front', spaces, rfl, hspaces⟩ := isClosing_ends ht
  obtain ⟨body, hcall, hsolid, hlong, hother⟩ := initializeCall_ends
  -- read backwards, the text begins with one run of whitespace, and then in two ways
  have backwards : spaces.reverse ++ (closingMark.reverse ++ (front ++ front').reverse) =
      [10] ++ (body.reverse ++ payload.reverse) := by
    have hreverse := congrArg List.reverse hcut
    rw [assemble, hcall] at hreverse
    simpa using hreverse
  have hmark : Stops isSpace (closingMark.reverse ++ (front ++ front').reverse) :=
    stops_cons.mpr rfl
  have hbody : Stops isSpace (body.reverse ++ payload.reverse) := by
    refine stops_append_of_ne_nil hsolid ?_ _
    rintro hnil
    rw [List.reverse_eq_nil_iff.mp hnil] at hlong
    exact absurd hlong (by decide)
  have hfeed : ∀ b ∈ ([10] : Bytes), isSpace b := List.forall_mem_singleton.mpr rfl
  obtain ⟨-, same⟩ := run_unique (by simpa using hspaces) hfeed hmark hbody backwards
  have hprefix : closingMark.reverse <+: body.reverse :=
    List.prefix_of_prefix_length_le ⟨_, same⟩ (List.prefix_append _ _) (by simpa using hlong)
  exact hother (List.reverse_prefix.mp hprefix)

theorem adapt_assemble (payload file : Bytes) :
    (HasOpening (assemble payload) →
      adapt (assemble payload) file = .error (.loaderUnexpected .closing file)) ∧
    (¬ HasOpening (assemble payload) →
      adapt (assemble payload) file = .error (.loaderUnexpected .opening file)) :=
  ⟨fun hopening => adapt_noClosing_iff.mpr ⟨hopening, not_hasClosing_assemble payload⟩,
    adapt_noOpening_iff.mpr⟩

/-- Whatever the call is put behind, also a text with whole loaders in it, is never adapted: it is
said that its form is unexpected, namely its end, or its beginning if that is no opening.  So what a
text was adapted to is never adapted once more. -/
theorem adapted_unexpected (file : Bytes) (s : Session) :
    (∀ payload,
      let said := ((Pipeline.adapt (assemble payload) file).on s).1
      (HasOpening (assemble payload) → said = .error (.loaderUnexpected .closing file)) ∧
      (¬ HasOpening (assemble payload) → said = .error (.loaderUnexpected .opening file)) ∧
      ∃ failure, said = .error failure ∧ failure.category = .unexpectedStructure) ∧
    ∀ text file' s' out, ((Pipeline.adapt text file').on s').1 = .ok out →
      ∃ failure, ((Pipeline.adapt out file).on s).1 = .error failure ∧
        failure.category = .unexpectedStructure := by
  have refused : ∀ payload, ∃ failure,
      adapt (assemble payload) file = .error failure ∧ failure.category = .unexpectedStructure := by
    intro payload
    obtain ⟨hsome, hnone⟩ := adapt_assemble payload file
    by_cases hopening : HasOpening (assemble payload)
    · exact ⟨_, hsome hopening, rfl⟩
    · exact ⟨_, hnone hopening, rfl⟩
  simp only [Pipeline.on_adapt]
  refine ⟨fun payload => ?_, fun text file' s' out hout => ?_⟩
  · obtain ⟨hsome, hnone⟩ := adapt_assemble payload file
    exact ⟨hsome, hnone, refused payload⟩
  · obtain ⟨shape, core, -, -, rfl⟩ := adapt_eq_ok_iff.mp hout
    exact refused core

/-- A payload that begins with a whole loader is adapted once. -/
theorem adapted_unexpected_nested :
    let s : Session := ⟨⟨FileSystem.empty, FileSystem.root⟩, none, []⟩
    let inner := openingTemplate ++ (entryPoint ++ closingTemplate ++ entryPoint)
    let text := openingTemplate ++ inner ++ closingTemplate
    let out := assemble inner
    ((Pipeline.adapt text []).on s).1 = .ok out ∧ HasOpening out ∧
      ((Pipeline.adapt out []).on s).1 = .error (.loaderUnexpected .closing []) ∧
      ∃ failure, ((Pipeline.adapt out []).on s).1 = .error failure ∧
        failure.category = .unexpectedStructure := by
  intro s inner text out
  have hmark : entryPoint <:+: inner :=
    ⟨openingTemplate, closingTemplate ++ entryPoint, by simp [inner]⟩
  have hstrip : Bytes.strip isSpace inner = inner := by
    refine strip_of_stops (stops_cons.mpr rfl) ?_
    rw [List.reverse_append, List.reverse_append, List.append_assoc]
    exact stops_cons.mpr rfl
  have hadapt : ((Pipeline.adapt text []).on s).1 = .ok out := by
    rw [Pipeline.on_adapt, adapt_of_templates hmark [], hstrip]
  have hopening : HasOpening out :=
    ⟨openingTemplate, ⟨_, (List.append_assoc openingTemplate _ initializeCall).symm⟩,
      spells_ofTemplate openingTemplate (by decide +kernel)⟩
  obtain ⟨first, second⟩ := adapted_unexpected [] s
  exact ⟨hadapt, hopening, (first _).1 hopening, second text [] s out hadapt⟩

end WasmPackager.Loader
