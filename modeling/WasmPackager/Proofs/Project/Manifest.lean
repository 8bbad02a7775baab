/-
# `Proofs.Project.Manifest` — which manifests are accepted, and what is said of the others

A manifest is taken apart into its lines (`Manifest.lines`), of which those
that count are its directives (`significant`).  `Describes lines base config`
says without any reading what the lines make of a configuration: every line
that counts is a directive, blanks and a value, no directive stands twice, and
the values take the place of the ones there were.  Reading accepts exactly
the manifests that describe a configuration, and gives that one.

Any other manifest has a first line at which it goes wrong: the lines in front
of it are a manifest that is accepted, and with it they are one that is not.
That line is the one a failure blames (`Blames`), and nothing behind it matters.

`cutAt?` reads a line as positions in it tell, and would be refused a tail that
begins behind the end of the line.  It never is.
-/
import Mathlib.Data.List.Infix
import Mathlib.Data.List.Perm.Basic
import Mathlib.Data.List.TakeWhile
import WasmPackager.Project.Manifest
import WasmPackager.Proofs.FileSystem.Paths

namespace WasmPackager

namespace Bytes

section Strip

variable {p : UInt8 → Bool}

theorem strip_between {y c z : Bytes} (hy : ∀ b ∈ y, p b) (hz : ∀ b ∈ z, p b) (hc : Stops p c)
    (hr : Stops p c.reverse) : strip p (y ++ c ++ z) = c := by
  have front : (y ++ c ++ z).dropWhile p = (c ++ z).dropWhile p := by
    rw [List.append_assoc, List.dropWhile_append_of_pos hy]
  rcases c.eq_nil_or_concat' with rfl | ⟨c, b, rfl⟩
  · rw [strip, front, List.nil_append, List.dropWhile_eq_nil_iff.mpr hz]
    rfl
  · rw [strip, front, dropWhile_of_stops (stops_append_of_ne_nil hc (by simp) z),
      List.reverse_append, List.dropWhile_append_of_pos (by simpa using hz),
      dropWhile_of_stops hr, List.reverse_reverse]

theorem strip_padded {y s z : Bytes} (hy : ∀ b ∈ y, p b) (hz : ∀ b ∈ z, p b) :
    strip p (y ++ s ++ z) = strip p s := by
  obtain ⟨y', z', hs, hy', hz'⟩ := strip_cut p s
  have cut : y ++ s ++ z = (y ++ y') ++ strip p s ++ (z' ++ z) := by
    conv_lhs => rw [hs]
    simp only [List.append_assoc]
  rw [cut]
  refine strip_between (fun b hb => ?_) (fun b hb => ?_) (stops_strip p s) (stops_strip_reverse p s)
  · exact (List.mem_append.mp hb).elim (hy b) (hy' b)
  · exact (List.mem_append.mp hb).elim (hz' b) (hz b)

end Strip

end Bytes

namespace Manifest

open Bytes

/-! ## Lines -/

/-- The lines of a text.  A line feed ends a line; what is behind the last one is a line if it is
not empty. -/
def lines (text : Bytes) : List Bytes :=
  let pieces := splitOn 10 text
  if pieces.getLast? = some [] then pieces.dropLast else pieces

/-- The lines that count, without the bytes at their ends that do not. -/
def significant (lines : List Bytes) : List Bytes :=
  (lines.map (strip isMargin)).filter fun line => !(line.isEmpty || line.head? == some 35)

theorem splitOn_unlines {ls : List Bytes} (h : ∀ line ∈ ls, (10 : UInt8) ∉ line) :
    splitOn 10 (unlines ls) = ls ++ [[]] := by
  induction ls with
  | nil => rfl
  | cons line rest ih =>
      have hline : (10 : UInt8) ∉ line := h line List.mem_cons_self
      calc splitOn 10 (unlines (line :: rest))
          = splitOn 10 (line ++ 10 :: unlines rest) := by simp [unlines]
        _ = splitOn 10 line ++ splitOn 10 (unlines rest) := splitOn_append ..
        _ = line :: rest ++ [[]] := by
            rw [splitOn_of_not_mem hline, ih fun l hl => h l (List.mem_cons_of_mem _ hl)]
            rfl

theorem lines_unlines {ls : List Bytes} (h : ∀ line ∈ ls, (10 : UInt8) ∉ line) :
    lines (unlines ls) = ls := by
  simp [lines, splitOn_unlines h]

theorem not_mem_of_mem_lines {text line : Bytes} (h : line ∈ lines text) : (10 : UInt8) ∉ line := by
  rw [lines] at h
  split at h
  · exact not_mem_of_mem_splitOn (List.mem_of_mem_dropLast h)
  · exact not_mem_of_mem_splitOn h

/-! ## Entries -/

/-- What a line that counts can say. -/
inductive Entry
  | cargo (value : Bytes)
  | release (on : Bool)

/-- The directive an entry gives a value to. -/
def Entry.directive : Entry → Bytes
  | cargo _ => ascii "cargo"
  | release _ => ascii "release"

def switchWords : Bool → List Bytes
  | true => [ascii "on", ascii "true", ascii "yes"]
  | false => [ascii "off", ascii "false", ascii "no"]

inductive Means : (directive value : Bytes) → Entry → Prop
  | cargo (value : Bytes) : Means (ascii "cargo") value (.cargo value)
  | release {value : Bytes} {on : Bool} : value ∈ switchWords on →
      Means (ascii "release") value (.release on)

/-- A line is a directive, blanks and a value. -/
structure Splits (line directive value : Bytes) : Prop where
  solid : ∀ b ∈ directive, isBlank b = false
  spaced : ∃ blanks, blanks ≠ [] ∧ (∀ b ∈ blanks, isBlank b = true) ∧
    line = directive ++ blanks ++ value
  stops : Stops isBlank value
  nonempty : value ≠ []

/-- What a line that counts says. -/
def Reads (line : Bytes) (entry : Entry) : Prop :=
  ∃ directive value, Splits line directive value ∧ Means directive value entry

/-- What entries make of a configuration: theirs are the values they give, and what they do not
speak of stays. -/
structure Settles (entries : List Entry) (base config : Config) : Prop where
  root : config.root = base.root
  cargo : ∀ {value}, .cargo value ∈ entries → config.cargo = value
  cargoKept : (∀ value, .cargo value ∉ entries) → config.cargo = base.cargo
  release : ∀ {on}, .release on ∈ entries → config.release = on
  releaseKept : (∀ on, .release on ∉ entries) → config.release = base.release

/-- The lines make a configuration of another one: each that counts says something, and no two of
them give a value to one directive. -/
def Describes (lines : List Bytes) (base config : Config) : Prop :=
  ∃ entries, List.Forall₂ Reads (significant lines) entries ∧
    (entries.map Entry.directive).Nodup ∧ Settles entries base config

theorem Settles.unique {entries : List Entry} {base config config' : Config}
    (h : Settles entries base config) (h' : Settles entries base config') : config' = config := by
  have hcargo : config'.cargo = config.cargo := by
    by_cases hsaid : ∃ value, .cargo value ∈ entries
    · obtain ⟨value, hvalue⟩ := hsaid
      exact (h'.cargo hvalue).trans (h.cargo hvalue).symm
    · have hsilent := not_exists.mp hsaid
      exact (h'.cargoKept hsilent).trans (h.cargoKept hsilent).symm
  have hrelease : config'.release = config.release := by
    by_cases hsaid : ∃ on, .release on ∈ entries
    · obtain ⟨on, hon⟩ := hsaid
      exact (h'.release hon).trans (h.release hon).symm
    · have hsilent := not_exists.mp hsaid
      exact (h'.releaseKept hsilent).trans (h.releaseKept hsilent).symm
  have hroot : config'.root = config.root := h'.root.trans h.root.symm
  cases config
  cases config'
  simp_all

/-! ## One line -/

section Line

variable {line directive value : Bytes} {p p' : Progress} {entry : Entry}

/-- A line is what stands in front of its first blanks, these, and what is behind them. -/
theorem line_cut (line : Bytes) : ∃ blanks,
    line = line.takeWhile (!isBlank ·) ++
      (blanks ++ (line.dropWhile (!isBlank ·)).dropWhile isBlank) ∧
    (∀ b ∈ line.takeWhile (!isBlank ·), isBlank b = false) ∧ (∀ b ∈ blanks, isBlank b = true) ∧
    (blanks = [] → (line.dropWhile (!isBlank ·)).dropWhile isBlank = []) := by
  refine ⟨(line.dropWhile (!isBlank ·)).takeWhile isBlank, ?_, fun b hb => ?_,
    List.all_eq_true.mp List.all_takeWhile, fun hnone => ?_⟩
  · rw [List.takeWhile_append_dropWhile, List.takeWhile_append_dropWhile]
  · simpa using List.all_eq_true.mp List.all_takeWhile b hb
  · -- what is left begins with a blank, if it is anything
    have hstops := stops_dropWhile (p := (!isBlank ·)) line
    cases hrest : line.dropWhile (!isBlank ·) with
    | nil => rfl
    | cons b rest =>
        rw [hrest, stops_cons] at hstops
        have hblank : isBlank b = true := by simpa using hstops
        simp [hrest, hblank] at hnone

/-- A line is taken apart in one way only: at its first blanks. -/
theorem splits_iff : Splits line directive value ↔
    line.takeWhile (!isBlank ·) = directive ∧
      (line.dropWhile (!isBlank ·)).dropWhile isBlank = value ∧ value ≠ [] := by
  constructor
  · rintro ⟨hsolid, ⟨blanks, hne, hblanks, rfl⟩, hstops, hvalue⟩
    have hfront : ∀ b ∈ directive, (!isBlank b) = true := by simpa using hsolid
    have hback : Stops (!isBlank ·) (blanks ++ value) :=
      stops_append_of_ne_nil (stops_of_forall (by simpa using hblanks)) hne value
    rw [List.append_assoc, takeWhile_of_stops hfront hback, List.dropWhile_append_of_pos hfront,
      dropWhile_of_stops hback, List.dropWhile_append_of_pos hblanks, dropWhile_of_stops hstops]
    exact ⟨rfl, rfl, hvalue⟩
  · rintro ⟨rfl, rfl, hvalue⟩
    obtain ⟨blanks, hline, hsolid, hblanks, hnone⟩ := line_cut line
    refine ⟨hsolid, ⟨blanks, fun hnil => hvalue (hnone hnil), hblanks, ?_⟩, stops_dropWhile _,
      hvalue⟩
    rwa [List.append_assoc]

theorem switch?_eq_some {on : Bool} : switch? value = some on ↔ value ∈ switchWords on := by
  have apart : ∀ word ∈ switchWords true, word ∉ switchWords false := by decide
  have hon : [ascii "on", ascii "true", ascii "yes"].contains value = true ↔
      value ∈ switchWords true := List.contains_iff_mem
  have hoff : [ascii "off", ascii "false", ascii "no"].contains value = true ↔
      value ∈ switchWords false := List.contains_iff_mem
  simp only [switch?, hon, hoff]
  by_cases htrue : value ∈ switchWords true
  · cases on <;> simp [htrue, apart value htrue]
  · by_cases hfalse : value ∈ switchWords false
    · cases on <;> simp [htrue, hfalse]
    · cases on <;> simp [htrue, hfalse]

def Progress.lacks (p : Progress) : Entry → Bool
  | .cargo _ => !p.hasCargo
  | .release _ => !p.hasRelease

def Progress.add (p : Progress) : Entry → Progress
  | .cargo value => { p with config := { p.config with cargo := value }, hasCargo := true }
  | .release on => { p with config := { p.config with release := on }, hasRelease := true }

theorem lacks_add (p : Progress) (entry other : Entry) :
    (p.add entry).lacks other = true ↔
      p.lacks other = true ∧ entry.directive ≠ other.directive := by
  have apart : ascii "cargo" ≠ ascii "release" := by decide
  cases entry <;> cases other <;>
    simp [Progress.add, Progress.lacks, Entry.directive, apart, apart.symm]

theorem apply_eq_ok_iff : apply p directive value = .ok p' ↔
    ∃ entry, Means directive value entry ∧ p.lacks entry = true ∧ p' = p.add entry := by
  have apart : ascii "release" ≠ ascii "cargo" := by decide
  constructor
  · intro h
    rw [apply] at h
    split at h
    · next hcargo =>
      split at h
      · cases h
      · next hlacks =>
        obtain rfl := eq_of_beq hcargo
        exact ⟨_, .cargo value, by simpa [Progress.lacks] using hlacks, (Except.ok.inj h).symm⟩
    · split at h
      · next hrelease =>
        split at h
        · cases h
        · next hlacks =>
          obtain rfl := eq_of_beq hrelease
          cases hswitch : switch? value with
          | none => simp [hswitch] at h
          | some on =>
              rw [hswitch] at h
              exact ⟨_, .release (switch?_eq_some.mp hswitch),
                by simpa [Progress.lacks] using hlacks, (Except.ok.inj h).symm⟩
      · cases h
  · rintro ⟨entry, hmeans, hlacks, rfl⟩
    cases hmeans with
    | cargo =>
        have hlacks : p.hasCargo = false := by simpa [Progress.lacks] using hlacks
        simp [apply, hlacks, Progress.add]
    | release hword =>
        have hlacks : p.hasRelease = false := by simpa [Progress.lacks] using hlacks
        simp [apply, apart, hlacks, switch?_eq_some.mpr hword, Progress.add]

/-- A stripped line does not count. -/
def passed (line : Bytes) : Bool := line.isEmpty || line.head? == some 35

theorem significant_cons (line : Bytes) (rest : List Bytes) :
    significant (line :: rest) =
      if passed (strip isMargin line) then significant rest
      else strip isMargin line :: significant rest := by
  simp only [significant, List.map_cons, List.filter_cons]
  change (if (!passed (strip isMargin line)) = true then _ else _) = _
  cases passed (strip isMargin line) with
  | true => rfl
  | false => rfl

theorem readLine_of_passed (h : passed (strip isMargin line) = true) : readLine p line = .ok p := by
  rw [readLine]
  exact if_pos h

theorem readLine_eq_ok_iff (h : passed (strip isMargin line) = false) :
    readLine p line = .ok p' ↔
      ∃ entry, Reads (strip isMargin line) entry ∧ p.lacks entry = true ∧ p' = p.add entry := by
  have hread : readLine p line =
      if ((strip isMargin line).dropWhile (!isBlank ·)).dropWhile isBlank = [] then
        .error (.valueMissing (strip isMargin line))
      else apply p ((strip isMargin line).takeWhile (!isBlank ·))
        (((strip isMargin line).dropWhile (!isBlank ·)).dropWhile isBlank) := by
    simp only [readLine, List.isEmpty_iff]
    exact if_neg (by simpa [passed] using h)
  rw [hread]
  simp only [Reads, splits_iff]
  split
  · next hempty =>
    simp only [hempty, reduceCtorEq, false_iff]
    rintro ⟨entry, ⟨directive, value, ⟨-, rfl, hne⟩, -⟩, -⟩
    exact hne rfl
  · next hvalue =>
    rw [apply_eq_ok_iff]
    constructor
    · rintro ⟨entry, hmeans, hrest⟩
      exact ⟨entry, ⟨_, _, ⟨rfl, rfl, hvalue⟩, hmeans⟩, hrest⟩
    · rintro ⟨entry, ⟨directive, value, ⟨rfl, rfl, -⟩, hmeans⟩, hrest⟩
      exact ⟨entry, hmeans, hrest⟩

end Line

/-! ## All lines -/

section Lines

variable {ls front : List Bytes} {p p' : Progress} {number : Nat} {text other path : Bytes}
  {base config : Config}

/-- Entries can be read one after the other. -/
structure Follows (p : Progress) (entries : List Entry) : Prop where
  distinct : (entries.map Entry.directive).Nodup
  lacking : ∀ entry ∈ entries, p.lacks entry = true

theorem follows_cons {entry : Entry} {entries : List Entry} :
    Follows p (entry :: entries) ↔ p.lacks entry = true ∧ Follows (p.add entry) entries := by
  constructor
  · rintro ⟨hdistinct, hlacking⟩
    rw [List.map_cons, List.nodup_cons] at hdistinct
    refine ⟨hlacking entry List.mem_cons_self, hdistinct.2, fun other hother => ?_⟩
    refine (lacks_add p entry other).mpr ⟨hlacking other (List.mem_cons_of_mem _ hother), ?_⟩
    exact fun heq => hdistinct.1 (heq ▸ List.mem_map_of_mem hother)
  · rintro ⟨hlacks, hdistinct, hlacking⟩
    refine ⟨?_, fun other hother => ?_⟩
    · rw [List.map_cons, List.nodup_cons]
      refine ⟨fun hmem => ?_, hdistinct⟩
      obtain ⟨other, hother, heq⟩ := List.mem_map.mp hmem
      exact ((lacks_add p entry other).mp (hlacking other hother)).2 heq.symm
    · rcases List.mem_cons.mp hother with rfl | hother
      · exact hlacks
      · exact ((lacks_add p entry other).mp (hlacking other hother)).1

/-- Lines are read to the end exactly if what counts of them are entries that can be read one
after the other.  The induction is on the lines. -/
theorem readLines_eq_ok_iff : readLines number p ls = .ok p' ↔
    ∃ entries, List.Forall₂ Reads (significant ls) entries ∧ Follows p entries ∧
      p' = entries.foldl Progress.add p := by
  induction ls generalizing number p with
  | nil =>
      simp only [readLines, significant, List.map_nil, List.filter_nil, Except.ok.injEq,
        List.forall₂_nil_left_iff]
      constructor
      · rintro rfl
        exact ⟨[], rfl, ⟨List.nodup_nil, by simp⟩, rfl⟩
      · rintro ⟨entries, rfl, -, rfl⟩
        rfl
  | cons line rest ih =>
      rw [readLines, significant_cons]
      cases hpassed : passed (strip isMargin line) with
      | true =>
          rw [readLine_of_passed hpassed, if_pos rfl]
          exact ih
      | false =>
          rw [if_neg (by simp)]
          constructor
          · intro h
            cases hline : readLine p line with
            | error fault => simp [hline] at h
            | ok q =>
                simp only [hline] at h
                obtain ⟨entry, hreads, hlacks, rfl⟩ := (readLine_eq_ok_iff hpassed).mp hline
                obtain ⟨entries, hentries, hfollows, rfl⟩ := ih.mp h
                exact ⟨entry :: entries, .cons hreads hentries, follows_cons.mpr ⟨hlacks, hfollows⟩,
                  rfl⟩
          · rintro ⟨entries, hentries, hfollows, rfl⟩
            cases hentries with
            | cons hreads hrest =>
                obtain ⟨hlacks, hfollows⟩ := follows_cons.mp hfollows
                rw [(readLine_eq_ok_iff hpassed).mpr ⟨_, hreads, hlacks, rfl⟩]
                exact ih.mpr ⟨_, hrest, hfollows, rfl⟩

/-- Entries that can be read one after the other settle the configuration; the induction is on the
entries. -/
theorem Follows.settles {entries : List Entry} (h : Follows p entries) :
    Settles entries p.config (entries.foldl Progress.add p).config := by
  induction entries generalizing p with
  | nil => exact ⟨rfl, by simp, fun _ => rfl, by simp, fun _ => rfl⟩
  | cons entry entries ih =>
      have later := ih (follows_cons.mp h).2
      have once : ∀ other ∈ entries, entry.directive ≠ other.directive := by
        have hdistinct := h.distinct
        rw [List.map_cons, List.nodup_cons] at hdistinct
        exact fun other hother heq => hdistinct.1 (heq ▸ List.mem_map_of_mem hother)
      cases entry with
      | cargo value =>
          have silent : ∀ value', .cargo value' ∉ entries := fun _ hmem => once _ hmem rfl
          refine ⟨later.root, fun hmem => ?_, fun hno => absurd List.mem_cons_self (hno value),
            fun hmem => ?_, fun hno => ?_⟩
          · rcases List.mem_cons.mp hmem with heq | hmem
            · cases heq
              exact later.cargoKept silent
            · exact absurd hmem (silent _)
          · exact later.release (by simpa using hmem)
          · exact later.releaseKept fun on hmem => hno on (List.mem_cons_of_mem _ hmem)
      | release on =>
          have silent : ∀ on', .release on' ∉ entries := fun _ hmem => once _ hmem rfl
          refine ⟨later.root, fun hmem => ?_, fun hno => ?_, fun hmem => ?_,
            fun hno => absurd List.mem_cons_self (hno on)⟩
          · exact later.cargo (by simpa using hmem)
          · exact later.cargoKept fun value hmem => hno value (List.mem_cons_of_mem _ hmem)
          · rcases List.mem_cons.mp hmem with heq | hmem
            · cases heq
              exact later.releaseKept silent
            · exact absurd hmem (silent _)

theorem readLines_append (number : Nat) (p : Progress) (front back : List Bytes) :
    readLines number p (front ++ back) =
      match readLines number p front with
      | .ok q => readLines (number + front.length) q back
      | .error blame => .error blame := by
  induction front generalizing number p with
  | nil => rfl
  | cons line front ih =>
      rw [List.cons_append, readLines, readLines]
      cases readLine p line with
      | error fault => rfl
      | ok q =>
          simp only [ih, List.length_cons]
          rw [Nat.add_right_comm, Nat.add_assoc]

theorem readLines_eq_error_iff {fault : LineFault} :
    readLines 1 p ls = .error (number, fault) ↔
      ∃ front line back q, ls = front ++ line :: back ∧ number = front.length + 1 ∧
        readLines 1 p front = .ok q ∧ readLine q line = .error fault := by
  constructor
  · suffices faulty : ∀ from_ p, readLines from_ p ls = .error (number, fault) →
        ∃ front line back q, ls = front ++ line :: back ∧ number = from_ + front.length ∧
          readLines from_ p front = .ok q ∧ readLine q line = .error fault by
      intro h
      obtain ⟨front, line, back, q, hls, hnumber, hfront, hline⟩ := faulty 1 p h
      exact ⟨front, line, back, q, hls, hnumber.trans (Nat.add_comm ..), hfront, hline⟩
    -- the induction is on the lines, for every number the first of them may have
    induction ls with
    | nil => exact fun _ _ h => nomatch h
    | cons line rest ih =>
        intro from_ p h
        rw [readLines] at h
        cases hline : readLine p line with
        | error _ =>
            simp only [hline, Except.error.injEq, Prod.mk.injEq] at h
            exact ⟨[], line, rest, p, rfl, h.1.symm, rfl, hline.trans (congrArg _ h.2)⟩
        | ok q =>
            simp only [hline] at h
            obtain ⟨front, faulty, back, q', rfl, rfl, hfront, hfaulty⟩ := ih (from_ + 1) q h
            refine ⟨line :: front, faulty, back, q', rfl, ?_, ?_, hfaulty⟩
            · rw [List.length_cons, Nat.add_assoc, Nat.add_comm 1]
            · rw [readLines, hline]
              exact hfront
  · rintro ⟨front, line, back, q, rfl, rfl, hfront, hline⟩
    rw [readLines_append, hfront]
    simp only [readLines, hline, Nat.add_comm]

theorem parse_eq (path text : Bytes) (base : Config) :
    parse path text base =
      match readLines 1 (.start base) (lines text) with
      | .ok p => .ok p.config
      | .error (number, fault) => .error (.manifestLine path number fault) := by
  have hlines : readLines 1 (.start base) (splitOn 10 text) =
      readLines 1 (.start base) (lines text) := by
    rw [lines]
    split
    · next hlast =>
      rw [← List.dropLast_append_getLast? [] hlast, List.dropLast_concat, readLines_append]
      -- nothing is read behind the last line feed
      cases readLines 1 (.start base) (splitOn 10 text).dropLast with
      | error blame => rfl
      | ok q => rfl
    · rfl
  rw [← hlines]
  rfl

theorem parse_eq_ok_iff :
    parse path text base = .ok config ↔ Describes (lines text) base config := by
  rw [parse_eq]
  constructor
  · intro h
    cases hread : readLines 1 (.start base) (lines text) with
    | error blame => simp [hread] at h
    | ok p =>
        simp only [hread, Except.ok.injEq] at h
        obtain ⟨entries, hentries, hfollows, rfl⟩ := readLines_eq_ok_iff.mp hread
        exact ⟨entries, hentries, hfollows.distinct, h ▸ hfollows.settles⟩
  · rintro ⟨entries, hentries, hdistinct, hsettles⟩
    have hfollows : Follows (.start base) entries :=
      ⟨hdistinct, fun entry _ => by cases entry <;> rfl⟩
    rw [readLines_eq_ok_iff.mpr ⟨entries, hentries, hfollows, rfl⟩]
    exact congrArg Except.ok (hsettles.unique hfollows.settles)

/-! ## The line to blame -/

/-- Lines that are accepted when they are a whole manifest. -/
def Accepted (path : Bytes) (ls : List Bytes) (base : Config) : Prop :=
  ∃ config, parse path (unlines ls) base = .ok config

/-- A failure to read a manifest blames a line: the first one with which what has been read is not
accepted.  Nothing behind it has a say. -/
structure Blames (path text : Bytes) (base : Config) (failure : Failure) (number : Nat) : Prop where
  category : failure.category = .config
  located : path ++ ascii ":" ++ Bytes.ofNat number ++ ascii ": " <+: failure.message
  first : ∀ n, Accepted path ((lines text).take (n - 1)) base ∧
    ¬ Accepted path ((lines text).take n) base ↔ n = number
  alone : ∀ other, (lines other).take number = (lines text).take number →
    parse path other base = .error failure

theorem accepted_iff (h : ∀ line ∈ ls, (10 : UInt8) ∉ line) :
    Accepted path ls base ↔ ∃ p, readLines 1 (.start base) ls = .ok p := by
  simp only [Accepted, parse_eq, lines_unlines h]
  cases readLines 1 (.start base) ls with
  | error blame => simp
  | ok p => simp

theorem readLines_take_of_le {n m : Nat} (h : n ≤ m) {q : Progress}
    (hok : readLines number p (ls.take m) = .ok q) :
    ∃ q', readLines number p (ls.take n) = .ok q' := by
  have hcut : ls.take m = ls.take n ++ (ls.take m).drop n := by
    conv_lhs => rw [← List.take_append_drop n (ls.take m), List.take_take, Nat.min_eq_left h]
  rw [hcut, readLines_append] at hok
  cases hfront : readLines number p (ls.take n) with
  | error blame => simp [hfront] at hok
  | ok q' => exact ⟨q', rfl⟩

theorem number_le_of_parse {fault : LineFault}
    (h : parse path text base = .error (.manifestLine path number fault)) :
    0 < number ∧ number ≤ (lines text).length := by
  rw [parse_eq] at h
  cases hread : readLines 1 (.start base) (lines text) with
  | ok p => simp [hread] at h
  | error blame =>
      obtain ⟨number', fault'⟩ := blame
      obtain ⟨rfl, -⟩ : number' = number ∧ fault' = fault := by simpa [hread] using h
      obtain ⟨front, line, back, q, hlines, rfl, -⟩ := readLines_eq_error_iff.mp hread
      simp only [hlines, List.length_append, List.length_cons]
      omega

/-- A manifest with no more lines than there are numbers blames none beyond them. -/
theorem number_le_lineLimit {fault : LineFault} (hlines : (lines text).length ≤ lineLimit)
    (h : parse path text base = .error (.manifestLine path number fault)) : number ≤ lineLimit :=
  (number_le_of_parse h).2.trans hlines

theorem blames_of_parse {failure : Failure} (h : parse path text base = .error failure) :
    ∃ number, Blames path text base failure number := by
  rw [parse_eq] at h
  cases hread : readLines 1 (.start base) (lines text) with
  | ok p => simp [hread] at h
  | error blame =>
    obtain ⟨number, fault⟩ := blame
    obtain rfl : Failure.manifestLine path number fault = failure := by simpa [hread] using h
    obtain ⟨front, line, back, q, hlines, rfl, hfront, hline⟩ := readLines_eq_error_iff.mp hread
    have hfree : ∀ n, ∀ line ∈ (lines text).take n, (10 : UInt8) ∉ line :=
      fun n line hmem => not_mem_of_mem_lines (List.mem_of_mem_take hmem)
    have htake : (lines text).take front.length = front := by simp [hlines]
    have htake_succ : (lines text).take (front.length + 1) = front ++ [line] := by
      simp [hlines, List.take_append]
    have hfaulty : readLines 1 (.start base) (front ++ [line]) = .error (front.length + 1, fault) :=
      readLines_eq_error_iff.mpr ⟨front, line, [], q, rfl, rfl, hfront, hline⟩
    refine ⟨front.length + 1, rfl, List.prefix_append .., fun n => ?_, fun other hsame => ?_⟩
    · rw [accepted_iff (hfree _), accepted_iff (hfree _)]
      constructor
      · rintro ⟨⟨q', hbefore⟩, hnot⟩
        by_contra hne
        rcases Nat.lt_or_gt_of_ne hne with hlt | hgt
        · -- the lines are too few to reach the faulty one
          exact hnot (readLines_take_of_le (Nat.le_of_lt_succ hlt) (by rwa [htake]))
        · obtain ⟨q', hq'⟩ := readLines_take_of_le (Nat.le_sub_one_of_lt hgt) hbefore
          rw [htake_succ, hfaulty] at hq'
          cases hq'
      · rintro rfl
        refine ⟨⟨q, by rwa [Nat.add_sub_cancel, htake]⟩, ?_⟩
        rw [htake_succ, hfaulty]
        rintro ⟨q', hq'⟩
        cases hq'
    · rw [htake_succ] at hsame
      have hother : lines other = front ++ line :: (lines other).drop (front.length + 1) := by
        conv_lhs => rw [← List.take_append_drop (front.length + 1) (lines other), hsame]
        simp
      rw [parse_eq, readLines_eq_error_iff.mpr ⟨front, line, _, q, hother, rfl, hfront, hline⟩]

end Lines

/-! ## Positions -/

section Positions

variable {p q : UInt8 → Bool} {s line : Bytes} {start n : Nat}

/-- The first position, from a given one on, of a byte of a class. -/
def position? (p : UInt8 → Bool) (s : Bytes) (start : Nat) : Option Nat :=
  ((s.drop start).findIdx? p).map (start + ·)

def lastPosition? (p : UInt8 → Bool) (s : Bytes) : Option Nat :=
  (position? p s.reverse 0).map (s.length - 1 - ·)

/-- At most so many bytes of a text from a position on.  There is nothing to be had from a position
behind the end of the text, or from one that was not found. -/
def piece? (s : Bytes) (start : Option Nat) (length : Nat) : Option Bytes :=
  start.bind fun n => if n ≤ s.length then some ((s.drop n).take length) else none

/-- What a line is cut into before its directive is looked at. -/
inductive Cut
  | passed
  | bare (line : Bytes)
  | split (directive value : Bytes)

def Cut.read (p : Progress) : Cut → Except LineFault Progress
  | passed => .ok p
  | bare line => .error (.valueMissing line)
  | split directive value => apply p directive value

/-- Cuts a line without bytes that do not count at the positions that are found in it. -/
def cutTrimmed? (line : Bytes) : Option Cut :=
  if line.head? == some 35 then some .passed
  else
    match position? isBlank line 0 with
    | none => some (.bare line)
    | some blank => do
      let directive ← piece? line (some 0) blank
      let value ← piece? line (position? (!isBlank ·) line blank) line.length
      return .split directive value

/-- Cuts a line at the positions that are found in it; `none` if a piece of it is asked for that
begins behind its end. -/
def cutAt? (line : Bytes) : Option Cut :=
  match position? (!isMargin ·) line 0 with
  | none => some .passed
  | some start => do
    let line ← piece? line (some start) line.length
    match lastPosition? (fun b => !(isMargin b || b == 10)) line with
    | none => cutTrimmed? line
    | some last => cutTrimmed? (← piece? line (some 0) (last + 1))

theorem position?_of_run (front : Bytes) {run rest : Bytes} (hrun : ∀ b ∈ run, p b = false)
    (hrest : Stops (!p ·) rest) (hne : rest ≠ []) :
    position? p (front ++ (run ++ rest)) front.length = some (front.length + run.length) := by
  obtain ⟨b, rest, rfl⟩ := List.exists_cons_of_ne_nil hne
  have hb : p b = true := by simpa using stops_cons.mp hrest
  have hfree : run.findIdx? p = none := List.findIdx?_eq_none_iff.mpr hrun
  rw [position?, List.drop_left, List.findIdx?_append, hfree, List.findIdx?_cons, if_pos hb]
  simp

theorem position?_of_free (front : Bytes) {run : Bytes} (hrun : ∀ b ∈ run, p b = false) :
    position? p (front ++ run) front.length = none := by
  rw [position?, List.drop_left, List.findIdx?_eq_none_iff.mpr hrun, Option.map_none]

theorem piece?_tail {front rest : Bytes} (h : (front ++ rest).length ≤ n) :
    piece? (front ++ rest) (some front.length) n = some rest := by
  have hlong : rest.length ≤ n := by
    rw [List.length_append] at h
    omega
  simp [piece?, List.take_of_length_le hlong]

theorem piece?_front (front rest : Bytes) :
    piece? (front ++ rest) (some 0) front.length = some front := by
  simp [piece?]

theorem lastPosition?_of_run {front run : Bytes} (hrun : ∀ b ∈ run, p b = false)
    (hfront : Stops (!p ·) front.reverse) (hne : front ≠ []) :
    lastPosition? p (front ++ run) = some (front.length - 1) := by
  have hrun' : ∀ b ∈ run.reverse, p b = false := by simpa using hrun
  have hfound := position?_of_run [] hrun' hfront (by simpa using hne)
  rw [List.nil_append, ← List.reverse_append] at hfound
  rw [lastPosition?, List.length_nil] at *
  rw [hfound, Option.map_some, List.length_append, List.length_reverse]
  congr 1
  omega

/-- A line that neither begins nor ends with bytes that do not count is cut at positions that are
there, into what reading it takes in. -/
theorem exists_cutTrimmed? (hne : line ≠ []) (hfirst : Stops isMargin line)
    (hlast : Stops isMargin line.reverse) :
    ∃ cut, cutTrimmed? line = some cut ∧ (∀ p, readLine p line = cut.read p) ∧
      ∀ {directive value}, cut = .split directive value → value ≠ [] := by
  have hbody : strip isMargin line = line := strip_of_stops hfirst hlast
  have hsome : line.isEmpty = false := by simpa using hne
  by_cases hcomment : line.head? = some 35
  · refine ⟨.passed, by simp [cutTrimmed?, hcomment], fun p => ?_, fun h => nomatch h⟩
    simp [readLine, hbody, hcomment, Cut.read]
  have hread : ∀ p, readLine p line =
      if (line.dropWhile (!isBlank ·)).dropWhile isBlank = [] then .error (.valueMissing line)
      else apply p (line.takeWhile (!isBlank ·))
        ((line.dropWhile (!isBlank ·)).dropWhile isBlank) := fun p => by
    simp [readLine, hbody, hsome, hcomment]
  obtain ⟨blanks, hcut, hsolid, hblanks, hnone⟩ := line_cut line
  have hvalue := stops_dropWhile (p := isBlank) (line.dropWhile (!isBlank ·))
  generalize line.takeWhile (!isBlank ·) = directive at hcut hsolid hread
  generalize (line.dropWhile (!isBlank ·)).dropWhile isBlank = value at hcut hnone hvalue hread
  simp only [cutTrimmed?, hcomment, beq_iff_eq, if_false]
  rcases eq_or_ne blanks [] with rfl | hspaced
  · obtain rfl := hnone rfl
    have hfree : position? isBlank line 0 = none := by
      rw [hcut]
      exact position?_of_free [] (by simpa using hsolid)
    exact ⟨.bare line, by rw [hfree], hread, fun h => nomatch h⟩
  · have hfilled : value ≠ [] := by
      -- the line would end in a blank otherwise
      rintro rfl
      obtain ⟨blanks, b, rfl⟩ := (List.eq_nil_or_concat' blanks).resolve_left hspaced
      rw [hcut] at hlast
      have hb : isMargin b = false := by simpa [stops_cons] using hlast
      simp [isMargin, hblanks b (by simp)] at hb
    have hblank : position? isBlank line 0 = some directive.length := by
      have hstop : Stops (!isBlank ·) (blanks ++ value) :=
        stops_append_of_ne_nil (stops_of_forall (by simpa using hblanks)) hspaced value
      have hfound := position?_of_run [] hsolid hstop (by simp [hspaced])
      rwa [List.nil_append, ← hcut, List.length_nil, Nat.zero_add] at hfound
    have hsolid? : position? (!isBlank ·) line directive.length =
        some (directive ++ blanks).length := by
      rw [hcut, List.length_append]
      exact position?_of_run _ (by simpa using hblanks) (by simpa [Stops] using hvalue) hfilled
    have hfront : piece? line (some 0) directive.length = some directive := by
      conv_lhs => rw [hcut]
      exact piece?_front ..
    have htail : piece? line (some (directive ++ blanks).length) line.length = some value := by
      have hline : directive ++ blanks ++ value = line := by rw [hcut, List.append_assoc]
      conv_lhs => rw [← hline]
      exact piece?_tail (by rw [hline])
    refine ⟨.split directive value, ?_, fun p => (hread p).trans (if_neg hfilled), ?_⟩
    · simp only [hblank, hsolid?, hfront, htail, Option.pure_def, Option.bind_eq_bind,
        Option.bind_some]
    · rintro directive value ⟨⟩
      exact hfilled

/-- A line is cut at positions that are there, into what reading it takes in; and a value that is
cut off is never empty. -/
theorem exists_cutAt? (h : (10 : UInt8) ∉ line) :
    ∃ cut, cutAt? line = some cut ∧ (∀ p, readLine p line = cut.read p) ∧
      ∀ {directive value}, cut = .split directive value → value ≠ [] := by
  obtain ⟨y, z, hline, hy, hz⟩ := strip_cut isMargin line
  have hfirst := stops_strip isMargin line
  have hlast := stops_strip_reverse isMargin line
  have hread : ∀ p, readLine p line = readLine p (strip isMargin line) := by
    intro p
    rw [readLine, readLine, strip_of_stops hfirst hlast]
  generalize strip isMargin line = body at hline hfirst hlast hread
  rcases eq_or_ne body [] with rfl | hne
  · have hfree : position? (!isMargin ·) line 0 = none := by
      refine position?_of_free [] fun b hb => ?_
      rw [hline, List.append_nil] at hb
      simpa using (List.mem_append.mp hb).elim (hy b) (hz b)
    exact ⟨.passed, by simp only [cutAt?, hfree], hread, fun h => nomatch h⟩
  · obtain ⟨cut, hcut, hread', hvalue⟩ := exists_cutTrimmed? hne hfirst hlast
    refine ⟨cut, ?_, fun p => (hread p).trans (hread' p), hvalue⟩
    have hstart : position? (!isMargin ·) line 0 = some y.length := by
      have hstop : Stops (fun b => !!isMargin b) (body ++ z) := by
        simpa [Stops] using stops_append_of_ne_nil hfirst hne z
      have hfound := position?_of_run (p := (!isMargin ·)) [] (by simpa using hy) hstop
        (by simp [hne])
      rwa [List.nil_append, ← List.append_assoc, ← hline, List.length_nil, Nat.zero_add] at hfound
    have htail : piece? line (some y.length) line.length = some (body ++ z) := by
      have hline : y ++ (body ++ z) = line := by rw [hline, List.append_assoc]
      conv_lhs => rw [← hline]
      exact piece?_tail (by rw [hline])
    have hend : lastPosition? (fun b => !(isMargin b || b == 10)) (body ++ z) =
        some (body.length - 1) := by
      refine lastPosition?_of_run (fun b hb => by simp [hz b hb]) ?_ hne
      intro b hb
      have hb10 : b ≠ 10 := by
        rintro rfl
        refine h ?_
        rw [hline]
        have := List.mem_of_mem_head? hb
        simp_all
      simpa [hb10] using hlast b hb
    have hfront : piece? (body ++ z) (some 0) (body.length - 1 + 1) = some body := by
      rw [Nat.sub_add_cancel (List.length_pos_iff.mpr hne)]
      exact piece?_front ..
    simp only [cutAt?, hstart, htail, hend, hfront, Option.bind_eq_bind, Option.bind_some, hcut]

end Positions

/-- A manifest is accepted exactly if its lines describe a configuration, which is then the one it
gives.  Otherwise a line of it is to blame.  No line of it is cut behind its end, and no value that
is cut off is empty. -/
theorem parse_by_lines (path text : Bytes) (base : Config) :
    (∀ config, parse path text base = .ok config ↔ Describes (lines text) base config) ∧
    (∀ failure, parse path text base = .error failure →
      ∃ number, Blames path text base failure number) ∧
    ∀ line ∈ lines text, ∃ cut, cutAt? line = some cut ∧ (∀ p, readLine p line = cut.read p) ∧
      ∀ directive value, cut = .split directive value → value ≠ [] := by
  refine ⟨fun _ => parse_eq_ok_iff, fun _ => blames_of_parse, fun line hline => ?_⟩
  obtain ⟨cut, hcut, hread, hvalue⟩ := exists_cutAt? (not_mem_of_mem_lines hline)
  exact ⟨cut, hcut, hread, fun _ _ => hvalue⟩

example :
    parse (ascii "p") (ascii "\x0b\n # c\n\tcargo \t/x y\t\r\n\nrelease\t off") ⟨[47], [], true⟩ =
      .error (.manifestLine (ascii "p") 1 (.valueMissing [11])) := by decide

end Manifest
end WasmPackager
