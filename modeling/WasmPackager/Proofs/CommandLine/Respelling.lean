/-
# `Proofs.CommandLine.Respelling` — the three ways to write the project root

The directory of the root option is the argument behind `-C` or `--root`, or
what is behind `--root=` in one argument.  Which of the three is written makes
no difference, wherever on the command line the option stands
(`parse_respelled`).  Only an empty directory has to be an argument of its own:
`--root=` with nothing behind it is refused (`empty_root_told_apart`).

Nothing is asked of the arguments in front of the option, except that the last
of them does not take the option itself for its directory (`Closed`).  What is
wrong with them is said before the option is looked at.
-/
import WasmPackager.Proofs.CommandLine.Grammar

namespace WasmPackager.CommandLine

/-- The ways to write the root option. -/
inductive Spelling
  | short
  | long
  | joined
deriving DecidableEq

def Spelling.words (dir : Bytes) : Spelling → List Bytes
  | short => [ascii "-C", dir]
  | long => [ascii "--root", dir]
  | joined => [rootStem ++ dir]

/-- A directory can be written in this way. -/
def Spelling.Fits (dir : Bytes) (spelling : Spelling) : Prop := spelling = .joined → dir ≠ []

/-- Arguments behind which, read from the left, no option waits for its directory. -/
inductive Closed : List Bytes → Prop
  | nil : Closed []
  | pair {word : Bytes} {rest : List Bytes} (dir : Bytes) : word ∈ rootWords → Closed rest →
      Closed (word :: dir :: rest)
  | single {word : Bytes} {rest : List Bytes} : word ∉ rootWords → Closed rest →
      Closed (word :: rest)

section

variable {front back back' : List Bytes} {dir : Bytes} {spelling : Spelling}

/-! ## Items are closed -/

theorem Item.Written.closed {item : Item} {words : List Bytes} (hw : item.Written words)
    (h : Closed back) : Closed (words ++ back) := by
  have other : ∀ word ∈ helpWords ++ [ascii "--version"] ++ notesWords, word ∉ rootWords := by
    decide
  cases hw with
  | help hword => exact .single (other _ (by simp [hword])) h
  | version => exact .single (other _ (by simp)) h
  | notes hword => exact .single (other _ (by simp [hword])) h
  | rootBehind dir hword => exact .pair dir hword h
  | rootWithin hdir =>
      refine .single (fun hword => ?_) h
      exact not_stem_prefix_of_mem_optionWords (List.mem_append_right _ hword)
        (List.prefix_append _ _)
  | command mode => exact .single (by cases mode <;> decide) h

theorem Reads.closed {items : List Item} (h : Reads items front) : Closed front := by
  induction h with
  | nil => exact .nil
  | cons hw _ ih => exact hw.closed ih

/-! ## What stands behind closed arguments -/

/-- From here the arguments `front` are read to some point, whatever is behind them: they are
refused, or what is behind them is read from there. -/
def Passes (options : Options) (hasCommand : Bool) (front : List Bytes) : Prop :=
  (∃ fault, ∀ rest, read options hasCommand (front ++ rest) = .error fault) ∨
    ∃ options' hasCommand', ∀ rest,
      read options hasCommand (front ++ rest) = read options' hasCommand' rest

/-- Nothing is no directory behind `--root=`. -/
theorem read_stem (options : Options) (hasCommand : Bool) (rest : List Bytes) :
    read options hasCommand (rootStem :: rest) = .error (.directoryMissing (ascii "--root")) := by
  rw [read.eq_def]
  rfl

theorem Item.Written.passes {item : Item} {words : List Bytes} (hw : item.Written words)
    (hitem : item.mode? = none) (options : Options) (hasCommand : Bool) :
    Passes options hasCommand words :=
  .inr ⟨item.effect options, hasCommand, read_option hw hitem options hasCommand⟩

theorem passes_single {word : Bytes} (hword : word ∉ rootWords) (options : Options)
    (hasCommand : Bool) : Passes options hasCommand [word] := by
  by_cases hstem : rootStem <+: word
  · obtain ⟨dir, rfl⟩ := hstem
    cases dir with
    | nil => exact .inl ⟨_, read_stem options hasCommand⟩
    | cons b dir => exact Item.Written.passes (.rootWithin (by simp)) rfl options hasCommand
  by_cases hoption : word ∈ optionWords
  · simp only [optionWords, List.mem_append, List.mem_singleton] at hoption
    rcases hoption with ((hhelp | rfl) | hnotes) | hroot
    · exact Item.Written.passes (.help hhelp) rfl options hasCommand
    · exact Item.Written.passes .version rfl options hasCommand
    · exact Item.Written.passes (.notes hnotes) rfl options hasCommand
    · exact absurd hroot hword
  · simp only [Passes, List.singleton_append, read_word hoption hstem]
    by_cases hhead : word.head? = some 45
    · exact .inl ⟨_, fun _ => if_pos hhead⟩
    simp only [if_neg hhead]
    cases hasCommand with
    | true => exact .inl ⟨_, fun _ => rfl⟩
    | false =>
        cases mode? word with
        | some mode => exact .inr ⟨_, _, fun _ => rfl⟩
        | none => exact .inl ⟨_, fun _ => rfl⟩

/-- What passes, and from wherever that leads the rest passes, passes together. -/
theorem Passes.append {options : Options} {hasCommand : Bool}
    (hfront : Passes options hasCommand front)
    (hback : ∀ options hasCommand, Passes options hasCommand back) :
    Passes options hasCommand (front ++ back) := by
  simp only [Passes, List.append_assoc]
  rcases hfront with ⟨fault, hfault⟩ | ⟨options', hasCommand', hpass⟩
  · exact .inl ⟨fault, fun rest => hfault (back ++ rest)⟩
  · simp only [hpass]
    exact hback options' hasCommand'

theorem Closed.passes (h : Closed front) (options : Options) (hasCommand : Bool) :
    Passes options hasCommand front := by
  induction h generalizing options hasCommand with
  | nil => exact .inr ⟨options, hasCommand, fun _ => rfl⟩
  | pair dir hword _ ih =>
      have hw : (Item.root dir).Written [_, dir] := .rootBehind dir hword
      exact (hw.passes rfl options hasCommand).append ih
  | single hword _ ih => exact (passes_single hword options hasCommand).append ih

/-! ## Spellings -/

theorem Spelling.written (h : spelling.Fits dir) :
    (Item.root dir).Written (spelling.words dir) := by
  cases spelling with
  | short => exact .rootBehind dir List.mem_cons_self
  | long => exact .rootBehind dir (List.mem_cons_of_mem _ List.mem_cons_self)
  | joined => exact .rootWithin (h rfl)

end

/-- Behind arguments of which none waits for it as its directory, as behind any items, the root
option can be written in each of the ways in which its directory can be written, and nothing
changes: the same is asked for, or the same is said of the arguments.  Nothing is no directory
behind `--root=`, whatever comes then. -/
theorem parse_respelled (name : Bytes) (front : List Bytes) (dir : Bytes) :
    (∀ items, Reads items front → Closed front) ∧
    (Closed front →
      (∀ spelling spelling' : Spelling, spelling.Fits dir → spelling'.Fits dir → ∀ rest,
        parse (name :: (front ++ (spelling.words dir ++ rest))) =
          parse (name :: (front ++ (spelling'.words dir ++ rest)))) ∧
      (dir = [] → ∃ fault, ∀ rest,
        parse (name :: (front ++ (Spelling.joined.words dir ++ rest))) = .error fault)) := by
  simp only [parse, List.drop_succ_cons, List.drop_zero]
  refine ⟨fun items hreads => hreads.closed,
    fun hfront => ⟨fun spelling spelling' hs hs' rest => ?_, ?_⟩⟩
  · rcases hfront.passes .none false with ⟨fault, hfault⟩ | ⟨options, hasCommand, hpass⟩
    · rw [hfault, hfault]
    · rw [hpass, hpass, read_option (Spelling.written hs) rfl,
        read_option (Spelling.written hs') rfl]
  · rintro rfl
    rcases hfront.passes .none false with ⟨fault, hfault⟩ | ⟨options, hasCommand, hpass⟩
    · exact ⟨fault, fun rest => hfault _⟩
    · exact ⟨_, fun rest => (hpass _).trans (read_stem options hasCommand rest)⟩

/-- An empty directory is the working directory behind `-C`, and none behind `--root=`. -/
theorem empty_root_told_apart :
    let line (spelling : Spelling) :=
      ascii "screeps-build" :: ([] ++ (spelling.words [] ++ [ascii "build"]))
    parse (line .short) = .ok ⟨.build, [], false, false, false⟩ ∧
      parse (line .joined) = .error (.directoryMissing (ascii "--root")) ∧
      ¬ ∀ name front dir, Closed front → ∀ (spelling spelling' : Spelling) rest,
        parse (name :: (front ++ (spelling.words dir ++ rest))) =
          parse (name :: (front ++ (spelling'.words dir ++ rest))) := by
  refine ⟨rfl, rfl, fun hall => ?_⟩
  have same := hall (ascii "screeps-build") [] [] .nil .short .joined [ascii "build"]
  cases same

/-- A directory that looks like an option, behind an option whose directory looks like one. -/
theorem parse_respelled_sample :
    let items := [Item.notes, .root (ascii "--root")]
    let front := [ascii "-v", ascii "-C", ascii "--root"]
    let dir := ascii "--root=x"
    Reads items front ∧ Closed front ∧ Spelling.long.Fits dir ∧ Spelling.joined.Fits dir ∧
      ∀ rest, parse (ascii "screeps-build" :: (front ++ (Spelling.long.words dir ++ rest))) =
        parse (ascii "screeps-build" :: (front ++ (Spelling.joined.words dir ++ rest))) := by
  intro items front dir
  have hreads : Reads items front :=
    .cons (.notes List.mem_cons_self) (.cons (.rootBehind _ List.mem_cons_self) .nil)
  have hlong : Spelling.long.Fits dir := fun h => nomatch h
  have hjoined : Spelling.joined.Fits dir := fun _ => by decide
  obtain ⟨closed, respelled⟩ := parse_respelled (ascii "screeps-build") front dir
  exact ⟨hreads, closed items hreads, hlong, hjoined,
    (respelled (closed items hreads)).1 _ _ hlong hjoined⟩

end WasmPackager.CommandLine
