/-
# `Proofs.CommandLine.Grammar` — which command lines are accepted, and what is said of the others

A command line is a sequence of items: an option, an option with the directory
that belongs to it, or a command.  `Reads items arguments` says, without any
reading, that the arguments are these items written one behind the other, and
`asked items` is what they ask for.  Accepted is exactly what is items, of
which at most one is a command and some one is a command, a request for help
or one for the version (`parse_by_items`).

The arguments are read from left to right.  Behind every item the reading
stands where the items so far have brought it, so it can be taken up there
(`read_reads`).  `Stuck` says where it cannot go on and what is said then: of the
arguments that are left no item can be taken that may stand there
(`exists_stuck_iff`), and the blame is put on the first of them, whatever is
behind it.
-/
import WasmPackager.CommandLine

namespace WasmPackager.CommandLine

/-! ## Items -/

def helpWords : List Bytes := [ascii "-h", ascii "--help"]

def notesWords : List Bytes := [ascii "-v", ascii "--verbose"]

/-- The options whose directory is the argument behind them. -/
def rootWords : List Bytes := [ascii "-C", ascii "--root"]

/-- The option whose directory is behind it in the same argument. -/
def rootStem : Bytes := ascii "--root="

def optionWords : List Bytes := helpWords ++ [ascii "--version"] ++ notesWords ++ rootWords

def commandWord : Mode → Bytes
  | .check => ascii "check"
  | .build => ascii "build"

/-- What can stand on a command line. -/
inductive Item
  | help
  | version
  | notes
  | root (dir : Bytes)
  | command (mode : Mode)
deriving DecidableEq

/-- The arguments are the item, written out. -/
inductive Item.Written : Item → List Bytes → Prop
  | help {word : Bytes} : word ∈ helpWords → Written .help [word]
  | version : Written .version [ascii "--version"]
  | notes {word : Bytes} : word ∈ notesWords → Written .notes [word]
  /-- The directory may be any argument, also one that would be an item itself. -/
  | rootBehind {word : Bytes} (dir : Bytes) : word ∈ rootWords → Written (.root dir) [word, dir]
  | rootWithin {dir : Bytes} : dir ≠ [] → Written (.root dir) [rootStem ++ dir]
  | command (mode : Mode) : Written (.command mode) [commandWord mode]

/-- The arguments are the items, one behind the other. -/
inductive Reads : List Item → List Bytes → Prop
  | nil : Reads [] []
  | cons {item : Item} {items : List Item} {words rest : List Bytes} :
      item.Written words → Reads items rest → Reads (item :: items) (words ++ rest)

theorem Item.Written.length_pos {item : Item} {words : List Bytes} (h : item.Written words) :
    0 < words.length := by
  cases h <;> exact Nat.succ_pos _

/-! ## What items ask for -/

def Item.mode? : Item → Option Mode
  | command mode => some mode
  | _ => none

/-- The directory of an item that gives the project root. -/
def Item.root? : Item → Option Bytes
  | root dir => some dir
  | _ => none

def modes (items : List Item) : List Mode := items.filterMap Item.mode?

/-- The directories the items give for the project root. -/
def roots (items : List Item) : List Bytes := items.filterMap Item.root?

/-- At most one of the items is a command. -/
def Sole (items : List Item) : Prop := (modes items).length ≤ 1

/-- Some item says what is to be done. -/
def Complete (items : List Item) : Prop :=
  modes items ≠ [] ∨ .help ∈ items ∨ .version ∈ items

/-- What the items ask for.  Of several directories the last one counts. -/
def asked (items : List Item) : Options where
  mode := (modes items).head?.getD .build
  root := (roots items).getLast?.getD []
  verbose := decide (.notes ∈ items)
  help := decide (.help ∈ items)
  version := decide (.version ∈ items)

def commanded (items : List Item) : Bool := !(modes items).isEmpty

/-- The options when the item has been read too. -/
def Item.effect : Item → Options → Options
  | help, options => { options with help := true }
  | version, options => { options with version := true }
  | notes, options => { options with verbose := true }
  | root dir, options => { options with root := dir }
  | command mode, options => { options with mode }

/-- The items do not go on with the arguments, and what is said of that. -/
inductive Stuck (items : List Item) : List Bytes → UsageFault → Prop
  | cutShort {word : Bytes} : word ∈ rootWords → Stuck items [word] (.directoryMissing word)
  | noDirectory (rest : List Bytes) :
      Stuck items (rootStem :: rest) (.directoryMissing (ascii "--root"))
  | unknownOption {argument : Bytes} (rest : List Bytes) : argument.head? = some 45 →
      argument ∉ optionWords → ¬ rootStem <+: argument →
      Stuck items (argument :: rest) (.unknownOption argument)
  | unexpected {argument : Bytes} (rest : List Bytes) : argument.head? ≠ some 45 →
      modes items ≠ [] → Stuck items (argument :: rest) (.unexpectedArgument argument)
  | unknownCommand {argument : Bytes} (rest : List Bytes) : argument.head? ≠ some 45 →
      modes items = [] → (∀ mode, argument ≠ commandWord mode) →
      Stuck items (argument :: rest) (.unknownCommand argument)

section

variable {item : Item} {items done : List Item} {words front rest : List Bytes}
  {argument : Bytes} {fault : UsageFault}

@[simp] theorem modes_append (front back : List Item) :
    modes (front ++ back) = modes front ++ modes back := by simp [modes]

@[simp] theorem roots_append (front back : List Item) :
    roots (front ++ back) = roots front ++ roots back := by simp [roots]

theorem Sole.of_append {back : List Item} (h : Sole (done ++ back)) : Sole done := by
  rw [Sole, modes_append, List.length_append] at h
  exact Nat.le_trans (Nat.le_add_right _ _) h

theorem modes_append_of_none (hitem : item.mode? = none) : modes (done ++ [item]) = modes done := by
  simp [modes, hitem]

theorem Sole.append_of_none (h : Sole done) (hitem : item.mode? = none) :
    Sole (done ++ [item]) := by
  rwa [Sole, modes_append_of_none hitem]

theorem sole_append_command {mode : Mode} :
    Sole (done ++ [.command mode]) ↔ modes done = [] := by
  simp [Sole, modes, Item.mode?]

theorem commanded_eq_true_iff : commanded items = true ↔ modes items ≠ [] := by
  simp [commanded]

theorem commanded_eq_false_iff : commanded items = false ↔ modes items = [] := by
  simp [commanded]

theorem asked_append (hs : Sole (done ++ [item])) :
    asked (done ++ [item]) = item.effect (asked done) := by
  cases item with
  | command mode =>
      have hmodes : modes (done ++ [.command mode]) = [mode] := by
        rw [modes_append, sole_append_command.mp hs]
        rfl
      have hroots : roots (done ++ [.command mode]) = roots done := by simp [roots, Item.root?]
      simp [asked, Item.effect, hmodes, hroots]
  | _ => simp [asked, Item.effect, modes, roots, Item.mode?, Item.root?]

theorem complete_iff :
    (commanded items || (asked items).help || (asked items).version) = true ↔ Complete items := by
  simp [Complete, commanded_eq_true_iff, asked, or_assoc]

/-! ## Words -/

theorem head?_of_mem_optionWords (h : argument ∈ optionWords) : argument.head? = some 45 := by
  revert argument
  decide

theorem head?_of_stem (h : rootStem <+: argument) : argument.head? = some 45 := by
  obtain ⟨dir, rfl⟩ := h
  rfl

theorem head?_commandWord (mode : Mode) : (commandWord mode).head? ≠ some 45 := by
  cases mode <;> decide

theorem mode?_eq_none (h : ∀ mode, argument ≠ commandWord mode) : mode? argument = none := by
  have hcheck : (argument == ascii "check") = false := beq_eq_false_iff_ne.mpr (h .check)
  have hbuild : (argument == ascii "build") = false := beq_eq_false_iff_ne.mpr (h .build)
  simp [mode?, hcheck, hbuild]

theorem rootArgument?_eq_none (h : ¬ rootStem <+: argument) : rootArgument? argument = none := by
  rw [← List.isPrefixOf_iff_prefix] at h
  simp only [rootArgument?]
  exact if_neg h

/-! ## Reading -/

theorem read_word (hword : argument ∉ optionWords) (hstem : ¬ rootStem <+: argument)
    (options : Options) (hasCommand : Bool) (rest : List Bytes) :
    read options hasCommand (argument :: rest) =
      if argument.head? = some 45 then .error (.unknownOption argument)
      else if hasCommand then .error (.unexpectedArgument argument)
      else
        match mode? argument with
        | some mode => read { options with mode } true rest
        | .none => .error (.unknownCommand argument) := by
  simp only [optionWords, helpWords, notesWords, rootWords, List.cons_append, List.nil_append,
    List.mem_cons, List.not_mem_nil, or_false, not_or] at hword
  rw [read.eq_def]
  cases hmode : mode? argument <;>
    simp only [beq_eq_false_iff_ne.mpr, hword, ne_eq, not_false_eq_true, Bool.or_self,
      Bool.false_eq_true, if_false, rootArgument?_eq_none hstem, beq_iff_eq, hmode]

theorem read_option (hw : item.Written words) (hitem : item.mode? = none) (options : Options)
    (hasCommand : Bool) (rest : List Bytes) :
    read options hasCommand (words ++ rest) = read (item.effect options) hasCommand rest := by
  cases hw with
  | help hword =>
      simp only [helpWords, List.mem_cons, List.not_mem_nil, or_false] at hword
      rcases hword with rfl | rfl <;> rw [List.singleton_append, read.eq_def] <;> rfl
  | version =>
      rw [List.singleton_append, read.eq_def]
      rfl
  | notes hword =>
      simp only [notesWords, List.mem_cons, List.not_mem_nil, or_false] at hword
      rcases hword with rfl | rfl <;> rw [List.singleton_append, read.eq_def] <;> rfl
  | rootBehind dir hword =>
      simp only [rootWords, List.mem_cons, List.not_mem_nil, or_false] at hword
      rcases hword with rfl | rfl <;> rfl
  | rootWithin hdir =>
      obtain ⟨b, dir, rfl⟩ := List.exists_cons_of_ne_nil hdir
      rw [List.singleton_append, read.eq_def]
      rfl
  | command mode => cases hitem

theorem read_command (mode : Mode) (options : Options) (rest : List Bytes) :
    read options false (commandWord mode :: rest) = read { options with mode } true rest := by
  rw [read.eq_def]
  cases mode <;> rfl

/-- Behind an item that may stand there the reading is where the items so far bring it. -/
theorem read_written (hw : item.Written words) (hs : Sole (done ++ [item])) (rest : List Bytes) :
    read (asked done) (commanded done) (words ++ rest) =
      read (asked (done ++ [item])) (commanded (done ++ [item])) rest := by
  rw [asked_append hs]
  cases hitem : item.mode? with
  | none =>
      have same : commanded (done ++ [item]) = commanded done := by
        rw [commanded, modes_append_of_none hitem, commanded]
      rw [read_option hw hitem, same]
  | some mode =>
      cases hw with
      | command mode =>
          have before : commanded done = false :=
            commanded_eq_false_iff.mpr (sole_append_command.mp hs)
          have after : commanded (done ++ [.command mode]) = true :=
            commanded_eq_true_iff.mpr (by simp [modes, Item.mode?])
          rw [before, after]
          exact read_command mode (asked done) rest
      | _ => cases hitem

theorem read_reads (h : Reads items front) (hs : Sole (done ++ items)) (rest : List Bytes) :
    read (asked done) (commanded done) (front ++ rest) =
      read (asked (done ++ items)) (commanded (done ++ items)) rest := by
  induction h generalizing done with
  | nil => rw [List.append_nil, List.nil_append]
  | @cons item items words front hw _ ih =>
      have regroup : done ++ item :: items = (done ++ [item]) ++ items := by simp
      rw [regroup] at hs ⊢
      rw [List.append_assoc, read_written hw hs.of_append, ih hs]

theorem parse_reads (h : Reads items front) (hs : Sole items) (name : Bytes) (rest : List Bytes) :
    parse (name :: (front ++ rest)) = read (asked items) (commanded items) rest :=
  read_reads h (show Sole ([] ++ items) from hs) rest

theorem read_stuck (h : Stuck items rest fault) :
    read (asked items) (commanded items) rest = .error fault := by
  cases h with
  | cutShort hword =>
      simp only [rootWords, List.mem_cons, List.not_mem_nil, or_false] at hword
      rcases hword with rfl | rfl <;> rfl
  | noDirectory rest =>
      rw [read.eq_def]
      rfl
  | unknownOption rest hhead hword hstem => rw [read_word hword hstem, if_pos hhead]
  | unexpected rest hhead hmodes =>
      rw [read_word (mt head?_of_mem_optionWords hhead) (mt head?_of_stem hhead), if_neg hhead,
        if_pos (commanded_eq_true_iff.mpr hmodes)]
  | unknownCommand rest hhead hmodes hword =>
      rw [read_word (mt head?_of_mem_optionWords hhead) (mt head?_of_stem hhead), if_neg hhead,
        commanded_eq_false_iff.mpr hmodes, mode?_eq_none hword]
      rfl

/-! ## Going on and being stuck -/

theorem goesOn_or_stuck (hs : Sole done) (argument : Bytes) (rest : List Bytes) :
    (∃ item words back, argument :: rest = words ++ back ∧ item.Written words ∧
      Sole (done ++ [item])) ∨ ∃ fault, Stuck done (argument :: rest) fault := by
  by_cases hhead : argument.head? = some 45
  · by_cases hstem : rootStem <+: argument
    · obtain ⟨dir, rfl⟩ := hstem
      cases dir with
      | nil => exact .inr ⟨_, by simpa using Stuck.noDirectory rest⟩
      | cons b dir =>
          exact .inl ⟨_, _, rest, rfl, .rootWithin (by simp), hs.append_of_none rfl⟩
    by_cases hword : argument ∈ optionWords
    · simp only [optionWords, List.mem_append, List.mem_singleton] at hword
      rcases hword with ((hhelp | rfl) | hnotes) | hroot
      · exact .inl ⟨_, _, rest, rfl, .help hhelp, hs.append_of_none rfl⟩
      · exact .inl ⟨_, _, rest, rfl, .version, hs.append_of_none rfl⟩
      · exact .inl ⟨_, _, rest, rfl, .notes hnotes, hs.append_of_none rfl⟩
      · cases rest with
        | nil => exact .inr ⟨_, .cutShort hroot⟩
        | cons dir rest =>
            exact .inl ⟨_, _, rest, rfl, .rootBehind dir hroot, hs.append_of_none rfl⟩
    · exact .inr ⟨_, .unknownOption rest hhead hword hstem⟩
  · by_cases hmodes : modes done = []
    · by_cases hword : ∃ mode, argument = commandWord mode
      · obtain ⟨mode, rfl⟩ := hword
        exact .inl ⟨_, _, rest, rfl, .command mode, sole_append_command.mpr hmodes⟩
      · exact .inr ⟨_, .unknownCommand rest hhead hmodes (not_exists.mp hword)⟩
    · exact .inr ⟨_, .unexpected rest hhead hmodes⟩

/-- Items that are stuck at an option are stuck because it lacks its directory or is unknown. -/
theorem Stuck.of_option (h : Stuck done (argument :: rest) fault)
    (hhead : argument.head? = some 45) :
    (argument ∈ rootWords ∧ rest = []) ∨ argument = rootStem ∨
      (argument ∉ optionWords ∧ ¬ rootStem <+: argument) := by
  cases h with
  | cutShort hword => exact .inl ⟨hword, rfl⟩
  | noDirectory _ => exact .inr (.inl rfl)
  | unknownOption _ _ hword hstem => exact .inr (.inr ⟨hword, hstem⟩)
  | unexpected _ hother _ => exact absurd hhead hother
  | unknownCommand _ hother _ _ => exact absurd hhead hother

/-- Items that are stuck at another word are stuck at a second command or an unknown one. -/
theorem Stuck.of_word (h : Stuck done (argument :: rest) fault)
    (hhead : argument.head? ≠ some 45) :
    modes done ≠ [] ∨ ∀ mode, argument ≠ commandWord mode := by
  cases h with
  | cutShort hword => exact absurd (head?_of_mem_optionWords (List.mem_append_right _ hword)) hhead
  | noDirectory _ => exact absurd rfl hhead
  | unknownOption _ hoption _ _ => exact absurd hoption hhead
  | unexpected _ _ hmodes => exact .inl hmodes
  | unknownCommand _ _ _ hword => exact .inr hword

theorem not_stem_prefix_of_mem_optionWords (h : argument ∈ optionWords) :
    ¬ rootStem <+: argument := by
  revert argument
  decide

theorem not_stuck_of_switch (h : argument ∈ helpWords ++ [ascii "--version"] ++ notesWords) :
    ¬ Stuck done (argument :: rest) fault := by
  intro hstuck
  have hoption : argument ∈ optionWords := List.mem_append_left _ h
  have other : ∀ word ∈ helpWords ++ [ascii "--version"] ++ notesWords, word ∉ rootWords := by
    decide
  rcases hstuck.of_option (head?_of_mem_optionWords hoption) with ⟨hroot, -⟩ | rfl | ⟨hno, -⟩
  · exact other argument h hroot
  · exact not_stem_prefix_of_mem_optionWords hoption (List.prefix_refl _)
  · exact hno hoption

theorem Stuck.not_sole (h : Stuck done (words ++ rest) fault) (hw : item.Written words) :
    ¬ Sole (done ++ [item]) := by
  cases hw with
  | help hword => exact absurd h (not_stuck_of_switch (by simp [hword]))
  | version => exact absurd h (not_stuck_of_switch (by simp))
  | notes hword => exact absurd h (not_stuck_of_switch (by simp [hword]))
  | rootBehind dir hword =>
      have hoption : _ ∈ optionWords := List.mem_append_right _ hword
      rcases h.of_option (head?_of_mem_optionWords hoption) with ⟨-, hnil⟩ | rfl | ⟨hno, -⟩
      · cases hnil
      · exact absurd (List.prefix_refl _) (not_stem_prefix_of_mem_optionWords hoption)
      · exact absurd hoption hno
  | @rootWithin dir hdir =>
      have hstem : rootStem <+: rootStem ++ dir := List.prefix_append _ _
      rcases h.of_option (head?_of_stem hstem) with ⟨hroot, -⟩ | heq | ⟨-, hno⟩
      · exact absurd hstem (not_stem_prefix_of_mem_optionWords (List.mem_append_right _ hroot))
      · exact absurd (List.append_right_eq_self.mp heq) hdir
      · exact absurd hstem hno
  | command mode =>
      rw [sole_append_command]
      rcases h.of_word (head?_commandWord mode) with hmodes | hword
      · exact hmodes
      · exact absurd rfl (hword mode)

/-- Arguments are items, one behind the other, or they are as far as to where those are stuck. -/
theorem reads_or_stuck (arguments : List Bytes) (hs : Sole done) :
    (∃ items, Reads items arguments ∧ Sole (done ++ items)) ∨
      ∃ items front rest fault, arguments = front ++ rest ∧ Reads items front ∧
        Sole (done ++ items) ∧ Stuck (done ++ items) rest fault := by
  induction hlen : arguments.length using Nat.strongRecOn generalizing arguments done with
  | ind n ih =>
      cases arguments with
      | nil => exact .inl ⟨[], .nil, by rwa [List.append_nil]⟩
      | cons argument rest =>
          rcases goesOn_or_stuck hs argument rest with ⟨item, words, back, hcut, hw, hs'⟩ |
            ⟨fault, hstuck⟩
          · have shorter : back.length < n := by
              have hpos := hw.length_pos
              have := congrArg List.length hcut
              rw [List.length_append] at this
              omega
            rw [hcut]
            rcases ih back.length shorter back hs' rfl with ⟨items, hreads, hall⟩ |
              ⟨items, front, rest, fault, rfl, hreads, hall, hstuck⟩
            · exact .inl ⟨item :: items, .cons hw hreads, by simpa using hall⟩
            · exact .inr ⟨item :: items, words ++ front, rest, fault,
                (List.append_assoc _ _ _).symm, .cons hw hreads, by simpa using hall,
                by simpa using hstuck⟩
          · exact .inr ⟨[], [], argument :: rest, fault, rfl, .nil, by rwa [List.append_nil],
              by rwa [List.append_nil]⟩

/-! ## Command lines -/

section

variable {arguments : List Bytes} {name : Bytes} {answer : Except UsageFault Options}

/-- What is to be answered to arguments. -/
inductive Answers : List Bytes → Except UsageFault Options → Prop
  | accepted {arguments : List Bytes} {items : List Item} : Reads items arguments → Sole items →
      Complete items → Answers arguments (.ok (asked items))
  | incomplete {arguments : List Bytes} {items : List Item} : Reads items arguments → Sole items →
      ¬ Complete items → Answers arguments (.error .noCommand)
  | stuck {items : List Item} {front rest : List Bytes} {fault : UsageFault} : Reads items front →
      Sole items → Stuck items rest fault → Answers (front ++ rest) (.error fault)

theorem parse_of_reads (h : Reads items arguments) (hs : Sole items) :
    parse (name :: arguments) = read (asked items) (commanded items) [] := by
  simpa using parse_reads h hs name []

/-- What is to be answered to arguments is what is answered. -/
theorem Answers.eq (h : Answers arguments answer) : parse (name :: arguments) = answer := by
  cases h with
  | accepted hreads hs hc => rw [parse_of_reads hreads hs, read, if_pos (complete_iff.mpr hc)]
  | incomplete hreads hs hc => rw [parse_of_reads hreads hs, read, if_neg (mt complete_iff.mp hc)]
  | stuck hreads hs hstuck => rw [parse_reads hreads hs, read_stuck hstuck]

/-- What is answered to arguments is to be answered to them. -/
theorem answers_parse (name : Bytes) (arguments : List Bytes) :
    Answers arguments (parse (name :: arguments)) := by
  rcases reads_or_stuck arguments (show Sole [] from Nat.zero_le 1) with ⟨items, hreads, hs⟩ |
    ⟨items, front, rest, fault, rfl, hreads, hs, hstuck⟩
  · by_cases hc : Complete items
    · have hanswer : Answers arguments (.ok (asked items)) := .accepted hreads hs hc
      rwa [hanswer.eq]
    · have hanswer : Answers arguments (.error .noCommand) := .incomplete hreads hs hc
      rwa [hanswer.eq]
  · have hanswer : Answers (front ++ rest) (.error fault) := .stuck hreads hs hstuck
    rwa [hanswer.eq]

theorem parse_eq_iff : parse (name :: arguments) = answer ↔ Answers arguments answer :=
  ⟨fun h => h ▸ answers_parse name arguments, Answers.eq⟩

/-- The blame is put on an argument whatever is behind it, unless it is an option that lacks its
directory: that is the last one. -/
theorem Stuck.any_rest (h : Stuck items (argument :: rest) fault) {rest' : List Bytes}
    (hlast : argument ∈ rootWords → rest' = rest) : Stuck items (argument :: rest') fault := by
  cases h with
  | cutShort hword => rw [hlast hword]; exact .cutShort hword
  | noDirectory _ => exact .noDirectory rest'
  | unknownOption _ hhead hword hstem => exact .unknownOption rest' hhead hword hstem
  | unexpected _ hhead hmodes => exact .unexpected rest' hhead hmodes
  | unknownCommand _ hhead hmodes hword => exact .unknownCommand rest' hhead hmodes hword

/-- Items are stuck where something is left and no item can be taken that may stand there. -/
theorem exists_stuck_iff (hs : Sole items) :
    (∃ fault, Stuck items rest fault) ↔
      rest ≠ [] ∧ ∀ item words back, rest = words ++ back → item.Written words →
        ¬ Sole (items ++ [item]) := by
  constructor
  · rintro ⟨fault, hstuck⟩
    refine ⟨?_, fun item words back hcut hw => ?_⟩
    · rintro rfl
      cases hstuck
    · rw [hcut] at hstuck
      exact hstuck.not_sole hw
  · rintro ⟨hne, hnone⟩
    obtain ⟨argument, rest, rfl⟩ := List.exists_cons_of_ne_nil hne
    rcases goesOn_or_stuck hs argument rest with ⟨item, words, back, hcut, hw, hs'⟩ | hstuck
    · exact absurd hs' (hnone item words back hcut hw)
    · exact hstuck

end

end

/-- Arguments are accepted exactly if they are items, at most one of them a command and one of them
a command or a request for help or for the version, and then they ask for what the items ask for.
Otherwise they are items that say nothing of what is to be done, or reading them from the left comes
to where the items so far do not go on: something is left, but no item that may stand there.  What
is said then does not depend on what is behind the argument that is blamed, where an option that
lacks its directory has nothing behind it. -/
theorem parse_by_items (name : Bytes) (arguments : List Bytes) :
    (∀ options, parse (name :: arguments) = .ok options ↔
      ∃ items, Reads items arguments ∧ Sole items ∧ Complete items ∧ options = asked items) ∧
    (∀ fault, parse (name :: arguments) = .error fault ↔
      (fault = .noCommand ∧ ∃ items, Reads items arguments ∧ Sole items ∧ ¬ Complete items) ∨
      ∃ items front rest, arguments = front ++ rest ∧ Reads items front ∧ Sole items ∧
        Stuck items rest fault) ∧
    (∀ items rest, Sole items →
      ((∃ fault, Stuck items rest fault) ↔
        rest ≠ [] ∧ ∀ item words back, rest = words ++ back → item.Written words →
          ¬ Sole (items ++ [item]))) ∧
    (∀ items front argument rest fault, Reads items front → Sole items →
      Stuck items (argument :: rest) fault → ∀ rest', (argument ∈ rootWords → rest' = rest) →
        parse (name :: (front ++ argument :: rest')) = .error fault) := by
  refine ⟨fun options => ?_, fun fault => ?_, fun items rest hs => exists_stuck_iff hs, ?_⟩
  · rw [parse_eq_iff]
    constructor
    · rintro (⟨hreads, hs, hc⟩ | - | -)
      exact ⟨_, hreads, hs, hc, rfl⟩
    · rintro ⟨items, hreads, hs, hc, rfl⟩
      exact .accepted hreads hs hc
  · rw [parse_eq_iff]
    constructor
    · rintro (- | ⟨hreads, hs, hc⟩ | ⟨hreads, hs, hstuck⟩)
      · exact .inl ⟨rfl, _, hreads, hs, hc⟩
      · exact .inr ⟨_, _, _, rfl, hreads, hs, hstuck⟩
    · rintro (⟨rfl, items, hreads, hs, hc⟩ | ⟨items, front, rest, rfl, hreads, hs, hstuck⟩)
      · exact .incomplete hreads hs hc
      · exact .stuck hreads hs hstuck
  · intro items front argument rest fault hreads hs hstuck rest' hlast
    exact (Answers.stuck hreads hs (hstuck.any_rest hlast)).eq

/-- A request for help behind `-C` is a directory.  The second command is one too many, whatever
comes behind it. -/
theorem parse_by_items_sample :
    let items := [Item.root (ascii "--help"), .command .build]
    let front := [ascii "-C", ascii "--help", ascii "build"]
    let fault := UsageFault.unexpectedArgument (ascii "check")
    Reads items front ∧ Sole items ∧ Stuck items [ascii "check"] fault ∧
      (∀ item words back, [ascii "check"] = words ++ back → item.Written words →
        ¬ Sole (items ++ [item])) ∧
      ∀ rest, parse (ascii "screeps-build" :: (front ++ ascii "check" :: rest)) = .error fault := by
  intro items front fault
  have hreads : Reads items front :=
    .cons (.rootBehind (ascii "--help") List.mem_cons_self) (.cons (.command .build) .nil)
  have hs : Sole items := Nat.le_refl 1
  have hstuck : Stuck items [ascii "check"] fault := .unexpected [] (by decide) (by decide)
  obtain ⟨-, -, stuck, blamed⟩ := parse_by_items (ascii "screeps-build") (front ++ [ascii "check"])
  exact ⟨hreads, hs, hstuck, ((stuck items _ hs).mp ⟨fault, hstuck⟩).2,
    fun rest => blamed items front _ [] fault hreads hs hstuck rest
      fun hroot => absurd hroot (by decide)⟩

/-- Of several directories the last one counts, in whichever way it is given. -/
example : parse [ascii "screeps-build", ascii "-C", ascii "-v", ascii "--root=a", ascii "check"] =
    .ok ⟨.check, ascii "a", false, false, false⟩ :=
  rfl

end WasmPackager.CommandLine
