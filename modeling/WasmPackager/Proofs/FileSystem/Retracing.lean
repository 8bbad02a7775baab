/-
# `Proofs.FileSystem.Retracing` — a directory and the path it has

Going up from a directory to the root passes the names of one location
(`Lies`), and going down along these leads back to it, with no link and no dot
on the way.  Down such a way a walk can only be stopped by a directory that
does not grant a look-up (`walk_straight`), so the path of a location leads to
what lies there or nowhere (`Host.locate_ofLocation_iff`).

The path without links is found by a walk that asks more of the directories it
passes.  What such a walk finds, one that asks less finds too
(`walkLinks_milder`); hence a path without links is that of the directory the
given path leads to (`Host.of_canonical`), and it is its own path without links
(`Host.canonical_ofLocation`).
-/
import WasmPackager.Proofs.FileSystem.Lookup

namespace WasmPackager

namespace FileSystem

open WasmPackager.Path

variable {fs : FileSystem} {n : InodeNumber}

/-! ## The way up -/

/-- The location of a directory: that of the directory it says it lies in, and the name it has
there. -/
inductive Lies (fs : FileSystem) : InodeNumber → Location → Prop
  | root : Lies fs root []
  | child {n parent : InodeNumber} {entries : List (Name × InodeNumber)} {name : Name}
      {front : Location} : n ≠ FileSystem.root → fs.node? n = some (.dir parent entries false) →
      (fs.entries parent).find? (·.2 == n) = some (name, n) → Lies fs parent front →
      Lies fs n (front ++ [name])

theorem of_ascend {fuel : Nat} {below names : Location} (h : fs.ascend fuel n below = some names) :
    ∃ loc, fs.Lies n loc ∧ loc.length < fuel ∧ names = loc ++ below := by
  induction fuel generalizing n below with
  | zero => cases h
  | succ fuel ih =>
      rw [ascend] at h
      split at h
      · next hroot =>
        cases h
        exact ⟨[], hroot ▸ .root, Nat.succ_pos fuel, rfl⟩
      · next hroot =>
        split at h
        · next parent entries hnode =>
          split at h
          · next name m hfind =>
            obtain rfl : m = n := by simpa using List.find?_some hfind
            obtain ⟨front, hlies, hlength, rfl⟩ := ih h
            exact ⟨front ++ [name], .child hroot hnode hfind hlies, by simp; omega, by simp⟩
          · cases h
        · cases h

theorem Lies.ascend {loc : Location} (h : fs.Lies n loc) {fuel : Nat} (hfuel : loc.length < fuel)
    (below : Location) : fs.ascend fuel n below = some (loc ++ below) := by
  induction h generalizing fuel below with
  | root =>
      obtain ⟨fuel, rfl⟩ := Nat.exists_eq_add_one_of_ne_zero (Nat.ne_of_gt hfuel)
      rw [FileSystem.ascend, if_pos rfl]
      rfl
  | @child n parent entries name front hroot hnode hfind _ ih =>
      rw [List.length_append, List.length_singleton] at hfuel
      obtain ⟨fuel, rfl⟩ :=
        Nat.exists_eq_add_one_of_ne_zero (Nat.ne_of_gt (Nat.zero_lt_of_lt hfuel))
      rw [FileSystem.ascend, if_neg hroot, hnode]
      simp only [hfind]
      rw [ih (by omega)]
      simp

/-- A directory has a path if it lies somewhere; no way down is longer than there are inodes. -/
theorem namesOf_eq_some_iff {loc : Location} :
    fs.namesOf n = some loc ↔ fs.Lies n loc ∧ loc.length ≤ fs.inodes.size := by
  rw [namesOf]
  constructor
  · intro h
    obtain ⟨loc', hlies, hlength, hloc⟩ := of_ascend h
    obtain rfl : loc = loc' := by simpa using hloc
    exact ⟨hlies, Nat.lt_succ_iff.mp hlength⟩
  · rintro ⟨hlies, hlength⟩
    simpa using hlies.ascend (Nat.lt_succ_of_le hlength) []

theorem Lies.above {loc : Location} (h : fs.Lies n loc) {front back : Location}
    (hloc : loc = front ++ back) : ∃ d, fs.Lies d front := by
  induction h generalizing back with
  | root =>
      obtain ⟨rfl, -⟩ := List.append_eq_nil_iff.mp hloc.symm
      exact ⟨_, .root⟩
  | @child n parent entries name above hroot hnode hfind hlies ih =>
      rcases List.eq_nil_or_concat back with rfl | ⟨back, last, rfl⟩
      · rw [List.append_nil] at hloc
        exact ⟨n, hloc ▸ .child hroot hnode hfind hlies⟩
      · rw [List.concat_eq_append, ← List.append_assoc] at hloc
        exact ih (List.append_inj_left' hloc rfl)

section IsTree

variable {loc : Location} (htree : fs.IsTree)

include htree

theorem Lies.isDirectory (h : fs.Lies n loc) : fs.IsDirectory n := by
  cases h with
  | root => exact htree.rooted
  | child _ hnode _ _ => exact ⟨_, _, _, hnode⟩

/-- Going down leads back to the directory the way up began in. -/
theorem Lies.at? (h : fs.Lies n loc) : fs.at? loc = some n := by
  induction h with
  | root => rfl
  | @child n parent entries name front _ _ hfind _ ih =>
      have hchild : fs.child? parent name = some n :=
        lookup_of_mem (htree.distinct parent) (List.mem_of_find?_eq_some hfind)
      have habove : fs.descend FileSystem.root front = some parent := ih
      rw [FileSystem.at?, descend_concat, habove]
      exact hchild

theorem Lies.named (h : fs.Lies n loc) : ∀ name ∈ loc, IsName name := by
  induction h with
  | root => exact fun _ hmem => absurd hmem List.not_mem_nil
  | @child n parent entries last front _ _ hfind _ ih =>
      intro name hmem
      rcases List.mem_append.mp hmem with hmem | hmem
      · exact ih name hmem
      · rw [List.mem_singleton.mp hmem]
        exact htree.named parent _ (List.mem_of_find?_eq_some hfind)

end IsTree

/-! ## Straight ways down -/

section Walk

variable {pass pass' : InodeNumber → Except SystemError Unit} {here m : InodeNumber} {name : Name}
  {names : Location} {asDirectory asDirectory' : Bool}

/-- Every directory in which one of the names is looked up grants that. -/
def Grants (fs : FileSystem) (pass : InodeNumber → Except SystemError Unit) (here : InodeNumber)
    (names : Location) : Prop :=
  ∀ front name back d, names = front ++ name :: back → fs.descend here front = some d →
    pass d = .ok ()

theorem Grants.front {front back : Location} (h : fs.Grants pass here (front ++ back)) :
    fs.Grants pass here front := by
  rintro first name rest d rfl hd
  exact h first name (rest ++ back) d (by simp) hd

theorem grants_cons (hchild : fs.child? here name = some m) :
    fs.Grants pass here (name :: names) ↔ pass here = .ok () ∧ fs.Grants pass m names := by
  constructor
  · intro h
    refine ⟨h [] name names here rfl rfl, ?_⟩
    rintro front other back d rfl hd
    refine h (name :: front) other back d rfl ?_
    rw [descend, hchild]
    exact hd
  · rintro ⟨hhere, h⟩ front other back d heq hd
    cases front with
    | nil =>
        obtain rfl : here = d := Option.some.inj hd
        exact hhere
    | cons first front =>
        obtain ⟨rfl, rfl⟩ := List.cons.inj heq
        rw [descend, hchild] at hd
        exact h front other back d rfl hd

theorem isDirectory_of_descend (hn : fs.descend here names = some n) (hdir : fs.IsDirectory n) :
    fs.IsDirectory here := by
  cases names with
  | nil =>
      obtain rfl : here = n := Option.some.inj hn
      exact hdir
  | cons name rest =>
      obtain ⟨m, hchild, -⟩ := Option.bind_eq_some_iff.mp hn
      exact isDirectory_of_child? hchild

/-- A walk down to a directory, with nothing but names to follow, ends there if it is granted all
look-ups, and fails otherwise. -/
theorem walk_straight {follow : Bool}
    {onLink : InodeNumber → Bytes → List Name → Bool → Except SystemError Place}
    (hnames : ∀ name ∈ names, IsName name) (hn : fs.descend here names = some n)
    (hdir : fs.IsDirectory n) {place : Place} :
    walk fs pass follow onLink asDirectory here names = .ok place ↔
      fs.Grants pass here names ∧ place = .existing n := by
  induction names generalizing here with
  | nil =>
      obtain rfl : here = n := Option.some.inj hn
      obtain ⟨parent, entries, removed, hnode⟩ := hdir
      have granted : fs.Grants pass here [] := fun front name back d heq => by simp at heq
      rw [walk, hnode]
      simp [granted, Node.isDirectory, eq_comm]
  | cons name rest ih =>
      obtain ⟨hname, hrest⟩ := List.forall_mem_cons.mp hnames
      obtain ⟨m, hchild, hm⟩ := Option.bind_eq_some_iff.mp hn
      obtain ⟨parent, entries, removed, hnode⟩ := isDirectory_of_child? hchild
      obtain ⟨parent', entries', removed', hnode'⟩ := isDirectory_of_descend hm hdir
      have hlookup : entries.lookup name = some m := (child?_of_node hnode name).symm.trans hchild
      rw [grants_cons hchild, walk, hnode]
      simp only
      cases hpass : pass here with
      | error cause => simp
      | ok _ =>
          simp only
          rw [if_neg (by simpa using hname.notDot), if_neg (by simpa using hname.notDotDot),
            if_neg (Nat.not_lt.mpr hname.short), hlookup]
          simp only [hnode', true_and]
          exact ih hrest hm

/-! ## Asking less -/

/-- Where one walk ends, another ends that asks no more of the directories it passes, insists on a
directory no more, and does so behind links.  The induction is on the names. -/
theorem walk_milder
    {onLink onLink' : InodeNumber → Bytes → List Name → Bool → Except SystemError Place}
    (hpass : ∀ d, pass d = .ok () → pass' d = .ok ())
    (hdir : asDirectory' = true → asDirectory = true)
    (jumps : ∀ {dir target rest}, onLink dir target rest asDirectory = .ok (.existing n) →
      onLink' dir target rest asDirectory' = .ok (.existing n))
    (hwalk : walk fs pass true onLink asDirectory here names = .ok (.existing n)) :
    walk fs pass' true onLink' asDirectory' here names = .ok (.existing n) := by
  induction names generalizing here with
  | nil =>
      rw [walk] at hwalk ⊢
      cases hnode : fs.node? here with
      | none => simp [hnode] at hwalk
      | some node =>
          simp only [hnode] at hwalk ⊢
          split at hwalk
          · cases hwalk
          · next hfits =>
            have : ¬ (asDirectory' && !node.isDirectory) = true := by
              simp only [Bool.and_eq_true, not_and] at hfits ⊢
              exact fun h => hfits (hdir h)
            rw [if_neg this]
            exact hwalk
  | cons name rest ih =>
      rw [walk] at hwalk ⊢
      split at hwalk
      · cases hwalk
      · next parent entries removed hnode =>
        split at hwalk
        · cases hwalk
        next hok =>
        simp only [hpass here hok]
        split at hwalk
        · next hdot =>
          rw [if_pos hdot]
          exact ih hwalk
        next hdot =>
        rw [if_neg hdot]
        split at hwalk
        · next hdotDot =>
          rw [if_pos hdotDot]
          exact ih hwalk
        next hdotDot =>
        rw [if_neg hdotDot]
        split at hwalk
        · cases hwalk
        next hshort =>
        rw [if_neg hshort]
        split at hwalk
        · split at hwalk <;> cases hwalk
        next m hlookup =>
        split at hwalk
        · simp only [Bool.not_true, Bool.and_false, Bool.false_and, Bool.false_eq_true,
            if_false] at hwalk ⊢
          exact jumps hwalk
        · exact ih hwalk
      · cases hwalk

/-- The induction is on the links that may be passed. -/
theorem walkLinks_milder {links : Nat} (hpass : ∀ d, pass d = .ok () → pass' d = .ok ())
    (hdir : asDirectory' = true → asDirectory = true)
    (hwalk : walkLinks fs pass true links asDirectory here names = .ok (.existing n)) :
    walkLinks fs pass' true links asDirectory' here names = .ok (.existing n) := by
  rw [walkLinks_eq_walk] at hwalk ⊢
  induction links generalizing asDirectory asDirectory' here names with
  | zero => exact walk_milder hpass hdir (fun hjump => by simp [jump] at hjump) hwalk
  | succ links ih =>
      refine walk_milder hpass hdir (fun {dir target rest} hjump => ?_) hwalk
      rw [jump, walkLinks_eq_walk] at hjump ⊢
      refine ih (fun hinsists => ?_) hjump
      rcases Bool.or_eq_true_iff.mp hinsists with h | h
      · rw [hdir h, Bool.true_or]
      · rw [h, Bool.or_true]

end Walk

end FileSystem

/-! ## The path of a location -/

namespace Path

variable {loc : Location}

theorem zeroFree_ofLocation (hnames : ∀ name ∈ loc, IsName name) : 0 ∉ ofLocation loc := by
  intro hmem
  rcases mem_ofNames hmem with heq | ⟨name, hname, hmem⟩
  · exact absurd heq (by decide)
  · exact (hnames name hname).noZero hmem

theorem names_ofLocation (hnames : ∀ name ∈ loc, IsName name) : names (ofLocation loc) = loc :=
  names_ofNames true fun name hname => ⟨(hnames name hname).nonempty, (hnames name hname).noSlash⟩

theorem isAbsolute_ofLocation (loc : Location) : isAbsolute (ofLocation loc) = true := rfl

theorem length_ofLocation_le (front back : Location) :
    (ofLocation front).length ≤ (ofLocation (front ++ back)).length := by
  cases back with
  | nil => exact Nat.le_of_eq (by rw [List.append_nil])
  | cons name back =>
      by_cases hfront : front = []
      · rw [hfront]
        exact Nat.succ_le_succ (Nat.zero_le _)
      · rw [ofLocation, ofLocation, ofNames_append true hfront, List.length_append]
        exact Nat.le_add_right _ _

end Path

namespace Host

open FileSystem WasmPackager.Path

variable {h : Host} {n m : InodeNumber} {loc : Location} {path : Bytes}

theorem readable_ofLocation (hnames : ∀ name ∈ loc, IsName name) :
    readable (ofLocation loc) = ofLocation loc :=
  readable_of_not_mem (zeroFree_ofLocation hnames)

theorem checked_ofLocation (hnames : ∀ name ∈ loc, IsName name) :
    checked (ofLocation loc) =
      if pathLimit ≤ (ofLocation loc).length then .error .nameTooLong
      else .ok (ofLocation loc) := by
  rw [checked, readable_ofLocation hnames]
  rfl

theorem isDirectory_eq_true_iff :
    h.isDirectory path = true ↔ ∃ n, h.locate path true = .ok n ∧ h.files.IsDirectory n := by
  constructor
  · intro hdir
    rw [isDirectory] at hdir
    split at hdir
    · next i hstat =>
      obtain ⟨n, hn, hi⟩ := of_stat hstat
      refine ⟨n, hn, FileSystem.isDirectory_iff.mpr ?_⟩
      rw [node?_of_inode? hi]
      exact hdir
    · cases hdir
  · rintro ⟨n, hn, parent, entries, removed, hnode⟩
    obtain ⟨i, hi, hinode⟩ := Option.map_eq_some_iff.mp hnode
    rw [isDirectory_of_stat (stat_of_locate hn hi), hinode]
    rfl

theorem currentPath_eq_ok_iff :
    h.currentPath = .ok path ↔ ∃ loc, h.files.namesOf h.cwd = some loc ∧ path = ofLocation loc := by
  rw [currentPath]
  cases h.files.namesOf h.cwd with
  | none => simp
  | some loc => simp [ofLocation, eq_comm]

/-- The path of the location of a directory leads there, unless it is too long or a directory on
the way may not be passed. -/
theorem locate_ofLocation_iff (hnames : ∀ name ∈ loc, IsName name)
    (hat : h.files.at? loc = some n) (hdir : h.files.IsDirectory n) :
    h.locate (ofLocation loc) true = .ok m ↔
      (ofLocation loc).length < pathLimit ∧ h.files.Grants h.files.mayPass root loc ∧ m = n := by
  have located : h.locate (ofLocation loc) true = .ok m ↔
      h.resolve (ofLocation loc) true = .ok (.existing m) := ⟨of_locate, locate_of_resolve⟩
  rw [located, resolve, checked_ofLocation hnames]
  by_cases hlong : pathLimit ≤ (ofLocation loc).length
  · simp [if_pos hlong, Nat.not_lt.mpr hlong]
  · rw [if_neg hlong]
    simp only [origin, isAbsolute_ofLocation, if_true, names_ofLocation hnames, walkLinks_eq_walk]
    rw [walk_straight hnames hat hdir, Place.existing.injEq]
    exact ⟨fun hwalk => ⟨Nat.lt_of_not_le hlong, hwalk⟩, fun hwalk => hwalk.2⟩

/-! ## Paths without links -/

/-- A path has one without links if it leads to a directory that is found again, by look-ups in
directories that are. -/
theorem canonical_eq_ok_iff {found : Bytes} :
    h.canonical path = .ok found ↔
      (isAbsolute path = false → ∃ here, h.retraced h.cwd = .ok here) ∧
      ∃ n, h.files.walkLinks h.mayLookUp true linkLimit true (h.origin (readable path))
          (names (readable path)) = .ok (.existing n) ∧ h.retraced n = .ok found := by
  have behind : ∀ walked : Except SystemError Place,
      (walked >>= fun place => place.inode >>= h.retraced) = .ok found ↔
        ∃ n, walked = .ok (.existing n) ∧ h.retraced n = .ok found := by
    rintro (cause | ⟨n⟩ | ⟨d, name, asDirectory⟩) <;> simp [bind, Except.bind, Place.inode]
  rw [canonical, ← behind]
  cases isAbsolute path with
  | true => simp
  | false =>
      cases h.retraced h.cwd with
      | error cause => simp [bind, Except.bind]
      | ok here => simp [bind, Except.bind]

theorem mayPass_of_mayLookUp (hn : h.mayLookUp n = .ok ()) : h.files.mayPass n = .ok () := by
  rw [mayLookUp] at hn
  cases hretraced : h.retraced n with
  | error cause => simp [hretraced, bind, Except.bind] at hn
  | ok _ => simpa [hretraced, bind, Except.bind] using hn

section IsTree

variable (htree : h.files.IsTree)

include htree

theorem retraced_eq_ok_iff :
    h.retraced n = .ok path ↔ ∃ loc, h.files.namesOf n = some loc ∧ path = ofLocation loc ∧
      h.locate path true = .ok n := by
  rw [retraced]
  cases hloc : h.files.namesOf n with
  | none => simp
  | some loc =>
      have hlies : h.files.Lies n loc := (namesOf_eq_some_iff.mp hloc).1
      have hpath : ofNames true loc = ofLocation loc := rfl
      simp only [Option.some.injEq, exists_eq_left', hpath]
      cases hm : h.locate (ofLocation loc) true with
      | error cause =>
          simp only [Except.map, reduceCtorEq, false_iff]
          rintro ⟨rfl, hn⟩
          cases hm.symm.trans hn
      | ok m =>
          obtain ⟨-, -, rfl⟩ := (locate_ofLocation_iff (hlies.named htree) (hlies.at? htree)
            (hlies.isDirectory htree)).mp hm
          simp only [Except.map, Except.ok.injEq]
          constructor
          · rintro rfl
            exact ⟨rfl, hm⟩
          · exact fun hpath => hpath.1.symm

theorem grants_mayLookUp (hloc : h.files.namesOf n = some loc)
    (hn : h.locate (ofLocation loc) true = .ok n) : h.files.Grants h.mayLookUp root loc := by
  obtain ⟨hlies, hlength⟩ := namesOf_eq_some_iff.mp hloc
  obtain ⟨hshort, hgrants, -⟩ := (locate_ofLocation_iff (hlies.named htree) (hlies.at? htree)
    (hlies.isDirectory htree)).mp hn
  rintro front name back d rfl hd
  -- what is above lies where the names in front lead, so it is found by them
  obtain ⟨d', habove⟩ := hlies.above rfl
  obtain rfl : d' = d := Option.some.inj ((habove.at? htree).symm.trans hd)
  have hnamesOf : h.files.namesOf d' = some front := by
    refine namesOf_eq_some_iff.mpr ⟨habove, Nat.le_trans ?_ hlength⟩
    rw [List.length_append]
    exact Nat.le_add_right _ _
  have hfound : h.locate (ofLocation front) true = .ok d' :=
    (locate_ofLocation_iff (habove.named htree) hd (habove.isDirectory htree)).mpr
      ⟨Nat.lt_of_le_of_lt (length_ofLocation_le front _) hshort, hgrants.front, rfl⟩
  rw [mayLookUp, (retraced_eq_ok_iff htree).mpr ⟨front, hnamesOf, rfl, hfound⟩]
  exact hgrants front name back d' rfl hd

/-- The path without links is that of the directory the path leads to, which is found under it. -/
theorem of_canonical {found : Bytes} (hfound : h.canonical path = .ok found)
    (hn : h.locate path true = .ok n) :
    ∃ loc, h.files.namesOf n = some loc ∧ found = ofLocation loc ∧
      h.locate found true = .ok n := by
  obtain ⟨-, m, hwalk, hm⟩ := canonical_eq_ok_iff.mp hfound
  have hplace := of_locate hn
  rw [resolve, checked] at hplace
  split at hplace
  · cases hplace
  · next path' hchecked =>
    obtain rfl : readable path = path' := by
      split at hchecked
      · cases hchecked
      · split at hchecked
        · cases hchecked
        · exact Except.ok.inj hchecked
    have same : h.files.walkLinks h.files.mayPass true linkLimit (hasTrailingSlash (readable path))
        (h.origin (readable path)) (names (readable path)) = .ok (.existing m) :=
      walkLinks_milder (fun _ => mayPass_of_mayLookUp) (fun _ => rfl) hwalk
    obtain rfl : m = n := by simpa using same.symm.trans hplace
    exact (retraced_eq_ok_iff htree).mp hm

theorem canonical_ofLocation (hloc : h.files.namesOf n = some loc)
    (hn : h.locate (ofLocation loc) true = .ok n) :
    h.canonical (ofLocation loc) = .ok (ofLocation loc) := by
  have hlies : h.files.Lies n loc := (namesOf_eq_some_iff.mp hloc).1
  have hnames := hlies.named htree
  have hwalk : h.files.walkLinks h.mayLookUp true linkLimit true root loc = .ok (.existing n) := by
    rw [walkLinks_eq_walk, walk_straight hnames (hlies.at? htree) (hlies.isDirectory htree)]
    exact ⟨grants_mayLookUp htree hloc hn, rfl⟩
  refine canonical_eq_ok_iff.mpr ⟨fun hrelative => ?_, n, ?_,
    (retraced_eq_ok_iff htree).mpr ⟨loc, hloc, rfl, hn⟩⟩
  · cases (isAbsolute_ofLocation loc).symm.trans hrelative
  · rw [readable_ofLocation hnames, names_ofLocation hnames]
    exact hwalk

theorem locate_of_canonical_ofLocation {found : Bytes} (hloc : h.files.namesOf n = some loc)
    (hfound : h.canonical (ofLocation loc) = .ok found) :
    h.locate (ofLocation loc) true = .ok n := by
  have hlies : h.files.Lies n loc := (namesOf_eq_some_iff.mp hloc).1
  have hnames := hlies.named htree
  obtain ⟨-, m, hwalk, hm⟩ := canonical_eq_ok_iff.mp hfound
  rw [readable_ofLocation hnames, names_ofLocation hnames, walkLinks_eq_walk] at hwalk
  obtain ⟨-, hplace⟩ :=
    (walk_straight hnames (hlies.at? htree) (hlies.isDirectory htree)).mp hwalk
  obtain rfl : m = n := Place.existing.inj hplace
  obtain ⟨loc', hloc', rfl, hlocate⟩ := (retraced_eq_ok_iff htree).mp hm
  obtain rfl : loc' = loc := Option.some.inj (hloc'.symm.trans hloc)
  exact hlocate

end IsTree

end Host
end WasmPackager
