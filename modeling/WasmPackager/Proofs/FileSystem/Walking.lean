/-
# `Proofs.FileSystem.Walking` — following a path is following its parts

A path is followed name by name, but a link in the middle changes what is left
to follow, and how many links may still be passed.  All the same a walk can be
cut at any name (`walkLinks_splits`): the names in front either lead to a
directory, and then the walk goes on from there with some number of links
left, or the whole walk fails, whatever the names behind are.

`Host.Reaches h path d` says that the names of a path lead to the directory
`d`; the empty path leads to where paths begin.  For a path with a name joined
to it, everything the system does comes down to one look-up in that directory:
`reaches_join`, `resolve_join`, `slot_join`.
-/
import WasmPackager.FileSystem.Operations
import WasmPackager.Proofs.FileSystem.Paths

namespace WasmPackager

namespace FileSystem

def IsDirectory (fs : FileSystem) (n : InodeNumber) : Prop :=
  ∃ parent entries removed, fs.node? n = some (.dir parent entries removed)

def IsLink (fs : FileSystem) (n : InodeNumber) : Prop := ∃ target, fs.node? n = some (.link target)

def IsFile (fs : FileSystem) (n : InodeNumber) (contents : Contents) : Prop :=
  fs.node? n = some (.file contents)

/-! ## Cutting a walk -/

section Walk

variable {fs : FileSystem} {pass : InodeNumber → Except SystemError Unit}

/-- What takes over at a link if this many links may still be passed. -/
def jump (fs : FileSystem) (pass : InodeNumber → Except SystemError Unit) (follow : Bool) :
    (links : Nat) → InodeNumber → Bytes → List Name → Bool → Except SystemError Place
  | 0, _, _, _, _ => .error .linkLoop
  | links + 1, dir, target, rest, asDirectory =>
    walkLinks fs pass follow links (asDirectory || (rest.isEmpty && Path.hasTrailingSlash target))
      (if Path.isAbsolute target then root else dir) (Path.names target ++ rest)

theorem walkLinks_eq_walk (follow : Bool) (links : Nat) (asDirectory : Bool) (here : InodeNumber)
    (names : List Name) :
    walkLinks fs pass follow links asDirectory here names =
      walk fs pass follow (jump fs pass follow links) asDirectory here names := by
  cases links <;> rfl

/-- A walk is cut in two: the first part, which insists on a directory, leads to one from which
the whole goes on, or the whole fails. -/
def Splits (fs : FileSystem) (pass : InodeNumber → Except SystemError Unit)
    (first : Except SystemError Place)
    (whole : (follow asDirectory : Bool) → List Name → Except SystemError Place) : Prop :=
  (∃ d links, first = .ok (.existing d) ∧ fs.IsDirectory d ∧ ∀ follow asDirectory back,
      back ≠ [] →
        whole follow asDirectory back = walkLinks fs pass follow links asDirectory d back) ∨
    ((∀ d, first ≠ .ok (.existing d)) ∧
      ∀ follow asDirectory back, back ≠ [] → ∃ cause, whole follow asDirectory back = .error cause)

theorem splits_of_error {cause : SystemError}
    {whole : (follow asDirectory : Bool) → List Name → Except SystemError Place}
    (h : ∀ follow asDirectory back, back ≠ [] → whole follow asDirectory back = .error cause) :
    Splits fs pass (.error cause) whole :=
  .inr ⟨nofun, fun follow asDirectory back hne => ⟨cause, h follow asDirectory back hne⟩⟩

/-- A walk can be cut if it can be cut behind every link it passes.  The induction is on the names
in front of the cut. -/
theorem walk_splits {links : Nat}
    (jumps : ∀ dir target rest, Splits fs pass (jump fs pass true links dir target rest true)
      fun follow asDirectory back =>
        jump fs pass follow links dir target (rest ++ back) asDirectory)
    (here : InodeNumber) (front : List Name) :
    Splits fs pass (walk fs pass true (jump fs pass true links) true here front)
      fun follow asDirectory back =>
        walk fs pass follow (jump fs pass follow links) asDirectory here (front ++ back) := by
  induction front generalizing here with
  | nil =>
      rw [walk]
      cases hnode : fs.node? here with
      | none =>
          refine splits_of_error fun follow asDirectory back hne => ?_
          obtain ⟨name, rest, rfl⟩ := List.exists_cons_of_ne_nil hne
          rw [List.nil_append, walk, hnode]
      | some node =>
          cases node with
          | dir parent entries removed =>
              refine .inl ⟨here, links, rfl, ⟨parent, entries, removed, hnode⟩, ?_⟩
              intro follow asDirectory back _
              rw [walkLinks_eq_walk]
              rfl
          | file _ | link _ | device _ | fifo _ =>
              refine splits_of_error fun follow asDirectory back hne => ?_
              obtain ⟨name, rest, rfl⟩ := List.exists_cons_of_ne_nil hne
              rw [List.nil_append, walk, hnode]
  | cons name rest ih =>
      simp only [List.cons_append, walk]
      cases hnode : fs.node? here with
      | none => exact splits_of_error fun _ _ _ _ => rfl
      | some node =>
          cases node with
          | file _ | link _ | device _ | fifo _ => exact splits_of_error fun _ _ _ _ => rfl
          | dir parent entries removed =>
              simp only
              cases pass here with
              | error cause => exact splits_of_error fun _ _ _ _ => rfl
              | ok _ =>
                  by_cases hdot : (name == Path.dot) = true
                  · simpa only [if_pos hdot] using ih here
                  by_cases hdotDot : (name == Path.dotDot) = true
                  · simpa only [if_neg hdot, if_pos hdotDot] using ih parent
                  by_cases hlong : nameLimit < name.length
                  · simpa only [if_neg hdot, if_neg hdotDot, if_pos hlong] using
                      splits_of_error fun _ _ _ _ => rfl
                  simp only [if_neg hdot, if_neg hdotDot, if_neg hlong]
                  cases hlookup : entries.lookup name with
                  | none =>
                      refine .inr ⟨fun d => by cases rest <;> simp, fun _ _ back hne => ?_⟩
                      exact ⟨.notFound, by simp [hne]⟩
                  | some n =>
                      simp only
                      cases hchild : fs.node? n with
                      | none => exact ih n
                      | some child =>
                          cases child with
                          | file _ | dir _ _ _ | device _ | fifo _ => exact ih n
                          | link target =>
                              -- a link in front of something is followed in any case
                              rcases jumps here target rest with
                                ⟨d, k, hfirst, hdir, hwhole⟩ | ⟨hfirst, hwhole⟩
                              · refine .inl ⟨d, k, by simpa using hfirst, hdir, ?_⟩
                                intro follow asDirectory back hne
                                simpa [hne] using hwhole follow asDirectory back hne
                              · refine .inr ⟨by simpa using hfirst, ?_⟩
                                intro follow asDirectory back hne
                                simpa [hne] using hwhole follow asDirectory back hne

/-- A walk can be cut behind any of its names.  The induction is on the links that may be
passed. -/
theorem walkLinks_splits (fs : FileSystem) (pass : InodeNumber → Except SystemError Unit)
    (links : Nat) (here : InodeNumber) (front : List Name) :
    Splits fs pass (walkLinks fs pass true links true here front)
      fun follow asDirectory back =>
        walkLinks fs pass follow links asDirectory here (front ++ back) := by
  simp only [walkLinks_eq_walk]
  induction links generalizing here front with
  | zero => exact walk_splits (fun _ _ _ => splits_of_error fun _ _ _ _ => rfl) here front
  | succ links ih =>
      refine walk_splits (fun dir target rest => ?_) here front
      have tail := ih (if Path.isAbsolute target then root else dir) (Path.names target ++ rest)
      simp only [jump, Bool.true_or, walkLinks_eq_walk, ← List.append_assoc]
      rcases tail with ⟨d, k, hfirst, hdir, hwhole⟩ | ⟨hfirst, hwhole⟩
      -- a link with names behind it may lead to a directory without insisting on one
      · refine .inl ⟨d, k, hfirst, hdir, fun follow asDirectory back hne => ?_⟩
        have more : (rest ++ back).isEmpty = false := by simp [hne]
        simpa only [more, Bool.false_and, Bool.or_false] using hwhole follow asDirectory back hne
      · refine .inr ⟨hfirst, fun follow asDirectory back hne => ?_⟩
        have more : (rest ++ back).isEmpty = false := by simp [hne]
        simpa only [more, Bool.false_and, Bool.or_false] using hwhole follow asDirectory back hne

/-! ## Where nothing is -/

section Vacant

variable {follow asDirectory asDirectory' : Bool} {d here : InodeNumber} {name : Name}
  {names : List Name}

/-- A walk finds nothing only where there is no entry; the induction is on its names. -/
theorem of_walk_vacant {onLink : InodeNumber → Bytes → List Name → Bool → Except SystemError Place}
    (jumps : ∀ {dir target rest}, onLink dir target rest asDirectory =
      .ok (.vacant d name asDirectory') → fs.IsDirectory d ∧ fs.child? d name = none)
    (hwalk : walk fs pass follow onLink asDirectory here names =
      .ok (.vacant d name asDirectory')) :
    fs.IsDirectory d ∧ fs.child? d name = none := by
  induction names generalizing here with
  | nil =>
      rw [walk] at hwalk
      split at hwalk
      · cases hwalk
      · split at hwalk <;> cases hwalk
  | cons other rest ih =>
      rw [walk] at hwalk
      split at hwalk
      · cases hwalk
      · next parent entries removed hnode =>
        split at hwalk
        · cases hwalk
        split at hwalk
        · exact ih hwalk
        split at hwalk
        · exact ih hwalk
        split at hwalk
        · cases hwalk
        split at hwalk
        · next hnone =>
          split at hwalk
          · obtain ⟨rfl, rfl, -⟩ := Place.vacant.inj (Except.ok.inj hwalk)
            refine ⟨⟨parent, entries, removed, hnode⟩, ?_⟩
            simpa [child?, FileSystem.entries, hnode, Node.entries] using hnone
          · cases hwalk
        · split at hwalk
          · split at hwalk
            · cases hwalk
            · exact jumps hwalk
          · exact ih hwalk
      · cases hwalk

/-- The induction is on the links that may be passed. -/
theorem of_walkLinks_vacant {links : Nat}
    (hwalk : walkLinks fs pass follow links asDirectory here names =
      .ok (.vacant d name asDirectory')) :
    fs.IsDirectory d ∧ fs.child? d name = none := by
  induction links generalizing asDirectory here names with
  | zero =>
      rw [walkLinks_eq_walk] at hwalk
      exact of_walk_vacant (fun hjump => by simp [jump] at hjump) hwalk
  | succ links ih =>
      rw [walkLinks_eq_walk] at hwalk
      exact of_walk_vacant ih hwalk

end Vacant

/-! ## One name -/

section OneName

variable {d n : InodeNumber} {name : Name} {follow asDirectory : Bool} {links : Nat}

theorem child?_of_node {parent : InodeNumber} {entries : List (Name × InodeNumber)} {removed : Bool}
    (h : fs.node? d = some (.dir parent entries removed)) (name : Name) :
    fs.child? d name = entries.lookup name := by
  simp [child?, FileSystem.entries, h, Node.entries]

theorem walkLinks_name (hd : fs.IsDirectory d) (hpass : pass d = .ok ())
    (hname : Path.IsName name) :
    walkLinks fs pass follow links asDirectory d [name] =
      match fs.child? d name with
      | none => .ok (.vacant d name asDirectory)
      | some n =>
        match fs.node? n with
        | some (.link target) =>
          if !follow && !asDirectory then .ok (.existing n)
          else jump fs pass follow links d target [] asDirectory
        | some node =>
          if asDirectory && !node.isDirectory then .error .notDirectory else .ok (.existing n)
        | none => .error .notFound := by
  obtain ⟨parent, entries, removed, hnode⟩ := hd
  rw [walkLinks_eq_walk, child?_of_node hnode, walk, hnode]
  simp only [hpass]
  rw [if_neg (by simpa using hname.notDot), if_neg (by simpa using hname.notDotDot),
    if_neg (Nat.not_lt.mpr hname.short)]
  cases entries.lookup name with
  | none => rfl
  | some n =>
      simp only
      cases hn : fs.node? n with
      | none => simp only [walk, hn]
      | some node => cases node <;> simp [walk, hn]

theorem walkLinks_name_vacant (hd : fs.IsDirectory d) (hpass : pass d = .ok ())
    (hname : Path.IsName name) (hchild : fs.child? d name = none) :
    walkLinks fs pass follow links asDirectory d [name] = .ok (.vacant d name asDirectory) := by
  rw [walkLinks_name hd hpass hname, hchild]

theorem walkLinks_name_existing (hd : fs.IsDirectory d) (hpass : pass d = .ok ())
    (hname : Path.IsName name) (hchild : fs.child? d name = some n) {node : Node}
    (hnode : fs.node? n = some node) (hlink : ¬ fs.IsLink n)
    (hdir : asDirectory = true → node.isDirectory = true) :
    walkLinks fs pass follow links asDirectory d [name] = .ok (.existing n) := by
  rw [walkLinks_name hd hpass hname, hchild]
  simp only [hnode]
  cases node with
  | link target => exact absurd ⟨target, hnode⟩ hlink
  | file _ | dir _ _ _ | device _ | fifo _ => simpa using hdir

theorem of_walkLinks_name {place : Place} (hname : Path.IsName name) (hd : fs.IsDirectory d)
    (h : walkLinks fs pass follow links asDirectory d [name] = .ok place) :
    pass d = .ok () ∧
      ((fs.child? d name = none ∧ place = .vacant d name asDirectory) ∨
        ∃ n, fs.child? d name = some n ∧ (¬ fs.IsLink n → place = .existing n)) := by
  have hpass : pass d = .ok () := by
    obtain ⟨parent, entries, removed, hnode⟩ := hd
    rw [walkLinks_eq_walk, walk, hnode] at h
    cases hp : pass d with
    | ok _ => rfl
    | error cause => simp [hp] at h
  refine ⟨hpass, ?_⟩
  rw [walkLinks_name hd hpass hname] at h
  cases hchild : fs.child? d name with
  | none => exact .inl ⟨rfl, by simpa [hchild] using h.symm⟩
  | some n =>
      refine .inr ⟨n, rfl, fun hlink => ?_⟩
      simp only [hchild] at h
      cases hnode : fs.node? n with
      | none => simp [hnode] at h
      | some node =>
          cases node with
          | link target => exact absurd ⟨target, hnode⟩ hlink
          | file _ | dir _ _ _ | device _ | fifo _ =>
              simp only [hnode] at h
              split at h
              · cases h
              · exact (Except.ok.inj h).symm

end OneName

end Walk

end FileSystem

namespace Host

open FileSystem WasmPackager.Path

/-- The names of a path lead to a directory; an empty path leads to where paths begin. -/
def Reaches (h : Host) (path : Bytes) (d : InodeNumber) : Prop :=
  h.files.walkLinks h.files.mayPass true linkLimit true (h.origin path) (names path) =
    .ok (.existing d)

section Reaches

variable {h : Host} {dir : Bytes} {name : Name} {d n : InodeNumber}

theorem Reaches.unique {d' : InodeNumber} (hd : h.Reaches dir d) (hd' : h.Reaches dir d') :
    d' = d := by
  have := hd.symm.trans hd'
  simpa using this.symm

theorem Reaches.isDirectory (hd : h.Reaches dir d) : h.files.IsDirectory d := by
  rcases walkLinks_splits h.files h.files.mayPass linkLimit (h.origin dir) (names dir) with
    ⟨d', links, hfirst, hdir, -⟩ | ⟨hfirst, -⟩
  · obtain rfl : d' = d := hd.unique hfirst
    exact hdir
  · exact absurd hd (hfirst d)

theorem Reaches.onward (hd : h.Reaches dir d) :
    ∃ links, ∀ follow asDirectory back, back ≠ [] →
      h.files.walkLinks h.files.mayPass follow linkLimit asDirectory (h.origin dir)
          (names dir ++ back) =
        h.files.walkLinks h.files.mayPass follow links asDirectory d back := by
  rcases walkLinks_splits h.files h.files.mayPass linkLimit (h.origin dir) (names dir) with
    ⟨d', links, hfirst, -, hwhole⟩ | ⟨hfirst, -⟩
  · obtain rfl : d' = d := hd.unique hfirst
    exact ⟨links, hwhole⟩
  · exact absurd hd (hfirst d)

theorem reaches_of_walkLinks {follow asDirectory : Bool} {back : List Name} {place : Place}
    (hne : back ≠ [])
    (hplace : h.files.walkLinks h.files.mayPass follow linkLimit asDirectory (h.origin dir)
      (names dir ++ back) = .ok place) : ∃ d, h.Reaches dir d := by
  rcases walkLinks_splits h.files h.files.mayPass linkLimit (h.origin dir) (names dir) with
    ⟨d, links, hfirst, -, -⟩ | ⟨-, hwhole⟩
  · exact ⟨d, hfirst⟩
  · obtain ⟨cause, hcause⟩ := hwhole follow asDirectory back hne
    exact absurd (hplace.symm.trans hcause) (by simp)

theorem origin_join (h : Host) (dir : Bytes) (hname : IsName name) :
    h.origin (join dir name) = h.origin dir := by
  rw [origin, origin, isAbsolute_join dir hname]

/-! ## Joined paths -/

theorem reaches_join (hname : IsName name) (hd : h.Reaches dir d)
    (hpass : h.files.mayPass d = .ok ()) (hchild : h.files.child? d name = some n)
    (hn : h.files.IsDirectory n) : h.Reaches (join dir name) n := by
  obtain ⟨links, honward⟩ := hd.onward
  obtain ⟨parent, entries, removed, hnode⟩ := hn
  have hlink : ¬ h.files.IsLink n := by
    rintro ⟨target, htarget⟩
    rw [hnode] at htarget
    cases htarget
  rw [Reaches, origin_join h dir hname, names_join dir hname, honward _ _ _ (by simp)]
  exact walkLinks_name_existing hd.isDirectory hpass hname hchild hnode hlink fun _ => rfl

theorem of_reaches_join (hname : IsName name) (hn : h.Reaches (join dir name) n) :
    ∃ d, h.Reaches dir d ∧ h.files.mayPass d = .ok () ∧
      ∃ m, h.files.child? d name = some m ∧ (¬ h.files.IsLink m → m = n) := by
  rw [Reaches, origin_join h dir hname, names_join dir hname] at hn
  obtain ⟨d, hd⟩ := reaches_of_walkLinks (by simp) hn
  obtain ⟨links, honward⟩ := hd.onward
  rw [honward _ _ _ (by simp)] at hn
  obtain ⟨hpass, ⟨-, hplace⟩ | ⟨m, hchild, hm⟩⟩ := of_walkLinks_name hname hd.isDirectory hn
  · cases hplace
  · exact ⟨d, hd, hpass, m, hchild, fun hlink => by simpa using (hm hlink).symm⟩

theorem checked_join (hzero : 0 ∉ dir) (hname : IsName name) :
    checked (join dir name) =
      if pathLimit ≤ (join dir name).length then .error .nameTooLong
      else .ok (join dir name) := by
  rw [checked, readable_join hzero hname]
  simp [join_ne_nil dir hname]

theorem resolve_join (hzero : 0 ∉ dir) (hname : IsName name)
    (hshort : (join dir name).length < pathLimit) (hd : h.Reaches dir d) :
    ∃ links, ∀ follow, h.resolve (join dir name) follow =
      h.files.walkLinks h.files.mayPass follow links false d [name] := by
  obtain ⟨links, honward⟩ := hd.onward
  refine ⟨links, fun follow => ?_⟩
  rw [resolve, checked_join hzero hname, if_neg (Nat.not_le.mpr hshort)]
  simp only
  rw [hasTrailingSlash_join dir hname, origin_join h dir hname, names_join dir hname,
    honward _ _ _ (by simp)]

/-- A path that leads somewhere has its last name looked up in a directory that may be passed. -/
theorem of_resolve_join {follow : Bool} {place : Place} (hzero : 0 ∉ dir) (hname : IsName name)
    (hplace : h.resolve (join dir name) follow = .ok place) :
    (join dir name).length < pathLimit ∧ ∃ d, h.Reaches dir d ∧ h.files.mayPass d = .ok () ∧
      ((h.files.child? d name = none ∧ place = .vacant d name false) ∨
        ∃ n, h.files.child? d name = some n ∧ (¬ h.files.IsLink n → place = .existing n)) := by
  rw [resolve, checked_join hzero hname] at hplace
  by_cases hlong : pathLimit ≤ (join dir name).length
  · simp [if_pos hlong] at hplace
  · rw [if_neg hlong] at hplace
    simp only [hasTrailingSlash_join dir hname, origin_join h dir hname,
      names_join dir hname] at hplace
    obtain ⟨d, hd⟩ := reaches_of_walkLinks (by simp) hplace
    obtain ⟨links, honward⟩ := hd.onward
    rw [honward _ _ _ (by simp)] at hplace
    exact ⟨Nat.lt_of_not_le hlong, d, hd, of_walkLinks_name hname hd.isDirectory hplace⟩

theorem of_resolve_vacant {path : Bytes} {follow asDirectory : Bool}
    (hplace : h.resolve path follow = .ok (.vacant d name asDirectory)) :
    h.files.IsDirectory d ∧ h.files.child? d name = none := by
  rw [resolve] at hplace
  split at hplace
  · cases hplace
  · exact of_walkLinks_vacant hplace

theorem lastName_concat (front : List Name) (name : Name) :
    lastName (front ++ [name]) =
      if name == dot then .dot else if name == dotDot then .dotDot else .entry name := by
  have hlast : (front ++ [name]).getLastD [] = name := by simp
  have shape : lastName (front ++ [name]) =
      if (front ++ [name]).getLastD [] == dot then .dot
      else if (front ++ [name]).getLastD [] == dotDot then .dotDot
      else .entry ((front ++ [name]).getLastD []) := by
    cases front <;> rfl
  rw [shape, hlast]

theorem lastName_join (hname : IsName name) (front : List Name) :
    lastName (front ++ [name]) = .entry name := by
  rw [lastName_concat, if_neg (by simpa using hname.notDot),
    if_neg (by simpa using hname.notDotDot)]

theorem slot_join_iff (hzero : 0 ∉ dir) (hname : IsName name) {slot : Slot} :
    h.slot (join dir name) = .ok slot ↔
      (join dir name).length < pathLimit ∧ ∃ d, h.Reaches dir d ∧ h.files.mayPass d = .ok () ∧
        slot = ⟨d, .entry name, false⟩ := by
  rw [Host.slot, checked_join hzero hname]
  by_cases hlong : pathLimit ≤ (join dir name).length
  · simp [if_pos hlong, Nat.not_lt.mpr hlong, bind, Except.bind]
  · rw [if_neg hlong]
    simp only [bind, Except.bind, names_join dir hname, List.dropLast_concat,
      origin_join h dir hname, hasTrailingSlash_join dir hname, lastName_join hname]
    cases hwalk :
        h.files.walkLinks h.files.mayPass true linkLimit true (h.origin dir) (names dir) with
    | error cause => simp [Reaches, hwalk]
    | ok place =>
        cases place with
        | vacant d name asDirectory => simp [Reaches, hwalk]
        | existing d =>
            cases hpass : h.files.mayPass d with
            | error cause =>
                simp only [Reaches, hwalk, Except.ok.injEq, Place.existing.injEq]
                simp [hpass]
            | ok _ =>
                simp only [Reaches, hwalk, Except.ok.injEq, Place.existing.injEq]
                simp [hpass, Nat.lt_of_not_le hlong, pure, Except.pure, eq_comm]

end Reaches

end Host
end WasmPackager
