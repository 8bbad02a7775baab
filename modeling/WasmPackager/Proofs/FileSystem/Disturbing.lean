/-
# `Proofs.FileSystem.Disturbing` — writing where a path leads, and taking entries away

A file that is written under a path can be anywhere: links are followed, and
what they lead to is written over, or made.  What is removed under a path is an
entry of the directory it leads to, whatever that was.  `Disturbed` says that
nothing else happened: something was written at some places, and some entries of
one directory are gone.  A write that fails half-way disturbs as one that
succeeds does (`Wrote`).

A path that leads to something still leads there if the entries that are gone
do not matter to it (`keepsPaths_between`), and nothing is found that was not,
but for what was made (`keepsPaths_before`).  So the contents under a path are
what they were, if nothing was written where it leads
(`contentsAt_of_disturbed`).
-/
import WasmPackager.Proofs.FileSystem.Making

namespace WasmPackager

/-! ## What paths need to know -/

/-- What following a path needs to know of a node: what a directory lies in, and where a link
leads. -/
def Node.way : Node → Option (InodeNumber ⊕ Bytes)
  | .dir parent _ _ => some (.inl parent)
  | .link target => some (.inr target)
  | .file _ | .device _ | .fifo _ => none

namespace FileSystem

/-- What following a path needs to know of the node of a number. -/
def way (fs : FileSystem) (n : InodeNumber) : Option (InodeNumber ⊕ Bytes) :=
  (fs.node? n).bind Node.way

section Way

variable {fs fs' : FileSystem} {n : InodeNumber} {i : Inode}

theorem way_of_node? {node : Node} (hnode : fs.node? n = some node) : fs.way n = node.way := by
  rw [way, hnode, Option.bind_some]

theorem way_of_inode? (hi : fs.inode? n = some i) : fs.way n = i.node.way :=
  way_of_node? (node?_of_inode? hi)

theorem way_eq_directory {parent : InodeNumber} : fs.way n = some (.inl parent) ↔
    ∃ entries removed, fs.node? n = some (.dir parent entries removed) := by
  rw [way]
  cases fs.node? n with
  | none => simp
  | some node => cases node <;> simp [Node.way]

theorem way_eq_link {target : Bytes} :
    fs.way n = some (.inr target) ↔ fs.node? n = some (.link target) := by
  rw [way]
  cases fs.node? n with
  | none => simp
  | some node => cases node <;> simp [Node.way]

theorem way_eq_none : fs.way n = none ↔ ¬ fs.IsDirectory n ∧ ¬ fs.IsLink n := by
  rw [way, IsDirectory, IsLink]
  cases fs.node? n with
  | none => simp
  | some node => cases node <;> simp [Node.way]

theorem isDirectory_congr (hway : fs'.way n = fs.way n) : fs'.IsDirectory n ↔ fs.IsDirectory n := by
  have known : ∀ {gs : FileSystem}, gs.IsDirectory n ↔ ∃ parent, gs.way n = some (.inl parent) := by
    intro gs
    simp only [way_eq_directory]
    rfl
  rw [known, known, hway]

theorem isLink_congr (hway : fs'.way n = fs.way n) : fs'.IsLink n ↔ fs.IsLink n := by
  simp only [IsLink, ← way_eq_link, hway]

theorem child?_of_way (hway : fs.way n = none) (name : Name) : fs.child? n name = none := by
  rw [way] at hway
  rw [child?, entries]
  cases hnode : fs.node? n with
  | none => rfl
  | some node => cases node <;> simp [hnode, Node.way, Node.entries] at hway ⊢

theorem keepsPaths_of_way (hway : ∀ n, fs'.way n = fs.way n)
    (hpasses : ∀ {n}, fs.IsDirectory n → fs'.mayPass n = fs.mayPass n)
    (hchildren : ∀ {d name n}, fs.child? d name = some n → fs.IsDirectory n ∨ fs.IsLink n →
      fs'.child? d name = some n) : KeepsPaths fs fs' where
  directories hnode := way_eq_directory.mp ((hway _).trans (way_eq_directory.mpr ⟨_, _, hnode⟩))
  passes := hpasses
  links hnode := way_eq_link.mp ((hway _).trans (way_eq_link.mpr hnode))
  children := hchildren

end Way

/-! ## Disturbances -/

/-- Nothing happened but that something was written at some places, and that entries of `t` that
have certain names were taken away. -/
structure Disturbed (names : Name → Prop) (t : InodeNumber) (places : Place → Prop)
    (fs fs' : FileSystem) : Prop where
  kept : ∀ {n i}, fs.inode? n = some i → ∃ i', fs'.inode? n = some i' ∧ i'.mode = i.mode ∧
    i'.node.way = i.node.way ∧
      (i.node.isDirectory = false → ¬ places (.existing n) → i' = i)
  /-- What was made has no other new name than the one it was made under. -/
  made : ∀ {n i'}, fs.inode? n = none → fs'.inode? n = some i' →
    i'.node.way = none ∧ ∃ d name, places (.vacant d name false) ∧
      ∀ {e other}, fs'.child? e other = some n →
        fs.child? e other = some n ∨ e = d ∧ other = name
  entries : ∀ {d name n}, fs.child? d name = some n → ¬ (d = t ∧ names name) →
    fs'.child? d name = some n
  added : ∀ {d name n}, fs'.child? d name = some n → fs.child? d name = some n ∨
    fs.child? d name = none ∧ places (.vacant d name false) ∧ fs.inode? n = none ∧
      ∃ i', fs'.inode? n = some i'

section Disturbed

variable {names : Name → Prop} {t n : InodeNumber} {places : Place → Prop} {fs fs' : FileSystem}

theorem Disturbed.refl (names : Name → Prop) (t : InodeNumber) (places : Place → Prop)
    (fs : FileSystem) : Disturbed names t places fs fs where
  kept hi := ⟨_, hi, rfl, rfl, fun _ _ => rfl⟩
  made hnone hsome := absurd (hnone.symm.trans hsome) nofun
  entries hchild _ := hchild
  added := .inl

/-- What was made has no way, like what was not there. -/
theorem Disturbed.way (hd : Disturbed names t places fs fs') (n : InodeNumber) :
    fs'.way n = fs.way n := by
  cases hi : fs.inode? n with
  | some i =>
      obtain ⟨i', hi', -, hway, -⟩ := hd.kept hi
      rw [way_of_inode? hi', way_of_inode? hi, hway]
  | none =>
      have hnone : fs.way n = none := by simp [FileSystem.way, node?, hi]
      rw [hnone]
      cases hi' : fs'.inode? n with
      | some i' => exact (way_of_inode? hi').trans (hd.made hi hi').1
      | none => simp [FileSystem.way, node?, hi']

theorem Disturbed.isDirectory_iff (hd : Disturbed names t places fs fs') :
    fs'.IsDirectory n ↔ fs.IsDirectory n :=
  isDirectory_congr (hd.way n)

/-! ## Single steps -/

/-- What is at a number is replaced, which is that of a directory or that of what is written. -/
theorem Disturbed.setNode (hd : Disturbed names t places fs fs') {node : Node}
    (hn : fs.inode? n = none ∨ places (.existing n) ∨ fs.IsDirectory n)
    (hway : ∀ {i'}, fs'.inode? n = some i' → node.way = i'.node.way)
    (hentries : ∀ {d name m}, fs.child? d name = some m → ¬ (d = t ∧ names name) →
      (fs'.setNode n node).child? d name = some m)
    (hadded : ∀ {d name m}, (fs'.setNode n node).child? d name = some m →
      fs'.child? d name = some m ∨
        fs.child? d name = none ∧ places (.vacant d name false) ∧ fs.inode? m = none ∧
          (∃ i', fs'.inode? m = some i') ∧
          ∀ {e other}, (fs'.setNode n node).child? e other = some m →
            fs.child? e other = some m ∨ e = d ∧ other = name) :
    Disturbed names t places fs (fs'.setNode n node) where
  kept := by
    intro m i hi
    obtain ⟨i', hi', hmode, hway', hsame⟩ := hd.kept hi
    by_cases hm : m = n
    · subst hm
      refine ⟨{ i' with node, modified := fs'.clock }, by rw [inode?_setNode, if_pos rfl, hi']; rfl,
        hmode, (hway hi').trans hway', fun hplain hplace => ?_⟩
      rcases hn with hnone | hwritten | hdir
      · cases hnone.symm.trans hi
      · exact absurd hwritten hplace
      · rw [(isDirectory_of_inode? hi).mp hdir] at hplain
        cases hplain
    · exact ⟨i', by rw [inode?_setNode_other hm, hi'], hmode, hway', hsame⟩
  made := by
    intro m i' hnone hsome
    have hmade : i'.node.way = none ∧ ∃ d name, places (.vacant d name false) ∧
        ∀ {e other}, fs'.child? e other = some m →
          fs.child? e other = some m ∨ e = d ∧ other = name := by
      by_cases hm : m = n
      · subst hm
        rw [inode?_setNode, if_pos rfl] at hsome
        obtain ⟨i, hi, rfl⟩ := Option.map_eq_some_iff.mp hsome
        obtain ⟨hway', hplace⟩ := hd.made hnone hi
        exact ⟨(hway hi).trans hway', hplace⟩
      · rw [inode?_setNode_other hm] at hsome
        exact hd.made hnone hsome
    obtain ⟨hway', d, name, hplace, honly⟩ := hmade
    refine ⟨hway', ?_⟩
    by_cases hold : ∀ {e other}, (fs'.setNode n node).child? e other = some m →
        fs'.child? e other = some m
    · exact ⟨d, name, hplace, fun hchild => honly (hold hchild)⟩
    · -- it is given its name just now
      simp only [Classical.not_forall] at hold
      obtain ⟨e, other, hchild, hdiffers⟩ := hold
      obtain ⟨-, hplace', -, -, honly'⟩ := (hadded hchild).resolve_left hdiffers
      exact ⟨e, other, hplace', honly'⟩
  entries := hentries
  added := by
    have hsome : ∀ {m}, (∃ i', fs'.inode? m = some i') →
        ∃ i', (fs'.setNode n node).inode? m = some i' := by
      rintro m ⟨i', hi'⟩
      by_cases hm : m = n
      · subst hm
        exact ⟨_, by rw [inode?_setNode, if_pos rfl, hi']; rfl⟩
      · exact ⟨i', by rw [inode?_setNode_other hm, hi']⟩
    intro d name m hchild
    rcases hadded hchild with hold | ⟨hnone, hplace, hfresh, hi', -⟩
    · exact (hd.added hold).imp_right fun ⟨hnone, hplace, hfresh, hi'⟩ =>
        ⟨hnone, hplace, hfresh, hsome hi'⟩
    · exact .inr ⟨hnone, hplace, hfresh, hsome hi'⟩

theorem child?_markRemoved (fs : FileSystem) (n d : InodeNumber) (name : Name) :
    (fs.markRemoved n).child? d name = fs.child? d name := by
  by_cases hn : fs.IsDirectory n
  · obtain ⟨parent, entries, removed, hnode⟩ := hn
    rw [FileSystem.markRemoved, hnode]
    simp only
    rw [child?_setEntries hnode]
    split
    · next hdn => rw [hdn, child?_of_node hnode]
    · rfl
  · rw [markRemoved_of_not_directory hn]

theorem Disturbed.write (hd : Disturbed names t places fs fs') {node : Node}
    (hn : fs.inode? n = none ∨ places (.existing n)) (hnode : node.way = none)
    (hplain : fs'.way n = none) : Disturbed names t places fs (fs'.setNode n node) := by
  have hsame : ∀ d name, (fs'.setNode n node).child? d name = fs'.child? d name := by
    intro d name
    by_cases hdn : d = n
    · subst hdn
      rw [child?_of_way hplain, child?_of_way]
      rw [FileSystem.way, node?, inode?_setNode, if_pos rfl]
      cases fs'.inode? d with
      | none => rfl
      | some i => exact hnode
    · exact child?_congr (inode?_setNode_other hdn _) name
  refine hd.setNode (hn.imp_right .inl)
    (fun hi => hnode.trans (hplain.symm.trans (way_of_inode? hi))) ?_ ?_
  · intro d name m hchild hname
    rw [hsame]
    exact hd.entries hchild hname
  · intro d name m hchild
    rw [hsame] at hchild
    exact .inl hchild

theorem Disturbed.detach (hd : Disturbed names t places fs fs') (ht : fs.IsDirectory t)
    {name : Name}
    (hname : names name) : Disturbed names t places fs (fs'.detach t name) := by
  have ht' := hd.isDirectory_iff.mpr ht
  have hchildren := fun m other => child?_detach ht' m name other
  obtain ⟨parent, entries, removed, hnode⟩ := ht'
  rw [detach_of_node hnode] at hchildren ⊢
  refine hd.setNode (.inr (.inr ht)) (fun hi => ?_) ?_ ?_
  · have hdir := Option.some.inj ((node?_of_inode? hi).symm.trans hnode)
    simp only [hdir, Node.way]
  · intro d other m hchild hother
    rw [hchildren, if_neg]
    · exact hd.entries hchild hother
    · rintro ⟨rfl, rfl⟩
      exact hother ⟨rfl, hname⟩
  · intro d other m hchild
    rw [hchildren] at hchild
    split at hchild
    · cases hchild
    · exact .inl hchild

theorem Disturbed.markRemoved (hd : Disturbed names t places fs fs') (n : InodeNumber) :
    Disturbed names t places fs (fs'.markRemoved n) := by
  by_cases hn : fs'.IsDirectory n
  · have hsame := child?_markRemoved fs' n
    obtain ⟨parent, entries, removed, hnode⟩ := hn
    have heq : fs'.markRemoved n = fs'.setNode n (.dir parent entries true) := by
      rw [FileSystem.markRemoved, hnode]
    rw [heq] at hsame ⊢
    refine hd.setNode (.inr (.inr (hd.isDirectory_iff.mp ⟨_, _, _, hnode⟩))) (fun hi => ?_) ?_ ?_
    · have hdir := Option.some.inj ((node?_of_inode? hi).symm.trans hnode)
      simp only [hdir, Node.way]
    · intro d name m hchild hname
      rw [hsame]
      exact hd.entries hchild hname
    · intro d name m hchild
      rw [hsame] at hchild
      exact .inl hchild
  · rw [markRemoved_of_not_directory hn]
    exact hd

theorem disturbed_attach {d : InodeNumber} {name : Name} (hdir : fs.IsDirectory d)
    (hnone : fs.child? d name = none) {node : Node} (hnode : node.way = none) (mode : Nat) :
    Disturbed names t (· = .vacant d name false) fs
      ((fs.create node mode).2.attach d name fs.inodes.size) := by
  have hfresh : fs.inode? fs.inodes.size = none := by simp [inode?]
  have hother : ∀ {e} other, (fs.create node mode).2.child? e other = fs.child? e other := by
    intro e other
    by_cases he : e = fs.inodes.size
    · subst he
      rw [child?_of_way, child?_of_way]
      · simp [FileSystem.way, node?, hfresh]
      · exact (way_of_inode? (by rw [inode?_create, if_pos rfl])).trans hnode
    · exact child?_congr (by rw [inode?_create, if_neg he]) other
  have hcreated : Disturbed names t (· = .vacant d name false) fs (fs.create node mode).2 := by
    refine ⟨fun {n i} hi => ?_, fun {n i'} hnone hi => ?_, fun hchild _ => ?_, fun hchild => ?_⟩
    · have hn : n ≠ fs.inodes.size := by
        rintro rfl
        cases hfresh.symm.trans hi
      exact ⟨i, by rw [inode?_create, if_neg hn, hi], rfl, rfl, fun _ _ => rfl⟩
    · rw [inode?_create] at hi
      split at hi
      · obtain rfl := Option.some.inj hi
        refine ⟨hnode, d, name, rfl, fun hchild => .inl ?_⟩
        rwa [hother] at hchild
      · cases hnone.symm.trans hi
    · rwa [hother]
    · rw [hother] at hchild
      exact .inl hchild
  have hdir' := hcreated.isDirectory_iff.mpr hdir
  have hchildren := fun m other => child?_attach hdir' fs.inodes.size m name other
  obtain ⟨parent, entries, removed, hdirNode⟩ := hdir'
  rw [attach_of_node hdirNode] at hchildren ⊢
  refine hcreated.setNode (.inr (.inr hdir)) (fun hi => ?_) ?_ ?_
  · have heq := Option.some.inj ((node?_of_inode? hi).symm.trans hdirNode)
    simp only [heq, Node.way]
  · intro e other m hchild hname
    rw [hchildren, if_neg, hother, hchild]
    rintro ⟨rfl, rfl⟩
    cases hnone.symm.trans hchild
  · intro e other m hchild
    rw [hchildren] at hchild
    split at hchild
    · next heq =>
      obtain ⟨rfl, rfl⟩ := heq
      obtain rfl := Option.some.inj hchild
      refine .inr ⟨hnone, rfl, hfresh, ⟨_, by rw [inode?_create, if_pos rfl]⟩, fun hchild' => ?_⟩
      rw [hchildren] at hchild'
      split at hchild'
      · next heq => exact .inr heq
      · exact .inl (by rwa [hother] at hchild')
    · exact .inl hchild

/-! ## One after the other -/

/-- What nothing leads to need not be told. -/
theorem Disturbed.mono {places' : Place → Prop} (hd : Disturbed names t places fs fs')
    (hplaces : ∀ {p}, places p → places' p ∨ ∃ n, p = .existing n ∧ fs.inode? n = none) :
    Disturbed names t places' fs fs' := by
  have vacant : ∀ {d name}, places (.vacant d name false) → places' (.vacant d name false) := by
    intro d name hplace
    rcases hplaces hplace with hplace | ⟨n, heq, -⟩
    · exact hplace
    · cases heq
  refine ⟨fun hi => ?_, fun hnone hsome => ?_, hd.entries, fun hchild => ?_⟩
  · obtain ⟨i', hi', hmode, hway, hsame⟩ := hd.kept hi
    refine ⟨i', hi', hmode, hway, fun hplain hplace => hsame hplain fun hwritten => ?_⟩
    rcases hplaces hwritten with hwritten | ⟨n, heq, hnone⟩
    · exact hplace hwritten
    · obtain rfl := Place.existing.inj heq
      cases hnone.symm.trans hi
  · obtain ⟨hway, d, name, hplace, honly⟩ := hd.made hnone hsome
    exact ⟨hway, d, name, vacant hplace, honly⟩
  · exact (hd.added hchild).imp_right fun ⟨hnone, hplace, hrest⟩ => ⟨hnone, vacant hplace, hrest⟩

/-- Two disturbances are one, if no entries are taken away by the first. -/
theorem Disturbed.trans {places' : Place → Prop} {fs'' : FileSystem}
    (hd : Disturbed (fun _ => False) t places fs fs')
    (hd' : Disturbed names t places' fs' fs'') :
    Disturbed names t (fun p => places p ∨ places' p) fs fs'' := by
  refine ⟨fun hi => ?_, fun hnone hsome => ?_, fun hchild hname => ?_, fun hchild => ?_⟩
  · obtain ⟨i', hi', hmode, hway, hsame⟩ := hd.kept hi
    obtain ⟨i'', hi'', hmode', hway', hsame'⟩ := hd'.kept hi'
    refine ⟨i'', hi'', hmode'.trans hmode, hway'.trans hway, fun hplain hplace => ?_⟩
    obtain rfl := hsame hplain fun h => hplace (.inl h)
    exact hsame' hplain fun h => hplace (.inr h)
  · rename_i n _
    cases hi' : fs'.inode? n with
    | none =>
        obtain ⟨hway, d, name, hplace, honly⟩ := hd'.made hi' hsome
        refine ⟨hway, d, name, .inr hplace, fun hchild => (honly hchild).imp_left fun hold => ?_⟩
        rcases hd.added hold with hold | ⟨-, -, -, i', hi⟩
        · exact hold
        · cases hi'.symm.trans hi
    | some i' =>
        obtain ⟨hway, d, name, hplace, honly⟩ := hd.made hnone hi'
        obtain ⟨i'', hi'', -, hway', -⟩ := hd'.kept hi'
        obtain rfl := Option.some.inj (hi''.symm.trans hsome)
        refine ⟨hway'.trans hway, d, name, .inl hplace, fun hchild => ?_⟩
        rcases hd'.added hchild with hold | ⟨-, -, hfresh, -⟩
        · exact honly hold
        · cases hi'.symm.trans hfresh
  · exact hd'.entries (hd.entries hchild fun heq => heq.2) hname
  · rcases hd'.added hchild with hold | ⟨hnone, hplace, hfresh, hsome⟩
    · refine (hd.added hold).imp_right fun ⟨hnone, hplace, hfresh, i', hi'⟩ => ?_
      obtain ⟨i'', hi'', -⟩ := hd'.kept hi'
      exact ⟨hnone, .inl hplace, hfresh, i'', hi''⟩
    · refine .inr ⟨Option.eq_none_iff_forall_ne_some.mpr fun m hold => ?_, .inr hplace,
        Option.eq_none_iff_forall_ne_some.mpr fun i hi => ?_, hsome⟩
      · cases hnone.symm.trans (hd.entries hold fun heq => heq.2)
      · obtain ⟨i', hi', -⟩ := hd.kept hi
        cases hfresh.symm.trans hi'

/-! ## Paths -/

theorem Disturbed.sited (hd : Disturbed names t places fs fs') (hs : fs.Sited) : fs'.Sited := by
  refine ⟨hd.isDirectory_iff.mpr hs.root, fun hnode => hd.isDirectory_iff.mpr ?_⟩
  obtain ⟨entries, removed, hnode'⟩ :=
    way_eq_directory.mp ((hd.way _).symm.trans (way_eq_directory.mpr ⟨_, _, hnode⟩))
  exact hs.above hnode'

theorem Disturbed.mayPass (hd : Disturbed names t places fs fs') (hn : fs.IsDirectory n) :
    fs'.mayPass n = fs.mayPass n := by
  obtain ⟨parent, entries, removed, hnode⟩ := hn
  obtain ⟨i, hi, -⟩ := Option.map_eq_some_iff.mp hnode
  obtain ⟨i', hi', hmode, -⟩ := hd.kept hi
  exact mayPass_of_mode hi hi' hmode

section Between

variable {gone : FileSystem} {i : Inode}
  (hgone : Disturbed names t (fun _ => False) fs gone)
  (hall : ∀ {name}, names name → gone.child? t name = none)
  (hd : Disturbed names t places fs fs')

include hgone hall hd in
theorem child?_between {d m : InodeNumber} {name : Name} (hchild : gone.child? d name = some m) :
    fs'.child? d name = some m := by
  rcases hgone.added hchild with hold | ⟨-, hplace, -⟩
  · refine hd.entries hold ?_
    rintro ⟨rfl, hname⟩
    cases (hall hname).symm.trans hchild
  · exact absurd hplace id

include hgone hall hd in
theorem keepsPaths_between : KeepsPaths gone fs' := by
  refine keepsPaths_of_way (fun n => (hd.way n).trans (hgone.way n).symm) (fun hn => ?_)
    fun hchild _ => child?_between hgone hall hd hchild
  have hdir := hgone.isDirectory_iff.mp hn
  exact (hd.mayPass hdir).trans (hgone.mayPass hdir).symm

include hgone hall hd in
theorem ends_between (hs : fs.Sited) (hi : fs.inode? n = some i) :
    Ends gone fs' (.existing n) (.existing n) := by
  by_cases hn : gone.IsDirectory n
  · exact .directory hn
  · refine .kept (hgone.sited hs) hn (child?_between hgone hall hd) fun hlink => ?_
    obtain ⟨i', hi', -⟩ := hd.kept hi
    have hway : gone.way n = fs'.way n := (hgone.way n).trans (hd.way n).symm
    exact ⟨i'.node, node?_of_inode? hi', fun hdir => hn ((isDirectory_congr hway).mpr hdir),
      fun hlink' => hlink ((isLink_congr hway).mpr hlink')⟩

end Between

/-- Nothing is found that was not, but for what was made. -/
theorem Disturbed.keepsPaths_before (hd : Disturbed names t places fs fs') : KeepsPaths fs' fs := by
  refine keepsPaths_of_way (fun n => (hd.way n).symm)
    (fun hn => (hd.mayPass (hd.isDirectory_iff.mp hn)).symm) fun {d name n} hchild hkind => ?_
  rcases hd.added hchild with hold | ⟨-, -, hnone, -⟩
  · exact hold
  · have hway : fs'.way n = none := by
      rw [hd.way, FileSystem.way, node?, hnone]
      rfl
    exact absurd hkind (not_or.mpr (way_eq_none.mp hway))

theorem Disturbed.ends_old (hd : Disturbed names t places fs fs') (hs : fs.Sited) {i : Inode}
    (hi : fs.inode? n = some i) : Ends fs' fs (.existing n) (.existing n) := by
  by_cases hn : fs'.IsDirectory n
  · exact .directory hn
  · refine .kept (hd.sited hs) hn (fun hchild => ?_) fun hlink => ?_
    · rcases hd.added hchild with hold | ⟨-, -, hnone, -⟩
      · exact hold
      · cases hnone.symm.trans hi
    · exact ⟨i.node, node?_of_inode? hi, fun hdir => hn (hd.isDirectory_iff.mpr hdir),
        fun hlink' => hlink ((isLink_congr (hd.way n)).mpr hlink')⟩

theorem Disturbed.ends_made (hd : Disturbed names t places fs fs') (hs : fs.Sited)
    (hleads : fs.Leads)
    (hvacant : ∀ {d name asDirectory}, places (.vacant d name asDirectory) →
      fs.child? d name = none)
    {i' : Inode} (hnone : fs.inode? n = none) (hi' : fs'.inode? n = some i') :
    ∃ p, places p ∧ Ends fs' fs (.existing n) p := by
  obtain ⟨hway, d, name, hplace, honly⟩ := hd.made hnone hi'
  refine ⟨_, hplace, .gone (hd.sited hs) ?_ (fun hchild => ?_) (hvacant hplace)⟩
  · exact (way_eq_none.mp ((way_of_inode? hi').trans hway)).1
  · rcases honly hchild with hold | heq
    · obtain ⟨i, hi⟩ := hleads hold
      cases hnone.symm.trans hi
    · exact heq

end Disturbed

end FileSystem

namespace Host

open FileSystem WasmPackager.Path

section

variable {h : Host} {path bytes : Bytes} {names : Name → Prop} {t x : InodeNumber}
  {places : Place → Prop} {fs' gone : FileSystem}

/-! ## Writing -/

/-- What is opened was made, or emptied if it is a file. -/
inductive Opened (h : Host) (path : Bytes) : InodeNumber → FileSystem → Prop
  | made {d : InodeNumber} {name : Name} : h.resolve path true = .ok (.vacant d name false) →
      Opened h path h.files.inodes.size
        ((h.files.create (.file .empty) Inode.fileMode).2.attach d name h.files.inodes.size)
  | emptied {n : InodeNumber} {contents : Contents} : h.resolve path true = .ok (.existing n) →
      h.files.IsFile n contents → Opened h path n (h.files.setNode n (.file .empty))
  | device {n : InodeNumber} {device : Device} : h.resolve path true = .ok (.existing n) →
      h.files.node? n = some (.device device) → Opened h path n h.files
  | fifo {n : InodeNumber} {pending : List Bytes} : h.resolve path true = .ok (.existing n) →
      h.files.node? n = some (.fifo pending) → Opened h path n h.files

theorem eq_of_demand {α : Type} {i : Inode} {access : Access} {x y : α}
    (h : (do demand i access; return x : Except SystemError α) = .ok y) : x = y := by
  cases hdemand : demand i access with
  | error cause => simp [hdemand, bind, Except.bind] at h
  | ok _ => simpa [hdemand, bind, Except.bind, pure, Except.pure] using h

theorem opened_of_openTruncated {h' : Host} (hopen : h.openTruncated path = .ok (x, h')) :
    ∃ fs', h' = h.withFiles fs' ∧ Opened h path x fs' := by
  rw [openTruncated, openForWriting] at hopen
  cases hplace : h.resolve path true with
  | error cause => simp [hplace, bind, Except.bind] at hopen
  | ok place =>
      simp only [hplace, bind, Except.bind] at hopen
      cases place with
      | vacant d name asDirectory =>
          cases asDirectory with
          | true => simp at hopen
          | false =>
              simp only [Bool.false_eq_true, if_false, addEntry, bind, Except.bind] at hopen
              cases hadd : h.mayAdd d with
              | error cause => simp [hadd] at hopen
              | ok _ =>
                  simp only [hadd, pure, Except.pure] at hopen
                  obtain ⟨rfl, rfl⟩ := Prod.mk.inj (Except.ok.inj hopen)
                  exact ⟨_, rfl, .made hplace⟩
      | existing n =>
          simp only at hopen
          cases hi : h.inodeAt n with
          | error cause => simp [hi] at hopen
          | ok i =>
              simp only [hi] at hopen
              have hnode := node?_of_inode? (of_inodeAt hi)
              cases hkind : i.node with
              | dir _ _ _ | link _ => simp [hkind] at hopen
              | file contents =>
                  simp only [hkind] at hopen
                  obtain ⟨rfl, rfl⟩ := Prod.mk.inj (eq_of_demand hopen)
                  exact ⟨_, rfl, .emptied hplace (hnode.trans (congrArg some hkind))⟩
              | device device =>
                  simp only [hkind] at hopen
                  obtain ⟨rfl, rfl⟩ := Prod.mk.inj (eq_of_demand hopen)
                  exact ⟨_, rfl, .device hplace (hnode.trans (congrArg some hkind))⟩
              | fifo pending =>
                  simp only [hkind] at hopen
                  obtain ⟨rfl, rfl⟩ := Prod.mk.inj (eq_of_demand hopen)
                  exact ⟨_, rfl, .fifo hplace (hnode.trans (congrArg some hkind))⟩

/-- What comes of writing: nothing, or something is written where the path leads, and all of it
unless that is more than a file can hold. -/
inductive Wrote (h : Host) (path bytes : Bytes) : Except SystemError Unit → Host → Prop
  | nothing {cause : SystemError} : Wrote h path bytes (.error cause) h
  | something {result : Except SystemError Unit} {p : Place} {fs' : FileSystem} :
      (result = .ok () ∨ Contents.limit < bytes.length) → h.resolve path true = .ok p →
      (∀ {n}, p = .existing n → h.files.way n = none) →
      (∀ names t, Disturbed names t (· = p) h.files fs') →
      Wrote h path bytes result (h.withFiles fs')

theorem wrote_of_opened {p : Place} {fs : FileSystem}
    (hopen : h.openTruncated path = .ok (x, h.withFiles fs)) (hx : fs.IsFile x .empty)
    (hplace : h.resolve path true = .ok p) (hway : ∀ {n}, p = .existing n → h.files.way n = none)
    (hd : ∀ {names t bytes},
      Disturbed names t (· = p) h.files (fs.setNode x (.file (.ofBytes bytes)))) :
    Wrote h path bytes (h.writeFile path bytes).1 (h.writeFile path bytes).2 := by
  rw [writeFile_of_opened hopen hx]
  refine .something ?_ hplace hway fun _ _ => hd
  by_cases hfits : bytes.length ≤ Contents.limit
  · exact .inl (if_pos hfits)
  · exact .inr (Nat.lt_of_not_le hfits)

theorem wrote_of_writeFile (h : Host) (path bytes : Bytes) :
    Wrote h path bytes (h.writeFile path bytes).1 (h.writeFile path bytes).2 := by
  cases hopen : h.openTruncated path with
  | error cause =>
      rw [writeFile, hopen]
      exact .nothing
  | ok opened =>
  obtain ⟨x, h₁⟩ := opened
  obtain ⟨fs₁, rfl, hopened⟩ := opened_of_openTruncated hopen
  have hway : ∀ {node : Node}, h.files.node? x = some node → node.way = none →
      ∀ {n}, Place.existing x = .existing n → h.files.way n = none := by
    rintro node hnode hnone n heq
    obtain rfl := Place.existing.inj heq
    exact (way_of_node? hnode).trans hnone
  cases hopened with
  | @made d name hplace =>
      obtain ⟨hdir, hnone⟩ := of_resolve_vacant hplace
      have hfile := isFile_attach_create hdir name .empty Inode.fileMode
      refine wrote_of_opened hopen hfile hplace (fun {n} heq => ?_) fun {_ _ _} => ?_
      · cases heq
      · exact (disturbed_attach hdir hnone rfl Inode.fileMode).write (.inl (by simp [inode?])) rfl
          (way_of_node? hfile)
  | @emptied _ contents hplace hfile =>
      have hempty : (h.files.setNode x (.file .empty)).IsFile x .empty :=
        node?_setNode_self (by simp [show _ = _ from hfile]) _
      refine wrote_of_opened hopen hempty hplace (hway hfile rfl) fun {names t _} => ?_
      have emptied : Disturbed names t (· = .existing x) h.files
          (h.files.setNode x (.file .empty)) :=
        (Disturbed.refl names t _ _).write (.inr rfl) rfl (way_of_node? hfile)
      exact emptied.write (.inr rfl) rfl (way_of_node? hempty)
  | @device _ device hplace hnode =>
      rw [writeFile_of_openTruncated hopen, appendAt, show (h.withFiles h.files).files.node? x = _
        from hnode]
      have nothing : Wrote h path bytes (.ok ()) h :=
        .something (.inl rfl) hplace (hway hnode rfl) fun names t => .refl names t _ _
      cases device with
      | null | zero | stream _ => exact nothing
      | full =>
          simp only
          split
          · exact nothing
          · exact .nothing
  | @fifo _ pending hplace hnode =>
      rw [writeFile_of_openTruncated hopen, appendAt, show (h.withFiles h.files).files.node? x = _
        from hnode]
      refine .something (.inl rfl) hplace (hway hnode rfl) fun names t => ?_
      exact (Disturbed.refl names t _ _).write (.inr rfl) rfl (way_of_node? hnode)

/-! ## Reading -/

/-- The contents under a path are what they were, if it leads where it led without the entries that
may be gone, and nothing was written there. -/
theorem contentsAt_of_disturbed (hs : h.Sound) (hd : Disturbed names t places h.files fs')
    (hgone : Disturbed names t (fun _ => False) h.files gone)
    (hall : ∀ {name}, names name → gone.child? t name = none)
    (hfound : ∀ {n}, h.locate path true = .ok n → (h.withFiles gone).locate path true = .ok n)
    (hplaces : ∀ {p}, places p → h.resolve path true ≠ .ok p)
    (hvacant : ∀ {d name asDirectory}, places (.vacant d name asDirectory) →
      h.files.child? d name = none) :
    (h.withFiles fs').contentsAt path = h.contentsAt path := by
  have hsame : ∀ {n i}, h.locate path true = .ok n → h.files.inode? n = some i →
      i.node.isDirectory = false → fs'.inode? n = some i := by
    intro n i hn hi hfile
    obtain ⟨i', hi', -, -, heq⟩ := hd.kept hi
    rw [hi', heq hfile fun hwritten => hplaces hwritten (of_locate hn)]
  refine Option.ext fun bytes => ?_
  rw [contentsAt_eq_some_iff, contentsAt_eq_some_iff]
  constructor
  · rintro ⟨n, contents, hn, hfile, hbytes⟩
    obtain ⟨i', hi', hnode'⟩ := Option.map_eq_some_iff.mp hfile
    have hcwd : fs'.IsDirectory h.cwd := hd.isDirectory_iff.mpr hs.cwd
    cases hi : h.files.inode? n with
    | some i =>
        have hn' : h.locate path true = .ok n := locate_of_resolve
          (hd.keepsPaths_before.resolve_end (h := h.withFiles fs') (hd.ends_old hs.sited hi)
            (.inr hcwd) (of_locate hn))
        have hplain : ¬ h.files.IsDirectory n := fun hdir =>
          hfile.atMostFile.not_directory (hd.isDirectory_iff.mpr hdir)
        rw [isDirectory_of_inode? hi, Bool.not_eq_true] at hplain
        obtain rfl := Option.some.inj (hi'.symm.trans (hsame hn' hi hplain))
        exact ⟨n, contents, hn', (node?_of_inode? hi).trans (congrArg some hnode'), hbytes⟩
    | none =>
        -- it was made, where the path led to nothing
        obtain ⟨p, hp, hends⟩ := hd.ends_made hs.sited hs.leads hvacant hi hi'
        exact absurd (hd.keepsPaths_before.resolve_end (h := h.withFiles fs') hends (.inr hcwd)
          (of_locate hn)) (hplaces hp)
  · rintro ⟨n, contents, hn, hfile, hbytes⟩
    obtain ⟨i, hi, hnode⟩ := Option.map_eq_some_iff.mp hfile
    have hn' : (h.withFiles fs').locate path true = .ok n := locate_of_resolve
      ((keepsPaths_between hgone hall hd).resolve_end (h := h.withFiles gone)
        (ends_between hgone hall hd hs.sited hi) (.inr (hgone.isDirectory_iff.mpr hs.cwd))
        (of_locate (hfound hn)))
    have hi' := hsame hn hi (by rw [hnode]; rfl)
    exact ⟨n, contents, hn', (node?_of_inode? hi').trans (congrArg some hnode), hbytes⟩

/-- Where a path leads it led before, but to what was made. -/
theorem resolve_of_disturbed (hs : h.Sound)
    (hd : Disturbed (fun _ => False) t places h.files fs') {p : Place}
    (hp : (h.withFiles fs').resolve path true = .ok p) :
    h.resolve path true = .ok p ∨ ∃ n, p = .existing n ∧ h.files.inode? n = none := by
  have hcwd : fs'.IsDirectory h.cwd := hd.isDirectory_iff.mpr hs.cwd
  have before : ∀ {p'}, Ends fs' h.files p p' → h.resolve path true = .ok p' := fun hends =>
    hd.keepsPaths_before.resolve_end (h := h.withFiles fs') hends (.inr hcwd) hp
  cases p with
  | existing n =>
      cases hi : h.files.inode? n with
      | none => exact .inr ⟨n, rfl, hi⟩
      | some i => exact .inl (before (hd.ends_old hs.sited hi))
  | vacant d name asDirectory =>
      refine .inl (before (.vacant (hd.sited hs.sited) ?_))
      refine Option.eq_none_iff_forall_ne_some.mpr fun m hold => ?_
      cases (of_resolve_vacant hp).2.symm.trans (hd.entries hold fun heq => heq.2)

theorem mayTake_of_disturbed (hd : Disturbed names t places h.files fs')
    (hx : h.files.IsDirectory x) : (h.withFiles fs').mayTake x = h.mayTake x := by
  obtain ⟨parent, entries, removed, hnode⟩ := hx
  obtain ⟨i, hi, -⟩ := Option.map_eq_some_iff.mp hnode
  obtain ⟨i', hi', hmode, -⟩ := hd.kept hi
  exact mayTake_of_mode hi hi' hmode

end

end Host
end WasmPackager
