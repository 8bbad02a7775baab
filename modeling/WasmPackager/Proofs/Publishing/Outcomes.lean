/-
# `Proofs.Publishing.Outcomes` — what publishing leaves once both files are staged

From there it can end in three ways, and each is read off what happened, with
no conditions on whether it will: both renamings succeed, or the first one
fails, or the second one does.  Every one of them leaves edits of the four
entries that publishing is about, and of the two files that were staged.

Two things the system does not promise are left open.  A directory that may not
be written does not let the staged files be taken away again; and a path to the
directory that runs through a link named like the module leads nowhere once that
is replaced, so that the script can be neither renamed nor taken away.
-/
import Mathlib.Control.Monad.Basic
import WasmPackager.Proofs.FileSystem.Making
import WasmPackager.Proofs.Pipeline.Scanning
import WasmPackager.Proofs.Publishing

namespace WasmPackager

namespace Outputs

open FileSystem WasmPackager.Path Host

/-! ## How publishing ends -/

/-- How publishing in a directory ends, once making the directory has left a host: it gives up where
something fails, and takes away what is at the staging names by then. -/
inductive PublishEnds (dir binary script : Bytes) (created : Except SystemError Unit)
    (left : Host) :
    Except Failure Outputs → Host → Prop
  | notCreated {cause : SystemError} : created = .error cause →
      PublishEnds dir binary script created left (.error (.directoryNotCreated dir cause)) left
  | notStaged {path : Bytes} {h' : Host} : created = .ok () →
      stageBoth (within dir) left binary script = (.error (.fileNotWritten path), h') →
      PublishEnds dir binary script created left (.error (.fileNotWritten path))
        (discard (discard h' (staging (within dir).binary)) (staging (within dir).script))
  | moduleKept {h' : Host} {cause : SystemError} : created = .ok () →
      stageBoth (within dir) left binary script = (.ok (), h') →
      h'.rename (staging (within dir).binary) (within dir).binary = .error cause →
      PublishEnds dir binary script created left
        (.error (.fileNotReplaced (within dir).binary cause))
        (discard (discard h' (staging (within dir).binary)) (staging (within dir).script))
  | scriptKept {h' h'' : Host} {cause : SystemError} : created = .ok () →
      stageBoth (within dir) left binary script = (.ok (), h') →
      h'.rename (staging (within dir).binary) (within dir).binary = .ok h'' →
      h''.rename (staging (within dir).script) (within dir).script = .error cause →
      PublishEnds dir binary script created left
        (.error (.fileNotReplaced (within dir).script cause))
        (discard h'' (staging (within dir).script))
  | replaced {h' h'' after : Host} : created = .ok () →
      stageBoth (within dir) left binary script = (.ok (), h') →
      h'.rename (staging (within dir).binary) (within dir).binary = .ok h'' →
      h''.rename (staging (within dir).script) (within dir).script = .ok after →
      PublishEnds dir binary script created left (.ok (within dir)) after

theorem of_stageBoth_error {h h' : Host} {dir binary script : Bytes} {failure : Failure}
    (hstage : stageBoth (within dir) h binary script = (.error failure, h')) :
    ∃ path, failure = .fileNotWritten path := by
  have staged : ∀ {h h' : Host} {path bytes failure}, stage h path bytes = (.error failure, h') →
      ∃ path, failure = .fileNotWritten path := by
    intro h h' path bytes failure hs
    rw [stage] at hs
    split at hs
    · cases hs
    · exact ⟨path, (Except.error.inj (Prod.mk.inj hs).1).symm⟩
  rw [stageBoth] at hstage
  split at hstage
  · exact staged hstage
  · exact staged hstage

theorem publish_ends (h : Host) (dir binary script : Bytes) :
    PublishEnds dir binary script (h.createDirectories dir).1 (h.createDirectories dir).2
      (publish dir binary script h).1 (publish dir binary script h).2 := by
  rw [publish]
  obtain ⟨created, left⟩ := h.createDirectories dir
  cases created with
  | error cause => exact .notCreated rfl
  | ok _ =>
      simp only
      cases hstage : stageBoth (within dir) left binary script with
      | mk staged h' =>
      cases staged with
      | error failure =>
          obtain ⟨path, rfl⟩ := of_stageBoth_error hstage
          exact .notStaged rfl hstage
      | ok _ =>
          simp only
          cases hfirst : h'.rename (staging (within dir).binary) (within dir).binary with
          | error cause => exact .moduleKept rfl hstage hfirst
          | ok h'' =>
              simp only
              cases hsecond : h''.rename (staging (within dir).script) (within dir).script with
              | error cause => exact .scriptKept rfl hstage hfirst hsecond
              | ok after => exact .replaced rfl hstage hfirst hsecond

/-! ## What staging tells -/

section Staging

variable {h h' : Host} {dir binary script bytes : Bytes} {t : InodeNumber} {name : Name}

theorem resolve_of_writeFile {path : Bytes} (hwrite : h.writeFile path bytes = (.ok (), h')) :
    ∃ place, h.resolve path true = .ok place := by
  rw [writeFile, openTruncated, openForWriting] at hwrite
  cases hplace : h.resolve path true with
  | error cause => simp [hplace, bind, Except.bind] at hwrite
  | ok place => exact ⟨place, rfl⟩

theorem of_stage (hzero : 0 ∉ dir) (hname : IsStaging name)
    (hspare : ∀ {t}, h.Reaches dir t → h.files.Spare t name)
    (hstage : stage h (join dir name) bytes = (.ok (), h')) :
    ∃ t x fs', h.Enters dir t ∧ (join dir name).length < pathLimit ∧ h.Writable t name ∧
      h' = h.withFiles fs' ∧ Written t name x bytes h.files fs' := by
  have hwrite : h.writeFile (join dir name) bytes = (.ok (), h') := by
    rw [stage] at hstage
    split at hstage
    · next hw => rw [hw, ← (Prod.mk.inj hstage).2]
    · cases hstage
  obtain ⟨place, hplace⟩ := resolve_of_writeFile hwrite
  obtain ⟨hshort, t, hreaches, hpass, -⟩ := of_resolve_join hzero hname.isName hplace
  have henters : h.Enters dir t := ⟨hzero, hreaches, hpass⟩
  by_cases hgranted : h.Writable t name ∧ bytes.length ≤ Contents.limit
  · obtain ⟨x, fs', hdone, hwritten⟩ := stage_of_granted henters hname hshort (hspare hreaches)
      hgranted.1 hgranted.2
    exact ⟨t, x, fs', henters, hshort, hgranted.1, (Prod.mk.inj (hstage.symm.trans hdone)).2,
      hwritten⟩
  · obtain ⟨f, after, hfailed⟩ :=
      stage_of_not_granted henters hname hshort (hspare hreaches) hgranted
    cases (Prod.mk.inj (hstage.symm.trans hfailed)).1

theorem of_stageBoth (hzero : 0 ∉ dir) (hleads : h.files.Leads)
    (hspare : ∀ {t name}, h.Reaches dir t → IsStaging name → h.files.Spare t name)
    (hstage : stageBoth (within dir) h binary script = (.ok (), h')) :
    ∃ t x y fs', Stageable h dir t ∧
      (∀ {name}, IsStaging name → (join dir name).length < pathLimit) ∧
      (∀ {name}, IsStaging name → h.Writable t name) ∧ h' = h.withFiles fs' ∧
      Staged t x y binary script h.files fs' := by
  simp only [stageBoth, within, staging_join] at hstage
  split at hstage
  · next h₁ hfirst =>
    obtain ⟨t, x, fs₁, henters, hshort, hgranted, rfl, hbinary⟩ :=
      of_stage hzero staging_binary (fun hr => hspare hr staging_binary) hfirst
    have hs : Stageable h dir t := ⟨henters, hleads, hspare henters.reaches⟩
    obtain ⟨henters₁, hleads₁, hspare₁, hwritable₁⟩ := stageable_of_written hs hbinary
    obtain ⟨t', y, fs₂, henters', hshort', hgranted', rfl, hscript⟩ :=
      of_stage hzero staging_script (fun hr => henters₁.reaches.unique hr ▸ hspare₁) hstage
    obtain rfl := henters₁.reaches.unique henters'.reaches
    refine ⟨_, x, y, fs₂, hs, ?_, ?_, rfl, staged_of_written hs hbinary hscript⟩
    · rintro name (rfl | rfl)
      · exact hshort
      · exact hshort'
    · rintro name (rfl | rfl)
      · exact hgranted
      · exact hwritable₁.mp hgranted'
  · next hfailed =>
    exact absurd hstage (hfailed _)

end Staging

/-! ## What discarding does -/

theorem found_of_isFile {fs : FileSystem} {n : InodeNumber} {contents : Contents}
    (hfile : fs.IsFile n contents) : ¬ fs.IsDirectory n ∧ ∃ i, fs.inode? n = some i := by
  obtain ⟨i, hi, -⟩ := Option.map_eq_some_iff.mp hfile
  exact ⟨hfile.atMostFile.not_directory, i, hi⟩

section Discarding

variable {h : Host} {dir : Bytes} {t : InodeNumber} {name : Name}

/-- Discarding does nothing, or takes away the entry of a file, of a link or of an empty
directory. -/
theorem discard_cases (hzero : 0 ∉ dir) (hname : IsName name)
    (honly : ∀ {d}, h.Reaches dir d → d = t) :
    (∃ cause, h.remove (join dir name) = .error cause ∧ discard h (join dir name) = h) ∨
      ∃ n i, h.files.child? t name = some n ∧ h.files.inode? n = some i ∧
        (i.node.isDirectory = false ∧
            discard h (join dir name) = h.withFiles (h.files.detach t name) ∨
          ∃ parent removed, i.node = .dir parent [] removed ∧
            discard h (join dir name) = h.withFiles ((h.files.detach t name).markRemoved n)) := by
  cases hremove : h.remove (join dir name) with
  | error cause => exact .inl ⟨cause, rfl, by rw [discard, hremove]; rfl⟩
  | ok h' =>
      obtain ⟨s, last, n, i, hr⟩ := of_remove hremove
      obtain ⟨-, d, hd, -, hs⟩ := (slot_join_iff hzero hname).mp hr.slot
      obtain rfl := honly hd
      obtain ⟨rfl, hlast⟩ : s = ⟨d, .entry name, false⟩ ∧ LastName.entry last = .entry name := by
        refine ⟨hs, ?_⟩
        rw [← hr.last, hs]
      obtain rfl := LastName.entry.inj hlast
      refine .inr ⟨n, i, hr.child, hr.inode, ?_⟩
      rcases hr.result with ⟨hplain, rfl⟩ | ⟨parent, removed, hnode, rfl⟩
      · exact .inl ⟨hplain, by rw [discard, hremove]; rfl⟩
      · exact .inr ⟨parent, removed, hnode, by rw [discard, hremove]; rfl⟩

/-- Discarding a file takes its entry away or does nothing, and does take it away where that is
granted. -/
theorem discard_join (hzero : 0 ∉ dir) (hname : IsName name) (ht : h.files.IsDirectory t)
    (honly : ∀ {d}, h.Reaches dir d → d = t)
    (hplain : ∀ {n}, h.files.child? t name = some n →
      ¬ h.files.IsDirectory n ∧ ∃ i, h.files.inode? n = some i) :
    ∃ fs', discard h (join dir name) = h.withFiles fs' ∧
      Edits t (· = name) (fun _ => False) h.files fs' ∧
      (fs'.child? t name = none ∨ fs'.child? t name = h.files.child? t name) ∧
      (h.Enters dir t → (join dir name).length < pathLimit → h.mayTake t = .ok () →
        fs'.child? t name = none) := by
  rcases discard_cases hzero hname honly with
    ⟨cause, hremove, hdiscard⟩ | ⟨n, i, hchild, hi, ⟨-, hdiscard⟩ | ⟨parent, removed, hnode, -⟩⟩
  · refine ⟨h.files, hdiscard, .refl _ nofun, .inr rfl, fun henters hshort htake => ?_⟩
    cases hchild : h.files.child? t name with
    | none => rfl
    | some n =>
        obtain ⟨hfile, i, hi⟩ := hplain hchild
        rw [isDirectory_iff, node?_of_inode? hi] at hfile
        rw [remove_join henters hname hshort hchild hi (by simpa using hfile) htake] at hremove
        cases hremove
  · have gone : (h.files.detach t name).child? t name = none := by
      rw [child?_detach ht, if_pos ⟨rfl, rfl⟩]
    exact ⟨h.files.detach t name, hdiscard,
      edits_detach (t := t) (· = name) (fun _ => False) nofun ht name rfl, .inl gone,
      fun _ _ _ => gone⟩
  · refine absurd ⟨parent, [], removed, ?_⟩ (hplain hchild).1
    exact (node?_of_inode? hi).trans (congrArg some hnode)

end Discarding

/-! ## What is left alone -/

/-- Nothing happened but at the four entries that publishing in `t` is about, and to the files that
were staged there. -/
structure Confined (left after : Host) (dir : Bytes) (t : InodeNumber) : Prop where
  cwd : after.cwd = left.cwd
  elsewhere : ∀ loc, ¬ Touched left dir loc → after.files.seen loc = left.files.seen loc
  others : ∀ {n i}, n ≠ t → (∀ name, IsStaging name → left.files.child? t name ≠ some n) →
    left.files.inode? n = some i → after.files.inode? n = some i

/-- An entry is there as it was, and what it leads to is as it was. -/
structure AsBefore (left after : Host) (t : InodeNumber) (name : Name) : Prop where
  entry : after.files.child? t name = left.files.child? t name
  inode : ∀ {n}, left.files.child? t name = some n →
    after.files.inode? n = left.files.inode? n

section Staged

variable {left h₃ : Host} {dir binary script : Bytes} {t x y : InodeNumber} {fs₂ : FileSystem}
  (hs : Stageable left dir t)
  (hshort : ∀ {name}, IsStaging name → (join dir name).length < pathLimit)
  (hwritable : ∀ {name}, IsStaging name → left.Writable t name)
  (hstaged : Staged t x y binary script left.files fs₂)

section Edited

variable {names : Name → Prop} {fs' : FileSystem}
  (hedits : Edits t names (fun n => n = x ∨ n = y) left.files fs')

include hs hwritable hstaged hedits in
/-- Edits of the four entries are confined, if those that are edited led to no directories and lead
to the staged files only. -/
theorem confined_of_edits (hroot : left.files.IsDirectory root)
    (hnames : ∀ {name}, names name → IsOutput name ∨ IsStaging name)
    (hstaging : ∀ {name}, IsStaging name → names name)
    (hplain : ∀ {name n}, names name → IsOutput name → left.files.child? t name = some n →
      ¬ left.files.IsDirectory n)
    (hnew : ∀ {name n}, names name → fs'.child? t name = some n → n = x ∨ n = y) :
    Confined left (left.withFiles fs') dir t := by
  have ht := hs.enters.reaches.isDirectory
  refine ⟨rfl, fun loc hloc => ?_, fun {n i} hne hother hi => ?_⟩
  · refine seen_of_edits hedits ht hroot ?_ ?_ ?_ fun front name heq hfront hname =>
      hloc ⟨t, front, name, hs.enters.reaches, hfront, heq, hnames hname⟩
    · intro name n hname hchild
      rcases hnames hname with houtput | hstage
      · exact hplain hname houtput hchild
      · exact (hwritable hstage).plain hchild
    · exact fun hname hchild => (hedits.after (hnew hname hchild)).not_directory
    · intro d name n hn hchild
      obtain ⟨hd, hname⟩ := hstaged.own hn hchild
      exact ⟨hd, hstaging hname⟩
  · refine (hedits.inode?_eq hne fun hn => ?_).trans hi
    rcases hstaged.origin hn with ⟨name, hname, hchild⟩ | hfresh
    · exact hother name hname hchild
    · cases hfresh.symm.trans hi

include hstaged hedits in
theorem asBefore_of_edits {name : Name} (houtput : IsOutput name) (hname : ¬ names name)
    (hself : left.files.child? t name ≠ some t) : AsBefore left (left.withFiles fs') t name := by
  refine ⟨hedits.child?_eq fun heq => hname heq.2, fun {n} hchild => ?_⟩
  refine hedits.inode?_eq (fun heq => hself (heq ▸ hchild)) fun hn => ?_
  exact (hstaged.own hn hchild).2.not_output houtput

end Edited

include hs hwritable hstaged in
theorem enters_of_staged : (left.withFiles fs₂).Enters dir t := by
  refine hs.enters.keep (hstaged.edits.keepsPaths hs.enters.reaches.isDirectory ?_)
  intro name n hname hchild
  have hfile := (hwritable hname).plain hchild
  obtain ⟨⟨contents, hcontents⟩, -⟩ := hs.spare hname hchild hfile
  exact ⟨hfile, hcontents.atMostFile.not_link⟩

/-! ## The module is not replaced -/

include hs hshort hwritable hstaged in
theorem discarded_of_staged :
    ∃ fs', discard (discard (left.withFiles fs₂) (staging (within dir).binary))
        (staging (within dir).script) = left.withFiles fs' ∧
      Edits t IsStaging (fun n => n = x ∨ n = y) left.files fs' ∧
      (∀ {name n}, IsStaging name → fs'.child? t name = some n → n = x ∨ n = y) ∧
      (left.mayTake t = .ok () → ∀ {name}, IsStaging name → fs'.child? t name = none) := by
  have ht := hs.enters.reaches.isDirectory
  have ht₂ := hstaged.edits.isDirectory ht
  have henters₂ := enters_of_staged hs hwritable hstaged
  obtain ⟨fs₃, hfirst, hedits₃, hbinary, hgone⟩ := discard_join hs.enters.zeroFree
    staging_binary.isName ht₂ (fun hd => henters₂.reaches.unique hd) (fun {n} hchild => by
      obtain rfl := Option.some.inj (hstaged.binaryEntry.symm.trans hchild)
      exact found_of_isFile hstaged.binaryFile)
  have hkeeps₃ : KeepsPaths fs₂ fs₃ := hedits₃.keepsPaths ht₂ fun {name n} heq hchild => by
    subst heq
    obtain rfl := Option.some.inj (hstaged.binaryEntry.symm.trans hchild)
    exact ⟨hstaged.binaryFile.atMostFile.not_directory, hstaged.binaryFile.atMostFile.not_link⟩
  have henters₃ : (left.withFiles fs₃).Enters dir t := henters₂.keep hkeeps₃
  have ht₃ := hedits₃.isDirectory ht₂
  have hentry₃ : fs₃.child? t (stagingName Loader.scriptName) = some y := by
    rw [hedits₃.child?_eq fun heq => staging_ne heq.2]
    exact hstaged.scriptEntry
  have hyt : y ≠ t := hstaged.edits.ne_of_staged ht (.inr rfl)
  have hfile₃ : fs₃.IsFile y (.ofBytes script) := by
    rw [IsFile, node?, hedits₃.inode?_eq hyt id]
    exact hstaged.scriptFile
  obtain ⟨fs₄, hsecond, hedits₄, hscript, hgone'⟩ := discard_join (h := left.withFiles fs₃)
    hs.enters.zeroFree staging_script.isName ht₃ (fun hd => henters₃.reaches.unique hd)
    (fun {n} hchild => by
      obtain rfl := Option.some.inj (hentry₃.symm.trans hchild)
      exact found_of_isFile hfile₃)
  have first : Edits t IsStaging (fun n => n = x ∨ n = y) left.files fs₃ := by
    refine hstaged.edits.trans (hedits₃.mono ht₂ ?_ False.elim hstaged.edits.after)
    rintro name rfl
    exact staging_binary
  have whole : Edits t IsStaging (fun n => n = x ∨ n = y) left.files fs₄ := by
    refine first.trans (hedits₄.mono ht₃ ?_ False.elim first.after)
    rintro name rfl
    exact staging_script
  have hbinary₄ : fs₄.child? t (stagingName Loader.binaryName) =
      fs₃.child? t (stagingName Loader.binaryName) :=
    hedits₄.child?_eq fun heq => staging_ne heq.2.symm
  refine ⟨fs₄, ?_, whole, ?_, fun htake => ?_⟩
  · simp only [within, staging_join]
    rw [hfirst]
    exact hsecond
  · rintro name n (rfl | rfl) hchild
    · rw [hbinary₄] at hchild
      rcases hbinary with hnone | hsame
      · cases hnone.symm.trans hchild
      · exact .inl (Option.some.inj (hchild.symm.trans (hsame.trans hstaged.binaryEntry)))
    · rcases hscript with hnone | hsame
      · cases hnone.symm.trans hchild
      · exact .inr (Option.some.inj (hchild.symm.trans (hsame.trans hentry₃)))
  · rintro name (rfl | rfl)
    · rw [hbinary₄]
      exact hgone henters₂ (hshort staging_binary)
        ((mayTake_of_edits hstaged.edits ht).trans htake)
    · exact hgone' henters₃ (hshort staging_script) ((mayTake_of_edits first ht).trans htake)

/-! ## The module is replaced -/

include hs hwritable hstaged in
/-- What the module took the place of was no directory.  The path to the directory can only have
been lost. -/
theorem of_rename_binary
    (hrename : (left.withFiles fs₂).rename (staging (within dir).binary) (within dir).binary =
      .ok h₃) :
    ∃ fs₃, h₃ = left.withFiles fs₃ ∧
      Renamed t (stagingName Loader.binaryName) Loader.binaryName x fs₂ fs₃ ∧
      left.mayTake t = .ok () ∧ KeepsPaths fs₃ fs₂ ∧
      ∀ {n}, left.files.child? t Loader.binaryName = some n → ¬ left.files.IsDirectory n := by
  have ht := hs.enters.reaches.isDirectory
  have ht₂ := hstaged.edits.isDirectory ht
  have houtput : IsOutput Loader.binaryName := .inl rfl
  have hsame : fs₂.child? t Loader.binaryName = left.files.child? t Loader.binaryName :=
    hstaged.edits.child?_eq fun heq => heq.2.not_output houtput
  rw [within, staging_join] at hrename
  obtain ⟨fs₃, rfl, hrenamed, htake, hplain⟩ := renamed_of_rename
    (enters_of_staged hs hwritable hstaged) staging_binary.isName houtput.isName (by decide)
    hstaged.binaryEntry hstaged.binaryFile (fun {old} hold heq => by
      exact (hstaged.own (.inl heq) (hsame.symm.trans hold)).2.not_output houtput) hrename
  refine ⟨fs₃, rfl, hrenamed, (mayTake_of_edits hstaged.edits ht).symm.trans htake, ?_, ?_⟩
  · -- what is at the two entries now is no directory and no link
    refine (hrenamed.edits.symm ht₂).keepsPaths (hrenamed.edits.isDirectory ht₂) ?_
    have hfile : fs₃.IsFile x (.ofBytes binary) := by
      rw [IsFile, node?, hrenamed.edits.inode?_eq (hstaged.edits.ne_of_staged ht (.inl rfl)) id]
      exact hstaged.binaryFile
    rintro name n (rfl | rfl) hchild
    · cases hrenamed.gone.symm.trans hchild
    · obtain rfl := Option.some.inj (hrenamed.entry.symm.trans hchild)
      exact ⟨hfile.atMostFile.not_directory, hfile.atMostFile.not_link⟩
  · exact fun hchild hdir => hplain (hsame.trans hchild) (hstaged.edits.isDirectory hdir)

section Renamed

variable {h₄ : Host} {fs₃ : FileSystem} (hback : KeepsPaths fs₃ fs₂)

include hs hwritable hstaged hback in
theorem reaches_of_renamed {d : InodeNumber} (hd : (left.withFiles fs₃).Reaches dir d) : d = t :=
  (enters_of_staged hs hwritable hstaged).reaches.unique
    (hback.reaches (h := left.withFiles fs₃) hd)

include hs hwritable hstaged hback in
theorem enters_of_renamed (hd : (left.withFiles fs₃).Reaches dir t) :
    (left.withFiles fs₃).Enters dir t := by
  have ht₃ : fs₃.IsDirectory t := hd.isDirectory
  exact ⟨hs.enters.zeroFree, hd,
    (hback.passes ht₃).symm.trans (enters_of_staged hs hwritable hstaged).passable⟩

variable (hbinary : Renamed t (stagingName Loader.binaryName) Loader.binaryName x fs₂ fs₃)

include hs hshort hwritable hstaged hbinary hback in
theorem discarded_of_renamed (htake : left.mayTake t = .ok ()) :
    ∃ fs', discard (left.withFiles fs₃) (staging (within dir).script) = left.withFiles fs' ∧
      Edits t (fun name => name = Loader.binaryName ∨ IsStaging name) (fun n => n = x ∨ n = y)
        left.files fs' ∧
      fs'.child? t Loader.binaryName = some x ∧ fs'.IsFile x (.ofBytes binary) ∧
      fs'.child? t (stagingName Loader.binaryName) = none ∧
      (∀ {n}, fs'.child? t (stagingName Loader.scriptName) = some n → n = y) ∧
      ((left.withFiles fs').Reaches dir t →
        fs'.child? t (stagingName Loader.scriptName) = none) := by
  have ht := hs.enters.reaches.isDirectory
  obtain ⟨hedits₃, hentry₃, hkept₃⟩ := staged_of_renamed ht hstaged hbinary
  have ht₃ := hedits₃.isDirectory ht
  have hfile₃ : fs₃.IsFile y (.ofBytes script) := by
    rw [IsFile, node?, hkept₃ (.inr rfl)]
    exact hstaged.scriptFile
  obtain ⟨fs₄, hdiscard, hedits₄, hscript, hgone⟩ := discard_join (h := left.withFiles fs₃)
    hs.enters.zeroFree staging_script.isName ht₃
    (fun hd => reaches_of_renamed hs hwritable hstaged hback hd) (fun {n} hchild => by
      obtain rfl := Option.some.inj (hentry₃.symm.trans hchild)
      exact found_of_isFile hfile₃)
  have hother : ∀ {name}, name ≠ stagingName Loader.scriptName →
      fs₄.child? t name = fs₃.child? t name := fun hne => hedits₄.child?_eq fun heq => hne heq.2
  have hkept₄ : ∀ {n}, n = x ∨ n = y → fs₄.inode? n = fs₃.inode? n := fun hn =>
    hedits₄.inode?_eq (hedits₃.ne_of_staged ht hn) id
  have hleft : ∀ {n}, fs₄.child? t (stagingName Loader.scriptName) = some n → n = y := by
    intro n hchild
    rcases hscript with hnone | hsame
    · cases hnone.symm.trans hchild
    · exact Option.some.inj (hchild.symm.trans (hsame.trans hentry₃))
  refine ⟨fs₄, ?_, hedits₃.trans (hedits₄.mono ht₃ ?_ False.elim hedits₃.after), ?_, ?_, ?_, hleft,
    fun hd => ?_⟩
  · simp only [within, staging_join]
    exact hdiscard
  · rintro name rfl
    exact .inr staging_script
  · rw [hother (by decide)]
    exact hbinary.entry
  · rw [IsFile, node?, hkept₄ (.inl rfl), hkept₃ (.inl rfl)]
    exact hstaged.binaryFile
  · rw [hother (Ne.symm staging_ne)]
    exact hbinary.gone
  · -- discarding did not make the path lead to the directory
    have hfile₄ : fs₄.IsFile y (.ofBytes script) := by
      rw [IsFile, node?, hkept₄ (.inr rfl)]
      exact hfile₃
    have hback₄ : KeepsPaths fs₄ fs₃ := by
      refine (hedits₄.symm ht₃).keepsPaths (hedits₄.isDirectory ht₃) ?_
      rintro name n rfl hchild
      obtain rfl := hleft hchild
      exact ⟨hfile₄.atMostFile.not_directory, hfile₄.atMostFile.not_link⟩
    refine hgone (enters_of_renamed hs hwritable hstaged hback ?_) (hshort staging_script)
      ((mayTake_of_edits hedits₃ ht).trans htake)
    exact hback₄.reaches (h := left.withFiles fs₄) hd

include hs hwritable hstaged hbinary hback in
theorem of_rename_script
    (hrename : (left.withFiles fs₃).rename (staging (within dir).script) (within dir).script =
      .ok h₄) :
    ∃ fs₄, h₄ = left.withFiles fs₄ ∧ Published t x y binary script left.files fs₄ ∧
      ∀ {n}, left.files.child? t Loader.scriptName = some n → ¬ left.files.IsDirectory n := by
  have ht := hs.enters.reaches.isDirectory
  obtain ⟨hedits₃, hentry₃, hkept₃⟩ := staged_of_renamed ht hstaged hbinary
  have houtput : IsOutput Loader.scriptName := .inr rfl
  have hsame : fs₃.child? t Loader.scriptName = left.files.child? t Loader.scriptName := by
    refine hedits₃.child?_eq ?_
    rintro ⟨-, heq | hname⟩
    · revert heq
      decide
    · exact hname.not_output houtput
  have hfile₃ : fs₃.IsFile y (.ofBytes script) := by
    rw [IsFile, node?, hkept₃ (.inr rfl)]
    exact hstaged.scriptFile
  rw [within, staging_join] at hrename
  obtain ⟨s, -, hslot, -⟩ := slots_of_rename hrename
  obtain ⟨-, d, hd, -, -⟩ := (slot_join_iff hs.enters.zeroFree staging_script.isName).mp hslot
  obtain rfl := reaches_of_renamed hs hwritable hstaged hback hd
  obtain ⟨fs₄, rfl, hscript, -, hplain⟩ := renamed_of_rename
    (enters_of_renamed hs hwritable hstaged hback hd) staging_script.isName houtput.isName
    (by decide) hentry₃ hfile₃ (fun {old} hold heq => by
      exact (hstaged.own (.inr heq) (hsame.symm.trans hold)).2.not_output houtput) hrename
  refine ⟨fs₄, rfl, published_of_renamed ht hstaged hbinary hscript, fun hchild hdir => ?_⟩
  exact hplain (hsame.trans hchild) (hedits₃.isDirectory hdir)

end Renamed

end Staged

/-! ## All outcomes -/

section Outcomes

variable {h left after : Host} {dir binary script : Bytes} {t : InodeNumber}

structure Replaced (left after : Host) (dir : Bytes) (t : InodeNumber) (binary script : Bytes) :
    Prop where
  confined : Confined left after dir t
  binary : after.files.HasFile t Loader.binaryName (.ofBytes binary)
  script : after.files.HasFile t Loader.scriptName (.ofBytes script)
  unstaged : ∀ {name}, IsStaging name → after.files.child? t name = none

structure BothKept (left after : Host) (dir : Bytes) (t : InodeNumber) : Prop where
  confined : Confined left after dir t
  outputs : ∀ {name}, IsOutput name → AsBefore left after t name
  unstaged : left.mayTake t = .ok () → ∀ {name}, IsStaging name → after.files.child? t name = none

/-- The module is there, and the script is as it was. -/
structure ScriptKept (left after : Host) (dir : Bytes) (t : InodeNumber) (binary : Bytes) :
    Prop where
  confined : Confined left after dir t
  binary : after.files.HasFile t Loader.binaryName (.ofBytes binary)
  script : AsBefore left after t Loader.scriptName
  unstagedBinary : after.files.child? t (stagingName Loader.binaryName) = none
  unstagedScript : after.Reaches dir t →
    after.files.child? t (stagingName Loader.scriptName) = none

section Staged

variable {x y : InodeNumber} {fs₂ : FileSystem} (hs : Stageable left dir t)
  (hshort : ∀ {name}, IsStaging name → (join dir name).length < pathLimit)
  (hwritable : ∀ {name}, IsStaging name → left.Writable t name)
  (hstaged : Staged t x y binary script left.files fs₂)
  (hroot : left.files.IsDirectory root)
  (hself : ∀ {name}, left.files.child? t name ≠ some t)

include hs hshort hwritable hstaged hroot hself in
theorem bothKept_of_staged : BothKept left
    (discard (discard (left.withFiles fs₂) (staging (within dir).binary))
      (staging (within dir).script)) dir t := by
  obtain ⟨fs', hdiscard, hedits, hnew, hgone⟩ := discarded_of_staged hs hshort hwritable hstaged
  rw [hdiscard]
  refine ⟨?_, fun houtput => ?_, hgone⟩
  · exact confined_of_edits hs hwritable hstaged hedits hroot .inr id
      (fun hname houtput => absurd houtput hname.not_output) hnew
  · exact asBefore_of_edits hstaged hedits houtput (fun hname => hname.not_output houtput) hself

include hs hshort hwritable hstaged hroot hself in
theorem scriptKept_of_renamed {fs₃ : FileSystem} (hback : KeepsPaths fs₃ fs₂)
    (hbinary : Renamed t (stagingName Loader.binaryName) Loader.binaryName x fs₂ fs₃)
    (htake : left.mayTake t = .ok ())
    (hplain : ∀ {n}, left.files.child? t Loader.binaryName = some n → ¬ left.files.IsDirectory n) :
    ScriptKept left (discard (left.withFiles fs₃) (staging (within dir).script)) dir t binary := by
  obtain ⟨fs', hdiscard, hedits, hentry, hfile, hgone, hleft, hreached⟩ :=
    discarded_of_renamed hs hshort hwritable hstaged hback hbinary htake
  rw [hdiscard]
  refine ⟨?_, ⟨x, hentry, hfile⟩, ?_, hgone, hreached⟩
  · refine confined_of_edits hs hwritable hstaged hedits hroot ?_ .inr ?_ ?_
    · rintro name (rfl | hname)
      · exact .inl (.inl rfl)
      · exact .inr hname
    · rintro name n (rfl | hname) houtput hchild
      · exact hplain hchild
      · exact absurd houtput hname.not_output
    · rintro name n (rfl | rfl | rfl) hchild
      · exact .inl (Option.some.inj (hchild.symm.trans hentry))
      · cases hgone.symm.trans hchild
      · exact .inr (hleft hchild)
  · refine asBefore_of_edits hstaged hedits (.inr rfl) ?_ hself
    rintro (heq | hname)
    · revert heq
      decide
    · exact hname.not_output (.inr rfl)

include hs hwritable hstaged hroot in
theorem replaced_of_published {fs₄ : FileSystem} (hp : Published t x y binary script left.files fs₄)
    (hplain : ∀ {name n}, IsOutput name → left.files.child? t name = some n →
      ¬ left.files.IsDirectory n) :
    Replaced left (left.withFiles fs₄) dir t binary script := by
  refine ⟨?_, ⟨x, hp.binaryEntry, hp.binaryFile⟩, ⟨y, hp.scriptEntry, hp.scriptFile⟩, hp.unstaged⟩
  refine confined_of_edits hs hwritable hstaged hp.edits hroot id .inr (fun _ => hplain) ?_
  rintro name n ((rfl | rfl) | hname) hchild
  · exact .inl (Option.some.inj (hchild.symm.trans hp.binaryEntry))
  · exact .inr (Option.some.inj (hchild.symm.trans hp.scriptEntry))
  · cases (hp.unstaged hname).symm.trans hchild

end Staged

/-- Where nothing stands at the staging names but directories and files that have no other name,
publishing leaves both outputs replaced, or both as they were, or the module replaced and the
script as it was; and nothing else that is not on the way to the directory. -/
theorem publish_outcomes (htree : h.files.IsTree)
    (hspare : ∀ {t name}, (h.createDirectories dir).2.Reaches dir t → IsStaging name →
      h.files.Spare t name) :
    let left := (h.createDirectories dir).2
    let result := (publish dir binary script h).1
    let after := (publish dir binary script h).2
    Furnished (OnWay dir) h left ∧
      (∀ outputs, result = .ok outputs → outputs = within dir ∧
        ∃ t, left.Reaches dir t ∧ Replaced left after dir t binary script) ∧
      (∀ cause, result = .error (.fileNotReplaced (within dir).binary cause) →
        ∃ t, left.Reaches dir t ∧ BothKept left after dir t) ∧
      ∀ cause, result = .error (.fileNotReplaced (within dir).script cause) →
        ∃ t, left.Reaches dir t ∧ ScriptKept left after dir t binary := by
  intro left result after
  have hf : Furnished (OnWay dir) h left := furnished_createDirectories h dir
  have hroot : left.files.IsDirectory root := hf.isDirectory htree.rooted
  have hleads : left.files.Leads :=
    hf.leads fun hchild => htree.leads _ _ (mem_entries_of_child? hchild)
  have hapart : (within dir).binary ≠ (within dir).script := fun heq =>
    absurd (join_injective dir heq) (by decide)
  have hzeroFree : ∀ {h'}, (h.createDirectories dir).1 = .ok () →
      stageBoth (within dir) left binary script = (.ok (), h') → 0 ∉ dir := by
    intro h' hcreated hstage hzero
    -- both files would be written over the directory
    have hstands : left.isDirectory dir = true := isDirectory_of_created hzero hcreated
    have hstaged : left.isDirectory (staging (within dir).binary) = true := by
      rw [within, staging_join, isDirectory, stat_congr (readable_join_of_zero hzero _)]
      exact hstands
    simp [stageBoth, stage, writeFile_of_isDirectory hstaged] at hstage
  have hself : ∀ {t name}, left.files.IsDirectory t → left.files.child? t name ≠ some t :=
    hf.child?_ne_self htree
  have hspare' : ∀ {t name}, left.Reaches dir t → IsStaging name → left.files.Spare t name :=
    fun hd hname => hf.spare (hspare hd hname)
  have hends : PublishEnds dir binary script (h.createDirectories dir).1 left result after :=
    publish_ends h dir binary script
  clear_value result after left
  refine ⟨hf, ?_⟩
  cases hends with
  | notCreated | notStaged =>
      refine ⟨fun _ heq => ?_, fun _ heq => ?_, fun _ heq => ?_⟩ <;> cases heq
  | moduleKept hcreated hstage hfirst =>
      obtain ⟨t, x, y, fs₂, hs, hshort, hwritable, rfl, hstaged⟩ :=
        of_stageBoth (hzeroFree hcreated hstage) hleads hspare' hstage
      have hkept := bothKept_of_staged hs hshort hwritable hstaged hroot
        (hself hs.enters.reaches.isDirectory)
      refine ⟨fun _ heq => ?_, fun _ _ => ⟨t, hs.enters.reaches, hkept⟩, fun _ heq => ?_⟩
      · cases heq
      · exact absurd (Failure.fileNotReplaced.inj (Except.error.inj heq)).1 hapart
  | scriptKept hcreated hstage hfirst hsecond =>
      obtain ⟨t, x, y, fs₂, hs, hshort, hwritable, rfl, hstaged⟩ :=
        of_stageBoth (hzeroFree hcreated hstage) hleads hspare' hstage
      obtain ⟨fs₃, rfl, hbinary, htake, hback, hplain⟩ :=
        of_rename_binary hs hwritable hstaged hfirst
      have hkept := scriptKept_of_renamed hs hshort hwritable hstaged hroot
        (hself hs.enters.reaches.isDirectory) hback hbinary htake hplain
      refine ⟨fun _ heq => ?_, fun _ heq => ?_, fun _ _ => ⟨t, hs.enters.reaches, hkept⟩⟩
      · cases heq
      · exact absurd (Failure.fileNotReplaced.inj (Except.error.inj heq)).1.symm hapart
  | replaced hcreated hstage hfirst hsecond =>
      obtain ⟨t, x, y, fs₂, hs, hshort, hwritable, rfl, hstaged⟩ :=
        of_stageBoth (hzeroFree hcreated hstage) hleads hspare' hstage
      obtain ⟨fs₃, rfl, hbinary, htake, hback, hplain⟩ :=
        of_rename_binary hs hwritable hstaged hfirst
      obtain ⟨fs₄, rfl, hp, hplain'⟩ := of_rename_script hs hwritable hstaged hback hbinary hsecond
      have hreplaced := replaced_of_published hs hwritable hstaged hroot hp fun hname => by
        rcases hname with rfl | rfl
        · exact hplain
        · exact hplain'
      refine ⟨fun outputs heq => ⟨(Except.ok.inj heq).symm, t, hs.enters.reaches, hreplaced⟩,
        fun _ heq => ?_, fun _ heq => ?_⟩ <;> cases heq

end Outcomes

/-! ## Each outcome -/

/-- A directory `/d` with the given permissions and entries, among which there can be a file that is
`/keep`, too, a device, two files staged earlier, a directory and a link. -/
def sample (mode : Nat) (target : Bytes) (entries : List (Name × InodeNumber)) : Host where
  files := {
    inodes := #[
      ⟨.dir 0 [(ascii "d", 1), (ascii "keep", 2)] false, Inode.directoryMode, 0⟩,
      ⟨.dir 0 entries false, mode, 0⟩,
      ⟨.file (.ofBytes (ascii "kept")), Inode.fileMode, 0⟩,
      ⟨.device .null, Inode.fileMode, 0⟩,
      ⟨.file (.ofBytes (ascii "stale")), Inode.fileMode, 0⟩,
      ⟨.file (.ofBytes (ascii "stale")), Inode.fileMode, 0⟩,
      ⟨.dir 1 [] false, Inode.directoryMode, 0⟩,
      ⟨.link target, Inode.linkMode, 0⟩]
    clock := 1 }
  cwd := 0

def publishSample (dir : Bytes) (h : Host) : Except Failure Outputs × Host :=
  publish dir (ascii "module") (ascii "script") h

/-- Publishing ends in each of the ways: in a directory that is made for it, in one that has a
directory in the place of the module, and in one that has a directory in the place of the script. -/
theorem publish_outcomes_sample :
    let dir := ascii "/d"
    let new := ascii "/d/a/b"
    let here := ascii "."
    let stale := sample Inode.directoryMode here [(stagingName Loader.binaryName, 4)]
    let noModule := sample Inode.directoryMode here [(Loader.binaryName, 6)]
    let noScript := sample Inode.directoryMode here
      [(Loader.binaryName, 7), (Loader.scriptName, 6), (stagingName Loader.scriptName, 5)]
    (stale.files.IsTree ∧ noModule.files.IsTree ∧ noScript.files.IsTree) ∧
      Furnished (OnWay new) stale (stale.createDirectories new).2 ∧
      (∃ t, (stale.createDirectories new).2.Reaches new t ∧
        Replaced (stale.createDirectories new).2 (publishSample new stale).2 new t (ascii "module")
          (ascii "script")) ∧
      (∃ t, (noModule.createDirectories dir).2.Reaches dir t ∧
        BothKept (noModule.createDirectories dir).2 (publishSample dir noModule).2 dir t) ∧
      ∃ t, (noScript.createDirectories dir).2.Reaches dir t ∧
        ScriptKept (noScript.createDirectories dir).2 (publishSample dir noScript).2 dir t
          (ascii "module") := by
  intro dir new here stale noModule noScript
  have hstale : stale.files.IsTree := isTree_of_forall (by decide) (by decide)
  have hnoModule : noModule.files.IsTree := isTree_of_forall (by decide) (by decide)
  have hnoScript : noScript.files.IsTree := isTree_of_forall (by decide) (by decide)
  obtain ⟨hmade, hreplaced, -⟩ := @publish_outcomes stale new (ascii "module") (ascii "script")
    hstale fun _ => spare_of_forall (by decide +kernel)
  obtain ⟨-, -, hboth, -⟩ := @publish_outcomes noModule dir (ascii "module") (ascii "script")
    hnoModule fun _ => spare_of_forall (by decide +kernel)
  obtain ⟨-, -, -, hscript⟩ := @publish_outcomes noScript dir (ascii "module") (ascii "script")
    hnoScript fun _ => spare_of_forall (by decide +kernel)
  exact ⟨⟨hstale, hnoModule, hnoScript⟩, hmade, (hreplaced (within new) (by decide +kernel)).2,
    hboth .isDirectory (by decide +kernel), hscript .isDirectory (by decide +kernel)⟩

/-- What stands at the staging names is no link. -/
def unlinked (dir : Bytes) (h : Host) : Bool :=
  [(within dir).binary, (within dir).script].all fun output =>
    match h.statLink (staging output) with
    | .ok i => !i.node.isLink
    | .error _ => true

/-- Where a staging name is that of something else, and where the staged files cannot be taken away,
publishing can change a file that has another name, publish what is no regular file, and leave
staged files behind. -/
theorem publish_disturbs :
    let dir := ascii "/d"
    let through := (within dir).binary
    let here := ascii "."
    let shared := sample Inode.directoryMode here [(stagingName Loader.binaryName, 2)]
    let device := sample Inode.directoryMode here [(stagingName Loader.binaryName, 3)]
    let fixed := sample 0o555 here
      [(stagingName Loader.binaryName, 4), (stagingName Loader.scriptName, 5)]
    let linked := sample Inode.directoryMode here [(Loader.binaryName, 7)]
    (shared.files.IsTree ∧ unlinked dir shared = true ∧
      (publishSample dir shared).1 = .ok (within dir) ∧
      shared.contentsAt (ascii "/keep") = some (ascii "kept") ∧
      (publishSample dir shared).2.contentsAt (ascii "/keep") = some (ascii "module")) ∧
    (device.files.IsTree ∧ unlinked dir device = true ∧
      (publishSample dir device).1 = .ok (within dir) ∧
      (publishSample dir device).2.isRegularFile (within dir).binary = false) ∧
    (fixed.files.IsTree ∧ unlinked dir fixed = true ∧
      (publishSample dir fixed).1 = .error (.fileNotReplaced (within dir).binary .accessDenied) ∧
      (publishSample dir fixed).2.pathExists (staging (within dir).binary) = true) ∧
    (linked.files.IsTree ∧ unlinked through linked = true ∧
      (publishSample through linked).1 =
        .error (.fileNotReplaced (within through).script .notDirectory) ∧
      (publishSample through linked).2.pathExists (staging (within dir).script) = true) := by
  exact ⟨⟨isTree_of_forall (by decide) (by decide), by decide, by decide, by decide, by decide⟩,
    ⟨isTree_of_forall (by decide) (by decide), by decide, by decide, by decide⟩,
    ⟨isTree_of_forall (by decide) (by decide), by decide, by decide, by decide⟩,
    isTree_of_forall (by decide) (by decide), by decide, by decide, by decide⟩

end Outputs
end WasmPackager
