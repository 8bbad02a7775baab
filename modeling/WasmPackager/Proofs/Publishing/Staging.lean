/-
# `Proofs.Publishing.Staging` — what publishing leaves if a file cannot be staged

Nothing is renamed then, and what stands at the staging names is discarded.
That does not touch the outputs, whatever there is at the four names, but for
one thing: a link at a staging name is written through, if only in part.  So the
outputs are kept if they are `Apart`: they are not found by way of what stands
at the staging names, and are not where something is written (`Spilled`).  That
is where the module is staged, and also where the script is, if that is too large
to be staged in full.

Of what stands at the staging names nothing but directories is left, if entries
may be taken out of the directory and the path to it does not run through one of
them.
-/
import WasmPackager.Proofs.FileSystem.Disturbing
import WasmPackager.Proofs.Publishing.Outcomes

namespace WasmPackager

namespace Outputs

open FileSystem WasmPackager.Path Host

/-! ## The staging names -/

/-- The host without what stands at the staging names of a directory. -/
def unstaged (h : Host) (t : InodeNumber) : Host :=
  h.withFiles ((h.files.detach t (stagingName Loader.binaryName)).detach t
    (stagingName Loader.scriptName))

section Unstaged

variable {h : Host} {t : InodeNumber} (ht : h.files.IsDirectory t)

include ht

theorem disturbed_unstaged :
    Disturbed IsStaging t (fun _ => False) h.files (unstaged h t).files :=
  ((Disturbed.refl IsStaging t _ h.files).detach ht staging_binary).detach ht staging_script

theorem child?_unstaged {name : Name} (hname : IsStaging name) :
    (unstaged h t).files.child? t name = none := by
  have first := (Disturbed.refl IsStaging t (fun _ => False) h.files).detach ht staging_binary
  rw [unstaged, withFiles, child?_detach (first.isDirectory_iff.mpr ht), child?_detach ht]
  rcases hname with rfl | rfl <;> simp

end Unstaged

/-- The staging names at which something is written although not both files are staged: that of the
module, and that of a script that is larger than a file can be. -/
def IsSpilled (script : Bytes) (name : Name) : Prop :=
  name = stagingName Loader.binaryName ∨
    name = stagingName Loader.scriptName ∧ Contents.limit < script.length

/-- An output is not found by way of what stands at the staging names, and is not where something is
written although not both files are staged. -/
structure Apart (left : Host) (dir script : Bytes) (t : InodeNumber) : Prop where
  found : ∀ {name n}, IsOutput name → left.locate (join dir name) true = .ok n →
    (unstaged left t).locate (join dir name) true = .ok n
  written : ∀ {name staged place}, IsOutput name → IsSpilled script staged →
    left.resolve (join dir staged) true = .ok place → left.resolve (join dir name) true ≠ .ok place

/-- Both outputs are the entries they were, and have the contents they had. -/
structure OutputsKept (left after : Host) (dir : Bytes) (t : InodeNumber) : Prop where
  entries : ∀ {name}, IsOutput name → after.files.child? t name = left.files.child? t name
  inodes : ∀ {name n}, IsOutput name → left.files.child? t name = some n →
    ¬ left.files.IsDirectory n → after.files.inode? n = left.files.inode? n
  directories : ∀ {n}, left.files.IsDirectory n → after.files.IsDirectory n
  contents : ∀ {name}, IsOutput name →
    after.contentsAt (join dir name) = left.contentsAt (join dir name)

/-! ## The outputs are kept -/

section Kept

variable {left : Host} {dir binary script : Bytes} {t : InodeNumber} {fs : FileSystem}

/-- A place where something can be written although not both files are staged; in any case the
module's staging name has to lead somewhere. -/
structure Spilled (left : Host) (dir script : Bytes) (p : Place) : Prop where
  begun : ∃ q, left.resolve (join dir (stagingName Loader.binaryName)) true = .ok q
  staged : ∃ name, IsSpilled script name ∧ left.resolve (join dir name) true = .ok p
  plain : ∀ {n}, p = .existing n → left.files.way n = none

theorem outputsKept_of_disturbed (hs : left.Sound) (henters : left.Enters dir t)
    (hapart : Apart left dir script t)
    (hd : Disturbed IsStaging t (Spilled left dir script) left.files fs) :
    OutputsKept left (left.withFiles fs) dir t := by
  have ht := henters.reaches.isDirectory
  have hshort : ∀ {p name}, Spilled left dir script p → IsOutput name →
      (join dir name).length < pathLimit := by
    rintro p name ⟨⟨q, hresolve⟩, -, -⟩ houtput
    refine Nat.lt_of_le_of_lt (length_join_le_length_join dir ?_)
      (of_resolve_join henters.zeroFree staging_binary.isName hresolve).1
    rcases houtput with rfl | rfl <;> decide
  have happart : ∀ {p name}, Spilled left dir script p → IsOutput name →
      left.resolve (join dir name) true ≠ .ok p := by
    rintro p name ⟨-, ⟨staged, hstaged, hresolve⟩, -⟩ houtput
    exact hapart.written houtput hstaged hresolve
  refine ⟨fun {name} houtput => ?_, fun {name n} houtput hchild hplain => ?_,
    fun hdir => hd.isDirectory_iff.mpr hdir, fun {name} houtput => ?_⟩
  · cases hchild : left.files.child? t name with
    | some n => exact hd.entries hchild fun heq => heq.2.not_output houtput
    | none =>
        cases hafter : fs.child? t name with
        | none => exact hafter
        | some n =>
            -- something was written there
            rcases hd.added hafter with hold | ⟨-, hp, -⟩
            · cases hchild.symm.trans hold
            · exact absurd (resolve_join_vacant henters houtput.isName (hshort hp houtput) hchild)
                (happart hp houtput)
  · obtain ⟨i, hi⟩ := hs.leads hchild
    obtain ⟨i', hi', -, -, hsame⟩ := hd.kept hi
    rw [hi, ← hsame (by simpa [isDirectory_of_inode? hi] using hplain) fun hp => ?_]
    · exact hi'
    · exact happart hp houtput (resolve_join_existing henters houtput.isName (hshort hp houtput)
        hchild hi (way_eq_none.mp (hp.plain rfl)).2)
  · refine contentsAt_of_disturbed hs hd (disturbed_unstaged ht) (child?_unstaged ht)
      (hapart.found houtput) (fun hp => happart hp houtput) fun hp => ?_
    obtain ⟨_, -, hresolve⟩ := hp.staged
    exact (of_resolve_vacant hresolve).2

end Kept

/-! ## Discarding -/

section Discarded

variable {left : Host} {dir : Bytes} {t : InodeNumber} {places : Place → Prop} {fs : FileSystem}

theorem disturbed_of_discard (hs : left.Sound) (henters : left.Enters dir t)
    (hd : Disturbed IsStaging t places left.files fs) {name : Name} (hname : IsStaging name) :
    ∃ fs', discard (left.withFiles fs) (join dir name) = left.withFiles fs' ∧
      Disturbed IsStaging t places left.files fs' ∧
      (∀ {other}, other ≠ name → fs'.child? t other = fs.child? t other) ∧
      ((unstaged left t).Reaches dir t → (join dir name).length < pathLimit →
        left.mayTake t = .ok () → ∀ {n}, fs'.child? t name = some n → fs'.IsDirectory n) := by
  have ht := henters.reaches.isDirectory
  have ht' := hd.isDirectory_iff.mpr ht
  have honly : ∀ {d}, (left.withFiles fs).Reaches dir d → d = t := fun hr =>
    henters.reaches.unique (hd.keepsPaths_before.reaches (h := left.withFiles fs) hr)
  have hother : ∀ {other}, other ≠ name →
      (fs.detach t name).child? t other = fs.child? t other := fun hne => by
    rw [child?_detach ht', if_neg fun heq => hne heq.2]
  have hgone : (fs.detach t name).child? t name = none := by
    rw [child?_detach ht', if_pos ⟨rfl, rfl⟩]
  rcases discard_cases henters.zeroFree hname.isName honly with
    ⟨cause, hremove, hdiscard⟩ | ⟨n, i, -, -, ⟨-, hdiscard⟩ | ⟨parent, removed, -, hdiscard⟩⟩
  · refine ⟨fs, hdiscard, hd, fun _ => rfl, fun hreaches hshort htake n hchild => ?_⟩
    refine Classical.byContradiction fun hplain => ?_
    obtain ⟨i, hi⟩ : ∃ i, fs.inode? n = some i := by
      rcases hd.added hchild with hold | ⟨-, -, -, hi⟩
      · obtain ⟨i, hi⟩ := hs.leads hold
        obtain ⟨i', hi', -⟩ := hd.kept hi
        exact ⟨i', hi'⟩
      · exact hi
    have henters' : (left.withFiles fs).Enters dir t :=
      ⟨henters.zeroFree,
        (keepsPaths_between (disturbed_unstaged ht) (child?_unstaged ht) hd).reaches
        (h := unstaged left t) hreaches, (hd.mayPass ht).trans henters.passable⟩
    rw [remove_join henters' hname.isName hshort hchild hi
      (by simpa [isDirectory_of_inode? hi] using hplain)
      ((mayTake_of_disturbed hd ht).trans htake)] at hremove
    cases hremove
  · refine ⟨_, hdiscard, hd.detach ht hname, hother, fun _ _ _ n hchild => ?_⟩
    cases hgone.symm.trans hchild
  · refine ⟨_, hdiscard, (hd.detach ht hname).markRemoved n, fun hne => ?_,
      fun _ _ _ m hchild => ?_⟩
    · exact (child?_markRemoved ..).trans (hother hne)
    · cases hgone.symm.trans ((child?_markRemoved ..).symm.trans hchild)

theorem disturbed_of_discards (hs : left.Sound) (henters : left.Enters dir t)
    (hd : Disturbed IsStaging t places left.files fs) :
    ∃ fs', discard (discard (left.withFiles fs) (staging (within dir).binary))
        (staging (within dir).script) = left.withFiles fs' ∧
      Disturbed IsStaging t places left.files fs' ∧
      ((unstaged left t).Reaches dir t → (staging (within dir).binary).length < pathLimit →
        left.mayTake t = .ok () → ∀ {name n}, IsStaging name → fs'.child? t name = some n →
          fs'.IsDirectory n) := by
  simp only [within, staging_join]
  obtain ⟨fs₁, hfirst, hd₁, -, hbinary⟩ := disturbed_of_discard hs henters hd staging_binary
  obtain ⟨fs₂, hsecond, hd₂, hother, hscript⟩ := disturbed_of_discard hs henters hd₁ staging_script
  refine ⟨fs₂, by rw [hfirst, hsecond], hd₂, fun hreaches hshort htake => ?_⟩
  rintro name n (rfl | rfl) hchild
  · rw [hother (Ne.symm staging_ne)] at hchild
    exact hd₂.isDirectory_iff.mpr (hd₁.isDirectory_iff.mp (hbinary hreaches hshort htake hchild))
  · refine hscript hreaches (Nat.lt_of_le_of_lt (length_join_le_length_join dir ?_) hshort) htake
      hchild
    decide

end Discarded

/-! ## Whatever could not be staged -/

section Unstageable

variable {h left : Host} {dir binary script path bytes : Bytes} {t : InodeNumber}

/-- Staging a file fails and leaves the host, or writes where its path leads, and then fails only if
the file is too large. -/
theorem disturbed_of_stage {result : Except Failure Unit} {h' : Host}
    (hstage : stage h path bytes = (result, h')) :
    (h' = h ∧ ∃ f, result = .error f) ∨
      ∃ p fs', h' = h.withFiles fs' ∧ (result = .ok () ∨ Contents.limit < bytes.length) ∧
        h.resolve path true = .ok p ∧ (∀ {n}, p = .existing n → h.files.way n = none) ∧
        ∀ names t, Disturbed names t (· = p) h.files fs' := by
  have hwrote := wrote_of_writeFile h path bytes
  rw [stage] at hstage
  generalize h.writeFile path bytes = written at hstage hwrote
  obtain ⟨outcome, after⟩ := written
  cases hwrote with
  | nothing =>
      obtain ⟨rfl, rfl⟩ := Prod.mk.inj hstage
      exact .inl ⟨rfl, _, rfl⟩
  | @something _ p fs' hfits hplace hway hd =>
      refine .inr ⟨p, fs', ?_, hfits.imp_left fun heq => ?_, hplace, hway, hd⟩
      · cases outcome <;> exact (Prod.mk.inj hstage).2.symm
      · subst heq
        exact (Prod.mk.inj hstage).1.symm

/-- If not both files are staged, something may have been written where the module is staged, and
where the script is if that is too large. -/
theorem disturbed_of_stageBoth (hs : left.Sound) {failure : Failure} {h' : Host}
    (hstage : stageBoth (within dir) left binary script = (.error failure, h')) :
    ∃ fs, h' = left.withFiles fs ∧
      ∀ names t, Disturbed names t (Spilled left dir script) left.files fs := by
  rw [stageBoth, within, staging_join, staging_join] at hstage
  cases hfirst : stage left (join dir (stagingName Loader.binaryName)) binary with
  | mk result h₁ =>
  rw [hfirst] at hstage
  rcases disturbed_of_stage hfirst with ⟨rfl, f, rfl⟩ | ⟨p₁, fs₁, rfl, -, hp₁, hway₁, hd⟩
  · exact ⟨_, (Prod.mk.inj hstage).2.symm, fun names t => .refl names t _ _⟩
  have hd₁ : ∀ names t, Disturbed names t (Spilled left dir script) left.files fs₁ :=
    fun names t => (hd names t).mono fun heq => .inl (heq ▸ ⟨⟨_, hp₁⟩, ⟨_, .inl rfl, hp₁⟩, hway₁⟩)
  cases result with
  | error _ => exact ⟨fs₁, (Prod.mk.inj hstage).2.symm, hd₁⟩
  | ok _ =>
      rcases disturbed_of_stage hstage with ⟨rfl, -⟩ | ⟨p, fs₂, rfl, hlarge, hp, hway, hd⟩
      · exact ⟨fs₁, rfl, hd₁⟩
      · replace hlarge := hlarge.resolve_left fun heq => by cases heq
        refine ⟨fs₂, rfl, fun names t => ?_⟩
        refine ((hd₁ (fun _ => False) t).trans (hd names t)).mono ?_
        rintro q (hq | rfl)
        · exact .inl hq
        · refine (resolve_of_disturbed hs (hd₁ (fun _ => False) t) hp).imp_left fun hp => ?_
          refine ⟨⟨_, hp₁⟩, ⟨_, .inr ⟨rfl, hlarge⟩, hp⟩, fun {n} heq => ?_⟩
          exact ((hd₁ (fun _ => False) t).way n).symm.trans (hway heq)

theorem stageBoth_of_not_enters (hzero : 0 ∉ dir) (hnone : ∀ t, ¬ left.Enters dir t) :
    (stageBoth (within dir) left binary script).2 = left := by
  rw [stageBoth, within, staging_join, staging_join]
  cases hfirst : stage left (join dir (stagingName Loader.binaryName)) binary with
  | mk result h₁ =>
  rcases disturbed_of_stage hfirst with ⟨rfl, f, rfl⟩ | ⟨p, fs₁, -, -, hp, -⟩
  · rfl
  · obtain ⟨-, d, hd, hpass, -⟩ := of_resolve_join hzero staging_binary.isName hp
    exact absurd ⟨hzero, hd, hpass⟩ (hnone d)

theorem discard_of_not_enters (hzero : 0 ∉ dir) (hnone : ∀ t, ¬ left.Enters dir t) {name : Name}
    (hname : IsName name) : discard left (join dir name) = left := by
  cases hremove : left.remove (join dir name) with
  | error cause => rw [discard, hremove]; rfl
  | ok h' =>
      obtain ⟨s, last, n, i, hr⟩ := of_remove hremove
      obtain ⟨-, d, hd, hpass, -⟩ := (slot_join_iff hzero hname).mp hr.slot
      exact absurd ⟨hzero, hd, hpass⟩ (hnone d)

/-- If a file cannot be staged, the outputs are kept if they are apart from what is staged, and
nothing but directories is left at the staging names; and if not even the directory can be made,
nothing happens but that directories above it are. -/
theorem publish_without_staging (hs : h.Sound) :
    let left := (h.createDirectories dir).2
    let result := (publish dir binary script h).1
    let after := (publish dir binary script h).2
    Furnished (OnWay dir) h left ∧
      (∀ cause, result = .error (.directoryNotCreated dir cause) → after = left) ∧
      ∀ path, result = .error (.fileNotWritten path) →
        (0 ∉ dir → (∀ t, ¬ left.Enters dir t) → after = left) ∧
        ∀ t, left.Enters dir t → (Apart left dir script t → OutputsKept left after dir t) ∧
          ((unstaged left t).Reaches dir t → (staging (within dir).binary).length < pathLimit →
            left.mayTake t = .ok () → ∀ name n, IsStaging name →
              after.files.child? t name = some n → after.files.IsDirectory n) := by
  intro left result after
  have hf : Furnished (OnWay dir) h left := furnished_createDirectories h dir
  have hsound : left.Sound := hf.sound hs
  have hends : PublishEnds dir binary script (h.createDirectories dir).1 left result after :=
    publish_ends h dir binary script
  clear_value result after left
  refine ⟨hf, ?_⟩
  cases hends with
  | notCreated =>
      refine ⟨fun _ _ => rfl, fun _ heq => ?_⟩
      cases heq
  | moduleKept | scriptKept | replaced =>
      refine ⟨fun _ heq => ?_, fun _ heq => ?_⟩ <;> cases heq
  | notStaged _ hstage =>
      obtain ⟨fs, rfl, hd⟩ := disturbed_of_stageBoth hsound hstage
      refine ⟨fun _ heq => ?_, fun _ _ => ⟨fun hzero hnone => ?_, fun t henters => ?_⟩⟩
      · cases heq
      · have hleft : left.withFiles fs = left :=
          (congrArg Prod.snd hstage).symm.trans (stageBoth_of_not_enters hzero hnone)
        simp only [within, staging_join]
        rw [hleft, discard_of_not_enters hzero hnone staging_binary.isName,
          discard_of_not_enters hzero hnone staging_script.isName]
      · obtain ⟨fs', hdiscard, hd', hleft⟩ := disturbed_of_discards hsound henters (hd IsStaging t)
        rw [hdiscard]
        exact ⟨fun hapart => outputsKept_of_disturbed hsound henters hapart hd',
          fun hreaches hshort htake name n hname hchild =>
            hleft hreaches hshort htake hname hchild⟩

end Unstageable

/-! ## Written through a link -/

/-- A directory below a file is not made; and in a directory whose script cannot be staged the
module is written through the link that stands at its staging name, and the outputs are kept. -/
theorem publish_without_staging_sample :
    let dir := ascii "/d"
    let below := ascii "/keep/d"
    let linked := sample Inode.directoryMode (ascii "/keep")
      [(Loader.binaryName, 4), (stagingName Loader.binaryName, 7),
        (stagingName Loader.scriptName, 6)]
    linked.Sound ∧ Furnished (OnWay below) linked (linked.createDirectories below).2 ∧
      (publishSample below linked).2 = (linked.createDirectories below).2 ∧
      Apart (linked.createDirectories dir).2 dir (ascii "script") 1 ∧
      OutputsKept (linked.createDirectories dir).2 (publishSample dir linked).2 dir 1 ∧
      ∀ name n, IsStaging name → (publishSample dir linked).2.files.child? 1 name = some n →
        (publishSample dir linked).2.files.IsDirectory n := by
  intro dir below linked
  have hsound : linked.Sound :=
    sound_of_forall (isTree_of_forall (by decide) (by decide)) (by decide) (by decide)
  have henters : (linked.createDirectories dir).2.Enters dir 1 := by
    refine ⟨by decide, ?_, by decide⟩
    rw [Reaches]
    decide
  have hapart : Apart (linked.createDirectories dir).2 dir (ascii "script") 1 := by
    refine ⟨fun {name n} houtput hn => ?_,
      fun {name staged place} houtput hstaged hplace hsame => ?_⟩
    · have hkept : (unstaged (linked.createDirectories dir).2 1).locate (within dir).binary true =
          (linked.createDirectories dir).2.locate (within dir).binary true := by decide
      have hmissing : (linked.createDirectories dir).2.locate (within dir).script true =
          .error .notFound := by decide
      rcases houtput with rfl | rfl
      · exact hkept.trans hn
      · cases hmissing.symm.trans hn
    · have hdiffers : ∀ {other}, IsOutput other → (linked.createDirectories dir).2.resolve
          (join dir (stagingName Loader.binaryName)) true ≠
            (linked.createDirectories dir).2.resolve (join dir other) true := by
        rintro other (rfl | rfl) <;> decide
      obtain rfl : staged = stagingName Loader.binaryName :=
        hstaged.resolve_right fun hlarge => absurd hlarge.2 (by decide)
      exact hdiffers houtput (hplace.trans hsame.symm)
  obtain ⟨hfurnished, hnothing, -⟩ :=
    @publish_without_staging linked below (ascii "module") (ascii "script") hsound
  obtain ⟨-, -, hstaging⟩ :=
    @publish_without_staging linked dir (ascii "module") (ascii "script") hsound
  obtain ⟨hkept, hcleared⟩ := (hstaging (staging (within dir).script) (by decide)).2 1 henters
  exact ⟨hsound, hfurnished, hnothing .notDirectory (by decide), hapart, hkept hapart,
    hcleared (by rw [Reaches]; decide) (by decide) (by decide)⟩

/-- If the link leads to an output, that is overwritten, although the script cannot be staged. -/
theorem publish_overwrites_linked_output :
    let dir := ascii "/d"
    let linked := sample Inode.directoryMode Loader.binaryName
      [(Loader.binaryName, 4), (stagingName Loader.binaryName, 7),
        (stagingName Loader.scriptName, 6)]
    linked.files.IsTree ∧ linked.Sound ∧
      (publishSample dir linked).1 = .error (.fileNotWritten (staging (within dir).script)) ∧
      linked.contentsAt (within dir).binary = some (ascii "stale") ∧
      (publishSample dir linked).2.contentsAt (within dir).binary = some (ascii "module") := by
  intro dir linked
  have htree : linked.files.IsTree := isTree_of_forall (by decide) (by decide)
  exact ⟨htree, sound_of_forall htree (by decide) (by decide), by decide, by decide, by decide⟩

end Outputs
end WasmPackager
