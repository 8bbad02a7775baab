/-
# `Proofs.Publishing` — when publishing succeeds, and what it leaves

Both files are staged and then renamed.  On a directory that is fit for it
(`Outputs.Fit`: no links stand at the names that matter, and nothing but
directories and files without other names at the staging names) publishing
succeeds if the system grants it (`Outputs.Granted`) and neither file is larger
than a file can be (`Outputs.Sized`), and fails if the system does not grant it.
When it succeeds `Outputs.Published` says what there is afterwards: two files
with the bytes that were given, under the output names, nothing under the
staging names, and everything else as it was.
-/
import WasmPackager.Outputs
import WasmPackager.Proofs.FileSystem.Writing

namespace WasmPackager

namespace Outputs

open FileSystem WasmPackager.Path

/-! ## Names -/

def stagingName (name : Name) : Name := name ++ ascii ".tmp"

/-- One of the two names files are published under. -/
def IsOutput (name : Name) : Prop := name = Loader.binaryName ∨ name = Loader.scriptName

/-- One of the two names files are staged under. -/
def IsStaging (name : Name) : Prop :=
  name = stagingName Loader.binaryName ∨ name = stagingName Loader.scriptName

instance (name : Name) : Decidable (IsStaging name) := inferInstanceAs (Decidable (_ ∨ _))

theorem staging_join (dir : Bytes) (name : Name) :
    staging (join dir name) = join dir (stagingName name) := by
  rw [staging, stagingName, join, join]
  split <;> simp

theorem IsOutput.isName {name : Name} (h : IsOutput name) : IsName name := by
  rcases h with rfl | rfl <;> decide

theorem IsStaging.isName {name : Name} (h : IsStaging name) : IsName name := by
  rcases h with rfl | rfl <;> decide

theorem IsStaging.not_output {name : Name} (h : IsStaging name) : ¬ IsOutput name := by
  rintro (heq | heq) <;> rcases h with rfl | rfl <;> revert heq <;> decide

theorem staging_binary : IsStaging (stagingName Loader.binaryName) := .inl rfl

theorem staging_script : IsStaging (stagingName Loader.scriptName) := .inr rfl

theorem staging_ne : stagingName Loader.scriptName ≠ stagingName Loader.binaryName := by decide

/-! ## Conditions -/

/-- A directory in which no file can be staged that has another name elsewhere. -/
structure Stageable (h : Host) (dir : Bytes) (t : InodeNumber) : Prop where
  enters : h.Enters dir t
  leads : h.files.Leads
  spare : ∀ {name}, IsStaging name → h.files.Spare t name

/-- A directory in which no file can be published that has another name elsewhere. -/
structure Fit (h : Host) (dir : Bytes) (t : InodeNumber) : Prop where
  enters : h.Enters dir t
  stands : h.isDirectory dir = true
  kept : ∀ {parent entries}, h.files.node? t ≠ some (.dir parent entries true)
  short : ∀ {name}, IsOutput name ∨ IsStaging name → (join dir name).length < pathLimit
  leads : h.files.Leads
  noLink : ∀ {name n}, IsOutput name ∨ IsStaging name → h.files.child? t name = some n →
    ¬ h.files.IsLink n
  spare : ∀ {name}, IsStaging name → h.files.Spare t name

theorem Fit.stageable {h : Host} {dir : Bytes} {t : InodeNumber} (hfit : Fit h dir t) :
    Stageable h dir t :=
  ⟨hfit.enters, hfit.leads, hfit.spare⟩

structure Granted (h : Host) (t : InodeNumber) : Prop where
  directory : h.mayAdd t = .ok ()
  staging : ∀ {name}, IsStaging name → h.Writable t name
  output : ∀ {name n}, IsOutput name → h.files.child? t name = some n →
    ¬ h.files.IsDirectory n

/-- Neither file is larger than a file can be. -/
structure Sized (binary script : Bytes) : Prop where
  binary : binary.length ≤ Contents.limit
  script : script.length ≤ Contents.limit

structure Staged (t x y : InodeNumber) (binary script : Bytes) (fs fs' : FileSystem) : Prop where
  edits : Edits t IsStaging (fun n => n = x ∨ n = y) fs fs'
  binaryEntry : fs'.child? t (stagingName Loader.binaryName) = some x
  scriptEntry : fs'.child? t (stagingName Loader.scriptName) = some y
  binaryFile : fs'.IsFile x (.ofBytes binary)
  scriptFile : fs'.IsFile y (.ofBytes script)
  own : ∀ {d name n}, n = x ∨ n = y → fs.child? d name = some n → d = t ∧ IsStaging name
  origin : ∀ {n}, n = x ∨ n = y →
    (∃ name, IsStaging name ∧ fs.child? t name = some n) ∨ fs.inode? n = none
  distinct : x ≠ y
  modes : ∀ {n}, n = x ∨ n = y → (∀ {name}, IsStaging name → fs.child? t name = none) →
    (fs'.inode? n).map Inode.mode = some Inode.fileMode

structure Published (t x y : InodeNumber) (binary script : Bytes) (fs fs' : FileSystem) : Prop where
  edits : Edits t (fun name => IsOutput name ∨ IsStaging name) (fun n => n = x ∨ n = y) fs fs'
  binaryEntry : fs'.child? t Loader.binaryName = some x
  scriptEntry : fs'.child? t Loader.scriptName = some y
  binaryFile : fs'.IsFile x (.ofBytes binary)
  scriptFile : fs'.IsFile y (.ofBytes script)
  unstaged : ∀ {name}, IsStaging name → fs'.child? t name = none
  own : ∀ {d name n}, n = x ∨ n = y → fs.child? d name = some n → d = t ∧ IsStaging name
  /-- Where nothing was staged, both are new. -/
  modes : ∀ {n}, n = x ∨ n = y → (∀ {name}, IsStaging name → fs.child? t name = none) →
    (fs'.inode? n).map Inode.mode = some Inode.fileMode

/-! ## Staging -/

section

variable {h : Host} {dir binary script : Bytes} {t x y : InodeNumber}

theorem stage_of_granted (henters : h.Enters dir t) {name : Name} (hname : IsStaging name)
    (hshort : (join dir name).length < pathLimit) (hspare : h.files.Spare t name)
    (hgranted : h.Writable t name) {bytes : Bytes} (hfits : bytes.length ≤ Contents.limit) :
    ∃ x fs', stage h (join dir name) bytes = (.ok (), h.withFiles fs') ∧
      Written t name x bytes h.files fs' := by
  obtain ⟨x, fs', hwrite, hwritten⟩ :=
    Host.writeFile_of_granted henters hname.isName hshort hspare hgranted bytes
  rw [if_pos hfits] at hwrite
  rw [List.take_of_length_le hfits] at hwritten
  exact ⟨x, fs', by rw [stage, hwrite], hwritten⟩

theorem stage_of_not_granted (henters : h.Enters dir t) {name : Name} (hname : IsStaging name)
    (hshort : (join dir name).length < pathLimit) (hspare : h.files.Spare t name) {bytes : Bytes}
    (hgranted : ¬ (h.Writable t name ∧ bytes.length ≤ Contents.limit)) :
    ∃ f after, stage h (join dir name) bytes = (.error f, after) := by
  by_cases hwritable : h.Writable t name
  · obtain ⟨x, fs', hwrite, -⟩ :=
      Host.writeFile_of_granted henters hname.isName hshort hspare hwritable bytes
    rw [if_neg fun hfits => hgranted ⟨hwritable, hfits⟩] at hwrite
    exact ⟨.fileNotWritten (join dir name), h.withFiles fs', by rw [stage, hwrite]⟩
  · obtain ⟨cause, hwrite⟩ :=
      Host.writeFile_of_not_granted henters hname.isName hshort hspare hwritable bytes
    exact ⟨.fileNotWritten (join dir name), h, by rw [stage, hwrite]⟩

/-- What is staged first leaves the directory as good and as free to be written for the second
file. -/
theorem stageable_of_written (hs : Stageable h dir t) {bytes : Bytes} {fs' : FileSystem}
    (hw : Written t (stagingName Loader.binaryName) x bytes h.files fs') :
    (h.withFiles fs').Enters dir t ∧ fs'.Leads ∧
      fs'.Spare t (stagingName Loader.scriptName) ∧
      ((h.withFiles fs').Writable t (stagingName Loader.scriptName) ↔
        h.Writable t (stagingName Loader.scriptName)) := by
  have ht := hs.enters.reaches.isDirectory
  have hspare : h.files.Spare t _ := hs.spare staging_binary
  have hother : h.files.Spare t _ := hs.spare staging_script
  have hkeeps : KeepsPaths h.files fs' := hw.edits.keepsPaths ht fun heq hchild =>
    hw.plain (heq ▸ hchild)
  exact ⟨hs.enters.keep hkeeps, hw.leads ht hs.leads hspare,
    hw.spare ht hs.leads hspare staging_ne hother,
    Host.writable_of_written hw ht hs.leads hspare staging_ne⟩

theorem staged_of_written (hs : Stageable h dir t) {fs₁ fs₂ : FileSystem}
    (hbinary : Written t (stagingName Loader.binaryName) x binary h.files fs₁)
    (hscript : Written t (stagingName Loader.scriptName) y script fs₁ fs₂) :
    Staged t x y binary script h.files fs₂ := by
  have ht := hs.enters.reaches.isDirectory
  have ht₁ := hbinary.edits.isDirectory ht
  obtain ⟨-, hleads₁, hspare₁, -⟩ := stageable_of_written hs hbinary
  have hownBinary : ∀ {d name}, h.files.child? d name = some x →
      d = t ∧ name = stagingName Loader.binaryName :=
    hbinary.own hs.leads (hs.spare staging_binary)
  have hdistinct : x ≠ y := by
    rintro rfl
    exact staging_ne (hscript.own hleads₁ hspare₁ hbinary.entry).2.symm
  have hownScript : ∀ {d name}, h.files.child? d name = some y → d = t ∧ IsStaging name := by
    intro d name hchild
    by_cases hentry : d = t ∧ name = stagingName Loader.binaryName
    · exact ⟨hentry.1, .inl hentry.2⟩
    · rw [← hbinary.edits.child?_eq hentry] at hchild
      obtain ⟨hd, hname⟩ := hscript.own hleads₁ hspare₁ hchild
      exact ⟨hd, .inr hname⟩
  have hxt : x ≠ t := hbinary.edits.ne_of_staged ht rfl
  have hyt : y ≠ t := hscript.edits.ne_of_staged ht₁ rfl
  have hbefore : ∀ {n}, n = x ∨ n = y → h.files.AtMostFile n := by
    rintro n (rfl | rfl)
    · exact hbinary.edits.before rfl
    · intro i hi
      rw [← hbinary.edits.inode?_eq hyt (Ne.symm hdistinct)] at hi
      exact hscript.edits.before rfl i hi
  have first : Edits t IsStaging (fun n => n = x ∨ n = y) h.files fs₁ :=
    hbinary.edits.mono ht .inl .inl hbefore
  have second : Edits t IsStaging (fun n => n = x ∨ n = y) fs₁ fs₂ :=
    hscript.edits.mono ht₁ .inr .inr first.after
  refine ⟨first.trans second, ?_, hscript.entry, ?_, hscript.contents, ?_, ?_, hdistinct, ?_⟩
  · rw [hscript.edits.child?_eq fun heq => staging_ne heq.2.symm]
    exact hbinary.entry
  · rw [IsFile, node?, hscript.edits.inode?_eq hxt hdistinct]
    exact hbinary.contents
  · rintro d name n (rfl | rfl) hchild
    · obtain ⟨hd, hname⟩ := hownBinary hchild
      exact ⟨hd, .inl hname⟩
    · exact hownScript hchild
  · rintro n (rfl | rfl)
    · exact hbinary.origin.imp (fun hchild => ⟨_, staging_binary, hchild⟩) And.right
    · refine hscript.origin.imp (fun hchild => ⟨_, staging_script, ?_⟩) fun hfresh => ?_
      · rwa [hbinary.edits.child?_eq fun heq => staging_ne heq.2] at hchild
      · rw [← hbinary.edits.inode?_eq hyt (Ne.symm hdistinct)]
        exact hfresh.2
  · rintro n (rfl | rfl) hnothing
    · rw [hscript.edits.inode?_eq hxt hdistinct]
      exact hbinary.mode (hnothing staging_binary)
    · refine hscript.mode ?_
      rw [hbinary.edits.child?_eq fun heq => staging_ne heq.2]
      exact hnothing staging_script

/-- Both files are staged if both staging names may be written and neither file is too large, and
else staging fails. -/
theorem stageBoth_of_granted (hfit : Fit h dir t)
    (hgranted : ∀ {name}, IsStaging name → h.Writable t name) (hsized : Sized binary script) :
    ∃ x y fs', stageBoth (within dir) h binary script = (.ok (), h.withFiles fs') ∧
      Staged t x y binary script h.files fs' := by
  obtain ⟨x, fs₁, hfirst, hbinary⟩ := stage_of_granted hfit.enters staging_binary
    (hfit.short (.inr staging_binary)) (hfit.spare staging_binary) (hgranted staging_binary)
    hsized.binary
  obtain ⟨henters₁, -, hspare₁, hwritable₁⟩ := stageable_of_written hfit.stageable hbinary
  obtain ⟨y, fs₂, hsecond, hscript⟩ := stage_of_granted henters₁ staging_script
    (hfit.short (.inr staging_script)) hspare₁ (hwritable₁.mpr (hgranted staging_script))
    hsized.script
  refine ⟨x, y, fs₂, ?_, staged_of_written hfit.stageable hbinary hscript⟩
  simp only [stageBoth, within, staging_join, hfirst]
  exact hsecond

theorem stageBoth_of_not_granted (hfit : Fit h dir t)
    (hgranted : ¬ ((∀ {name}, IsStaging name → h.Writable t name) ∧ Sized binary script)) :
    ∃ f after, stageBoth (within dir) h binary script = (.error f, after) := by
  by_cases hfirst :
      h.Writable t (stagingName Loader.binaryName) ∧ binary.length ≤ Contents.limit
  · obtain ⟨x, fs₁, hstage, hbinary⟩ := stage_of_granted hfit.enters staging_binary
      (hfit.short (.inr staging_binary)) (hfit.spare staging_binary) hfirst.1 hfirst.2
    obtain ⟨henters₁, -, hspare₁, hwritable₁⟩ := stageable_of_written hfit.stageable hbinary
    have hsecond : ¬ ((h.withFiles fs₁).Writable t (stagingName Loader.scriptName) ∧
        script.length ≤ Contents.limit) := by
      rintro ⟨hwritable, hfits⟩
      refine hgranted ⟨fun {name} hname => ?_, hfirst.2, hfits⟩
      rcases hname with rfl | rfl
      · exact hfirst.1
      · exact hwritable₁.mp hwritable
    obtain ⟨f, after, hfailed⟩ := stage_of_not_granted henters₁ staging_script
      (hfit.short (.inr staging_script)) hspare₁ hsecond
    refine ⟨f, after, ?_⟩
    simp only [stageBoth, within, staging_join, hstage]
    exact hfailed
  · obtain ⟨f, after, hstage⟩ := stage_of_not_granted hfit.enters staging_binary
      (hfit.short (.inr staging_binary)) (hfit.spare staging_binary) hfirst
    exact ⟨f, after, by simp only [stageBoth, within, staging_join, hstage]⟩

/-! ## Renaming -/

/-- What renaming a staged file asks for: no directory at the output name, and a directory whose
entries may be changed. -/
def Replaceable (h : Host) (t : InodeNumber) (target : Name) : Prop :=
  (∀ {n}, h.files.child? t target = some n → ¬ h.files.IsDirectory n) ∧ h.mayAdd t = .ok ()

/-- After edits of entries that led to files only, a file that came by them can be renamed to an
output name that was not touched yet exactly if that was replaceable. -/
theorem rename_edited (hfit : Fit h dir t) {names : Name → Prop} {staged : InodeNumber → Prop}
    {fs : FileSystem} (hedits : Edits t names staged h.files fs)
    (hplain : ∀ {name n}, names name → h.files.child? t name = some n →
      ¬ h.files.IsDirectory n ∧ ¬ h.files.IsLink n)
    (hown : ∀ {d name n}, staged n → h.files.child? d name = some n → IsStaging name)
    {source target : Name} (hsource : IsStaging source) (htarget : IsOutput target)
    (huntouched : ¬ names target) {x : InodeNumber} {contents : Contents} (hx : staged x)
    (hchild : fs.child? t source = some x) (hfile : fs.IsFile x contents) :
    (Replaceable h t target → ∃ fs',
      (h.withFiles fs).rename (join dir source) (join dir target) = .ok (h.withFiles fs') ∧
        Renamed t source target x fs fs') ∧
    (¬ Replaceable h t target → ∃ cause,
      (h.withFiles fs).rename (join dir source) (join dir target) = .error cause) := by
  have ht := hfit.enters.reaches.isDirectory
  have henters := hfit.enters.keep (hedits.keepsPaths ht hplain)
  have hadd : (h.withFiles fs).mayAdd t = h.mayAdd t := Host.mayAdd_of_edits hedits ht
  have hold : (h.withFiles fs).files.child? t target = h.files.child? t target :=
    hedits.child?_eq fun heq => huntouched heq.2
  have hkept : ∀ {n}, h.files.child? t target = some n → n ≠ t → fs.inode? n = h.files.inode? n :=
    fun hn hdiffers => hedits.inode?_eq hdiffers fun hs => (hown hs hn).not_output htarget
  have hdiffers : ∀ {n}, h.files.child? t target = some n → n ≠ x :=
    fun hn heq => (hown (heq ▸ hx) hn).not_output htarget
  obtain ⟨i, hi, hnode⟩ := Option.map_eq_some_iff.mp hfile
  have hregular : i.node.isDirectory = false := by rw [hnode]; rfl
  have hne : source ≠ target := by
    rintro rfl
    exact hsource.not_output htarget
  constructor
  · rintro ⟨hfree, hgranted⟩
    refine Host.rename_of_granted henters hsource.isName htarget.isName (hfit.short (.inr hsource))
      (hfit.short (.inl htarget)) hne hchild hi hregular ?_ (hadd.trans hgranted)
    intro old hchildOld
    rw [hold] at hchildOld
    have hplainOld := hfree hchildOld
    obtain ⟨j, hj⟩ := hfit.leads hchildOld
    refine ⟨hdiffers hchildOld, j, ?_, ?_⟩
    · exact (hkept hchildOld fun heq => hplainOld (heq ▸ ht)).trans hj
    · rw [isDirectory_iff, node?_of_inode? hj] at hplainOld
      simpa using hplainOld
  · intro hgranted
    refine Host.rename_of_not_granted henters hsource.isName htarget.isName
      (hfit.short (.inr hsource)) (hfit.short (.inl htarget)) hchild hi hregular ?_ ?_ ?_
    · exact hedits.kept ht hfit.kept
    · exact fun hn => hdiffers (hold.symm.trans hn)
    · rintro ⟨hfree, hgrantedAdd⟩
      refine hgranted ⟨fun {n} hn hdir => ?_, hadd.symm.trans hgrantedAdd⟩
      obtain ⟨j, hj, hj'⟩ := hfree (hold.trans hn)
      have hdir' : (h.withFiles fs).files.IsDirectory n := hedits.isDirectory hdir
      rw [isDirectory_iff, node?_of_inode? hj, Option.any_some, hj'] at hdir'
      cases hdir'

/-! ## Publishing -/

theorem createDirectories_of_isDirectory (hstands : h.isDirectory dir = true) :
    h.createDirectories dir = (.ok (), h) := by
  have hne : dir ≠ [] := by
    rintro rfl
    have : h.isDirectory [] = false := rfl
    rw [this] at hstands
    cases hstands
  rw [Host.isDirectory] at hstands
  rw [Host.createDirectories, if_neg (by simpa using hne)]
  cases hstat : h.stat dir with
  | error cause => simp [hstat] at hstands
  | ok i =>
      rw [hstat] at hstands
      exact if_pos hstands

/-- Nothing is published where the first file cannot be staged for a directory. -/
theorem publish_of_isDirectory (hstands : h.isDirectory dir = true)
    (hstaged : h.isDirectory (staging (within dir).binary) = true) (binary script : Bytes) :
    ∃ f after, publish dir binary script h = (.error f, after) := by
  rw [publish, createDirectories_of_isDirectory hstands]
  simp only [stageBoth, stage, Host.writeFile_of_isDirectory hstaged]
  exact ⟨_, _, rfl⟩

/-- The first renaming leaves the second staged file, and touches one output name more. -/
theorem staged_of_renamed (ht : h.files.IsDirectory t) {fs₂ fs₃ : FileSystem}
    (hstaged : Staged t x y binary script h.files fs₂)
    (hbinary : Renamed t (stagingName Loader.binaryName) Loader.binaryName x fs₂ fs₃) :
    Edits t (fun name => name = Loader.binaryName ∨ IsStaging name) (fun n => n = x ∨ n = y)
        h.files fs₃ ∧
      fs₃.child? t (stagingName Loader.scriptName) = some y ∧
      ∀ {n}, n = x ∨ n = y → fs₃.inode? n = fs₂.inode? n := by
  have ht₂ := hstaged.edits.isDirectory ht
  have first := hstaged.edits.mono ht (.inr : ∀ {name}, _ → name = Loader.binaryName ∨ _) id
    hstaged.edits.before
  have second : Edits t (fun name => name = Loader.binaryName ∨ IsStaging name)
      (fun n => n = x ∨ n = y) fs₂ fs₃ := by
    refine hbinary.edits.mono ht₂ ?_ False.elim hstaged.edits.after
    rintro name (rfl | rfl)
    · exact .inr staging_binary
    · exact .inl rfl
  refine ⟨first.trans second, ?_, fun hn =>
    hbinary.edits.inode?_eq (hstaged.edits.ne_of_staged ht hn) id⟩
  rw [hbinary.edits.child?_eq]
  · exact hstaged.scriptEntry
  · rintro ⟨-, heq | heq⟩ <;> revert heq <;> decide

theorem published_of_renamed (ht : h.files.IsDirectory t) {fs₂ fs₃ fs₄ : FileSystem}
    (hstaged : Staged t x y binary script h.files fs₂)
    (hbinary : Renamed t (stagingName Loader.binaryName) Loader.binaryName x fs₂ fs₃)
    (hscript : Renamed t (stagingName Loader.scriptName) Loader.scriptName y fs₃ fs₄) :
    Published t x y binary script h.files fs₄ := by
  obtain ⟨hedits, -, hkept⟩ := staged_of_renamed ht hstaged hbinary
  have first : Edits t (fun name => IsOutput name ∨ IsStaging name) (fun n => n = x ∨ n = y)
      h.files fs₃ := by
    refine hedits.mono ht ?_ id hstaged.edits.before
    rintro name (rfl | hname)
    · exact .inl (.inl rfl)
    · exact .inr hname
  have second : Edits t (fun name => IsOutput name ∨ IsStaging name) (fun n => n = x ∨ n = y)
      fs₃ fs₄ := by
    refine hscript.edits.mono (first.isDirectory ht) ?_ False.elim first.after
    rintro name (rfl | rfl)
    · exact .inr staging_script
    · exact .inl (.inr rfl)
  have kept : ∀ {n}, n = x ∨ n = y → fs₄.inode? n = fs₂.inode? n := fun hn =>
    (hscript.edits.inode?_eq (first.ne_of_staged ht hn) id).trans (hkept hn)
  have child?_eq : ∀ {name}, name ≠ stagingName Loader.scriptName → name ≠ Loader.scriptName →
      fs₄.child? t name = fs₃.child? t name := fun hstaging houtput =>
    hscript.edits.child?_eq fun h => h.2.elim hstaging houtput
  refine ⟨first.trans second, ?_, hscript.entry, ?_, ?_, ?_, hstaged.own, fun hn hnothing => ?_⟩
  · rw [child?_eq (by decide) (by decide)]
    exact hbinary.entry
  · rw [IsFile, node?, kept (.inl rfl)]
    exact hstaged.binaryFile
  · rw [IsFile, node?, kept (.inr rfl)]
    exact hstaged.scriptFile
  · rintro name (rfl | rfl)
    · rw [child?_eq (by decide) (by decide)]
      exact hbinary.gone
    · exact hscript.gone
  · rw [kept hn]
    exact hstaged.modes hn hnothing

theorem rename_binary (hfit : Fit h dir t)
    (hwritable : ∀ {name}, IsStaging name → h.Writable t name)
    {fs₂ : FileSystem} (hstaged : Staged t x y binary script h.files fs₂) :
    (Replaceable h t Loader.binaryName → ∃ fs₃,
      (h.withFiles fs₂).rename (staging (within dir).binary) (within dir).binary =
          .ok (h.withFiles fs₃) ∧
        Renamed t (stagingName Loader.binaryName) Loader.binaryName x fs₂ fs₃) ∧
    (¬ Replaceable h t Loader.binaryName → ∃ cause,
      (h.withFiles fs₂).rename (staging (within dir).binary) (within dir).binary =
        .error cause) := by
  rw [within, staging_join]
  refine rename_edited hfit hstaged.edits ?_ (fun hn hchild => (hstaged.own hn hchild).2)
    staging_binary (.inl rfl) ?_ (.inl rfl) hstaged.binaryEntry hstaged.binaryFile
  · exact fun hname hchild => ⟨(hwritable hname).plain hchild, hfit.noLink (.inr hname) hchild⟩
  · exact fun hname => hname.not_output (.inl rfl)

theorem rename_script (hfit : Fit h dir t)
    (hwritable : ∀ {name}, IsStaging name → h.Writable t name)
    {fs₂ fs₃ : FileSystem} (hstaged : Staged t x y binary script h.files fs₂)
    (hreplaceable : Replaceable h t Loader.binaryName)
    (hbinary : Renamed t (stagingName Loader.binaryName) Loader.binaryName x fs₂ fs₃) :
    (Replaceable h t Loader.scriptName → ∃ fs₄,
      (h.withFiles fs₃).rename (staging (within dir).script) (within dir).script =
          .ok (h.withFiles fs₄) ∧
        Renamed t (stagingName Loader.scriptName) Loader.scriptName y fs₃ fs₄) ∧
    (¬ Replaceable h t Loader.scriptName → ∃ cause,
      (h.withFiles fs₃).rename (staging (within dir).script) (within dir).script =
        .error cause) := by
  obtain ⟨hedits, hentry, hkept⟩ :=
    staged_of_renamed hfit.enters.reaches.isDirectory hstaged hbinary
  have hfile : fs₃.IsFile y (.ofBytes script) := by
    rw [IsFile, node?, hkept (.inr rfl)]
    exact hstaged.scriptFile
  rw [within, staging_join]
  refine rename_edited hfit hedits ?_ (fun hn hchild => (hstaged.own hn hchild).2) staging_script
    (.inr rfl) ?_ (.inr rfl) hentry hfile
  · rintro name n (rfl | hname) hchild
    · exact ⟨hreplaceable.1 hchild, hfit.noLink (.inl (.inl rfl)) hchild⟩
    · exact ⟨(hwritable hname).plain hchild, hfit.noLink (.inr hname) hchild⟩
  · rintro (heq | hname)
    · revert heq
      decide
    · exact hname.not_output (.inr rfl)

theorem publish_of_granted (hfit : Fit h dir t) (hgranted : Granted h t)
    (hsized : Sized binary script) :
    ∃ x y fs', publish dir binary script h = (.ok (within dir), h.withFiles fs') ∧
      Published t x y binary script h.files fs' := by
  have replaceable : ∀ {name}, IsOutput name → Replaceable h t name := fun hname =>
    ⟨hgranted.output hname, hgranted.directory⟩
  obtain ⟨x, y, fs₂, hstage, hstaged⟩ := stageBoth_of_granted hfit hgranted.staging hsized
  obtain ⟨fs₃, hfirst, hbinary⟩ :=
    (rename_binary hfit hgranted.staging hstaged).1 (replaceable (.inl rfl))
  obtain ⟨fs₄, hsecond, hscript⟩ :=
    (rename_script hfit hgranted.staging hstaged (replaceable (.inl rfl)) hbinary).1
      (replaceable (.inr rfl))
  refine ⟨x, y, fs₄, ?_,
    published_of_renamed hfit.enters.reaches.isDirectory hstaged hbinary hscript⟩
  rw [publish, createDirectories_of_isDirectory hfit.stands]
  simp only [hstage, hfirst, hsecond]

theorem publish_of_not_granted (hfit : Fit h dir t) (hgranted : ¬ Granted h t)
    (binary script : Bytes) :
    ∃ f after, publish dir binary script h = (.error f, after) := by
  rw [publish, createDirectories_of_isDirectory hfit.stands]
  simp only
  by_cases hstaging : (∀ {name}, IsStaging name → h.Writable t name) ∧ Sized binary script
  · obtain ⟨hstaging, hsized⟩ := hstaging
    obtain ⟨x, y, fs₂, hstage, hstaged⟩ := stageBoth_of_granted hfit hstaging hsized
    rw [hstage]
    simp only
    by_cases hreplaceable : Replaceable h t Loader.binaryName
    · obtain ⟨fs₃, hfirst, hbinary⟩ := (rename_binary hfit hstaging hstaged).1 hreplaceable
      rw [hfirst]
      simp only
      have hsecond : ¬ Replaceable h t Loader.scriptName := by
        refine fun hreplaceable' => hgranted ⟨hreplaceable.2, hstaging, fun hname hchild => ?_⟩
        rcases hname with rfl | rfl
        · exact hreplaceable.1 hchild
        · exact hreplaceable'.1 hchild
      obtain ⟨cause, herror⟩ := (rename_script hfit hstaging hstaged hreplaceable hbinary).2 hsecond
      rw [herror]
      exact ⟨_, _, rfl⟩
    · obtain ⟨cause, herror⟩ := (rename_binary hfit hstaging hstaged).2 hreplaceable
      rw [herror]
      exact ⟨_, _, rfl⟩
  · obtain ⟨f, after, hfailed⟩ := stageBoth_of_not_granted hfit hstaging
    rw [hfailed]
    exact ⟨_, _, rfl⟩

/-! ## Afterwards -/

/-- One of the four locations that publishing in a directory is about. -/
def Touched (h : Host) (dir : Bytes) (loc : Location) : Prop :=
  ∃ t front name, h.Reaches dir t ∧ h.files.at? front = some t ∧ loc = front ++ [name] ∧
    (IsOutput name ∨ IsStaging name)

section Published

variable {fs' : FileSystem} (hfit : Fit h dir t) (hgranted : Granted h t)
  (hp : Published t x y binary script h.files fs')

include hfit hgranted in
theorem plain_of_published {name : Name} {n : InodeNumber} (hname : IsOutput name ∨ IsStaging name)
    (hchild : h.files.child? t name = some n) :
    ¬ h.files.IsDirectory n ∧ ¬ h.files.IsLink n := by
  refine ⟨?_, hfit.noLink hname hchild⟩
  rcases hname with hname | hname
  · exact hgranted.output hname hchild
  · exact (hgranted.staging hname).plain hchild

include hfit hgranted hp in
theorem keepsPaths_of_published : KeepsPaths h.files fs' :=
  hp.edits.keepsPaths hfit.enters.reaches.isDirectory fun hname hchild =>
    plain_of_published hfit hgranted hname hchild

include hfit hgranted hp in
theorem contentsAt_of_published :
    (h.withFiles fs').contentsAt (within dir).binary = some binary ∧
      (h.withFiles fs').contentsAt (within dir).script = some script := by
  have henters := hfit.enters.keep (keepsPaths_of_published hfit hgranted hp)
  exact ⟨Host.contentsAt_join henters (IsOutput.isName (.inl rfl)) (hfit.short (.inl (.inl rfl)))
      hp.binaryEntry hp.binaryFile hp.binaryFile.atMostFile.not_link,
    Host.contentsAt_join henters (IsOutput.isName (.inr rfl)) (hfit.short (.inl (.inr rfl)))
      hp.scriptEntry hp.scriptFile hp.scriptFile.atMostFile.not_link⟩

include hfit hgranted hp in
theorem stat_staging_of_published {name : Name} (hname : IsStaging name) :
    (h.withFiles fs').stat (join dir name) = .error .notFound :=
  Host.stat_join_vacant (hfit.enters.keep (keepsPaths_of_published hfit hgranted hp)) hname.isName
    (hfit.short (.inr hname)) (hp.unstaged hname)

include hfit hgranted hp in
theorem seen_of_published (hroot : h.files.IsDirectory root) {loc : Location}
    (hloc : ¬ Touched h dir loc) : fs'.seen loc = h.files.seen loc := by
  have ht := hfit.enters.reaches.isDirectory
  have untouched : ∀ front name, loc = front ++ [name] → h.files.at? front = some t →
      ¬ (IsOutput name ∨ IsStaging name) := fun front name heq hfront hname =>
    hloc ⟨t, front, name, hfit.enters.reaches, hfront, heq, hname⟩
  have plain : ∀ {name n}, IsOutput name ∨ IsStaging name → h.files.child? t name = some n →
      ¬ h.files.IsDirectory n := fun hname hchild =>
    (plain_of_published hfit hgranted hname hchild).1
  have plain' : ∀ {name n}, IsOutput name ∨ IsStaging name → fs'.child? t name = some n →
      ¬ fs'.IsDirectory n := by
    rintro name n ((rfl | rfl) | hname) hchild
    · obtain rfl := Option.some.inj (hp.binaryEntry.symm.trans hchild)
      exact hp.binaryFile.atMostFile.not_directory
    · obtain rfl := Option.some.inj (hp.scriptEntry.symm.trans hchild)
      exact hp.scriptFile.atMostFile.not_directory
    · rw [hp.unstaged hname] at hchild
      cases hchild
  refine seen_of_edits hp.edits ht hroot plain plain' (fun hstaged hchild => ?_) untouched
  obtain ⟨hd, hname⟩ := hp.own hstaged hchild
  exact ⟨hd, .inr hname⟩

/-! ## Once more -/

include hp in
/-- What an entry of another directory leads to, if that is not this one, was not touched. -/
theorem inode?_of_published {d n : InodeNumber} {name : Name} (hother : d ≠ t)
    (hchild : h.files.child? d name = some n) (hn : n ≠ t) : fs'.inode? n = h.files.inode? n :=
  hp.edits.inode?_eq hn fun hstaged => hother (hp.own hstaged hchild).1

include hp in
theorem isFile_of_published {name : Name} {n : InodeNumber} (hname : IsOutput name)
    (hchild : fs'.child? t name = some n) : ∃ contents, fs'.IsFile n contents := by
  rcases hname with rfl | rfl
  · obtain rfl := Option.some.inj (hp.binaryEntry.symm.trans hchild)
    exact ⟨_, hp.binaryFile⟩
  · obtain rfl := Option.some.inj (hp.scriptEntry.symm.trans hchild)
    exact ⟨_, hp.scriptFile⟩

include hfit hp in
theorem leads_of_published : fs'.Leads := by
  have ht := hfit.enters.reaches.isDirectory
  have isNumber : ∀ {n node}, fs'.node? n = some node → ∃ i, fs'.inode? n = some i := by
    intro n node hnode
    obtain ⟨i, hi, -⟩ := Option.map_eq_some_iff.mp hnode
    exact ⟨i, hi⟩
  intro d name n hchild
  by_cases htouched : d = t ∧ (IsOutput name ∨ IsStaging name)
  · obtain ⟨rfl, hname | hname⟩ := htouched
    · obtain ⟨contents, hfile⟩ := isFile_of_published hp hname hchild
      exact isNumber hfile
    · rw [hp.unstaged hname] at hchild
      cases hchild
  · rw [hp.edits.child?_eq htouched] at hchild
    by_cases hn : n = t
    · obtain ⟨parent, entries, removed, hnode⟩ := hp.edits.isDirectory ht
      exact isNumber (hn ▸ hnode)
    · rw [hp.edits.inode?_eq hn fun hstaged => htouched (by
        obtain ⟨hd, hname⟩ := hp.own hstaged hchild
        exact ⟨hd, .inr hname⟩)]
      exact hfit.leads hchild

include hfit hgranted hp in
theorem fit_of_published : Fit (h.withFiles fs') dir t := by
  have hkeeps := keepsPaths_of_published hfit hgranted hp
  refine ⟨hfit.enters.keep hkeeps, hkeeps.stands hfit.stands,
    hp.edits.kept hfit.enters.reaches.isDirectory hfit.kept, hfit.short,
    leads_of_published hfit hp, fun hname hchild => ?_, fun hname n hchild => ?_⟩
  · rcases hname with hname | hname
    · obtain ⟨contents, hfile⟩ := isFile_of_published hp hname hchild
      exact hfile.atMostFile.not_link
    · cases (hp.unstaged hname).symm.trans hchild
  · cases (hp.unstaged hname).symm.trans hchild

include hfit hgranted hp in
theorem granted_of_published : Granted (h.withFiles fs') t := by
  have hadd : (h.withFiles fs').mayAdd t = .ok () :=
    (Host.mayAdd_of_edits hp.edits hfit.enters.reaches.isDirectory).trans hgranted.directory
  refine ⟨hadd, fun hname => ⟨fun _ => hadd, fun hchild => ?_, fun hchild => ?_⟩,
    fun hname hchild => ?_⟩
  · cases (hp.unstaged hname).symm.trans hchild
  · cases (hp.unstaged hname).symm.trans hchild
  · obtain ⟨contents, hfile⟩ := isFile_of_published hp hname hchild
    exact hfile.atMostFile.not_directory

include hfit hgranted hp in
/-- Publishing the same again changes nothing that is to be seen, except that an output that was
written to a file staged earlier has the permissions of a new one then. -/
theorem view_of_republished (hroot : h.files.IsDirectory root) {x' y' : InodeNumber}
    {fs'' : FileSystem} (hp' : Published t x' y' binary script fs' fs'') (loc : Location) :
    fs''.view loc = fs'.view loc ∧
      ((∀ {name}, IsStaging name → h.files.child? t name = none) →
        fs''.modeAt loc = fs'.modeAt loc) := by
  have hfit' := fit_of_published hfit hgranted hp
  have hgranted' := granted_of_published hfit hgranted hp
  by_cases hloc : Touched (h.withFiles fs') dir loc
  · obtain ⟨d, front, name, hd, hfront, rfl, hname⟩ := hloc
    replace hfront : fs'.at? front = some t := by
      rw [← hfit'.enters.reaches.unique hd]
      exact hfront
    have hfront' : fs''.at? front = some t :=
      (keepsPaths_of_published hfit' hgranted' hp').descend hfit'.enters.reaches.isDirectory hfront
    have below : ∀ {gs : FileSystem}, gs.at? front = some t →
        gs.at? (front ++ [name]) = gs.child? t name := by
      intro gs hgs
      rw [at?] at hgs ⊢
      rw [descend_concat, hgs, Option.bind_some]
    have same : ∀ {n n' contents}, n = x ∨ n = y → n' = x' ∨ n' = y' →
        fs'.child? t name = some n → fs''.child? t name = some n' → fs'.IsFile n contents →
          fs''.IsFile n' contents → fs''.view (front ++ [name]) = fs'.view (front ++ [name]) ∧
            ((∀ {name}, IsStaging name → h.files.child? t name = none) →
              fs''.modeAt (front ++ [name]) = fs'.modeAt (front ++ [name])) := by
      intro n n' contents hn hn' hchild hchild' hfile hfile'
      have hat : fs'.at? (front ++ [name]) = some n := (below hfront).trans hchild
      have hat' : fs''.at? (front ++ [name]) = some n' := (below hfront').trans hchild'
      refine ⟨(view_of_at? hat' hfile').trans (view_of_at? hat hfile).symm, fun hnothing => ?_⟩
      rw [modeAt, modeAt, hat, hat', Option.bind_some, Option.bind_some]
      exact (hp'.modes hn' hp.unstaged).trans (hp.modes hn hnothing).symm
    rcases hname with (rfl | rfl) | hname
    · exact same (.inl rfl) (.inl rfl) hp.binaryEntry hp'.binaryEntry hp.binaryFile hp'.binaryFile
    · exact same (.inr rfl) (.inr rfl) hp.scriptEntry hp'.scriptEntry hp.scriptFile hp'.scriptFile
    · have gone : ∀ {gs : FileSystem}, gs.at? front = some t → gs.child? t name = none →
          gs.view (front ++ [name]) = none ∧ gs.modeAt (front ++ [name]) = none := by
        intro gs hgs hnone
        rw [view, viewFrom, modeAt, ← at?, below hgs, hnone]
        exact ⟨rfl, rfl⟩
      obtain ⟨hview, hmode⟩ := gone hfront (hp.unstaged hname)
      obtain ⟨hview', hmode'⟩ := gone hfront' (hp'.unstaged hname)
      exact ⟨hview'.trans hview.symm, fun _ => hmode'.trans hmode.symm⟩
  · obtain ⟨hview, hmode⟩ := view_of_seen
      (seen_of_published hfit' hgranted' hp' (hp.edits.isDirectory hroot) hloc)
    exact ⟨hview, fun _ => hmode⟩

end Published

end

end Outputs
end WasmPackager
