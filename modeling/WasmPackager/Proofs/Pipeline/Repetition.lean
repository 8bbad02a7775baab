/-
# `Proofs.Pipeline.Repetition` — packaging depends on one directory, and can be repeated

What is published lies above the directory that is scanned, and has the very
extensions that are looked for there.  Still the toolchain's directory alone
decides what is published: where it looks the same (`SameBuild`), the outputs
come out the same, whatever else differs (`Deliverable.unique`).  And publishing
leaves it as it is, so that a host which was ready for packaging is ready again
afterwards (`ready_again`).
-/
import WasmPackager.Proofs.Pipeline.Delivery

namespace WasmPackager

/-! ## Directories that look the same -/

namespace FileSystem

variable {fs fs' : FileSystem} {d d' : InodeNumber} {name name' : Name} {extension : Bytes}
  {contents contents' : Contents}

theorem hasFile_iff_viewFrom :
    fs.HasFile d name contents ↔ fs.viewFrom d [name] = some (.file contents) := by
  rw [HasFile, viewFrom_name]
  cases fs.child? d name with
  | none => simp
  | some n =>
      rw [Option.bind_some]
      cases hnode : fs.node? n with
      | none => simp [IsFile, hnode]
      | some node => cases node <;> simp [IsFile, hnode, kind]

theorem Sole.of_viewFrom (hsame : ∀ name, fs'.viewFrom d' [name] = fs.viewFrom d [name])
    (h : fs.Sole d extension name contents) : fs'.Sole d' extension name contents := by
  have hasFile_iff : ∀ {other contents},
      fs'.HasFile d' other contents ↔ fs.HasFile d other contents := by
    intro other contents
    rw [hasFile_iff_viewFrom, hasFile_iff_viewFrom, hsame]
  exact ⟨hasFile_iff.mpr h.found, h.extended, fun hother => h.only (hasFile_iff.mp hother)⟩

theorem Sole.unique (h : fs.Sole d extension name contents)
    (h' : fs.Sole d extension name' contents') : name' = name ∧ contents' = contents := by
  obtain rfl := h.only h'.found h'.extended
  exact ⟨rfl, h.found.unique h'.found⟩

end FileSystem

namespace Pipeline

open FileSystem WasmPackager.Path

/-- The toolchain's directories have the same entries, of the same kinds and with the same
contents. -/
def SameBuild (c : Config) (h h' : Host) : Prop :=
  ∀ b b', h.Reaches c.buildDir b → h'.Reaches c.buildDir b' →
    ∀ name, h'.files.viewFrom b' [name] = h.files.viewFrom b [name]

variable {c : Config} {h h' : Host} {t b b' x y : InodeNumber} {m l m' l' : Name}
  {module loader module' loader' : Contents} {script script' : Bytes} {fs' : FileSystem}

/-! ## What is published -/

/-- What there is to deliver is decided by the directory it is found in. -/
theorem Deliverable.unique (hsame : ∀ name, h'.files.viewFrom b' [name] = h.files.viewFrom b [name])
    (hd : Deliverable c h b m l module loader script)
    (hd' : Deliverable c h' b' m' l' module' loader' script') :
    module' = module ∧ script' = script := by
  obtain ⟨rfl, rfl⟩ := (hd.moduleSole.of_viewFrom hsame).unique hd'.moduleSole
  obtain ⟨rfl, rfl⟩ := (hd.loaderSole.of_viewFrom hsame).unique hd'.loaderSole
  exact ⟨rfl, Except.ok.inj (hd'.adapted.symm.trans hd.adapted)⟩

theorem package_determined (ho : c.Orderly h) (ho' : c.Orderly h') (hsame : SameBuild c h h')
    {stage stage' : Stage} {outputs outputs' : Outputs} {after after' : Host}
    (hends : PackageEnds c h stage (.ok outputs) after)
    (hends' : PackageEnds c h' stage' (.ok outputs') after') :
    outputs' = outputs ∧ ∃ binary script, ∀ host, host = after ∨ host = after' →
      host.contentsAt outputs.binary = some binary ∧
        host.contentsAt outputs.script = some script := by
  obtain ⟨t, b, m, l, module, loader, script, hr⟩ := ready_of_package ho hends
  obtain ⟨t', b', m', l', module', loader', script', hr'⟩ := ready_of_package ho' hends'
  obtain ⟨x, y, fs, hpublish, hp⟩ := package_of_ready hr
  obtain ⟨x', y', fs', hpublish', hp'⟩ := package_of_ready hr'
  obtain ⟨-, houtputs, rfl⟩ := hpublish.unique hends
  obtain ⟨-, houtputs', rfl⟩ := hpublish'.unique hends'
  obtain rfl := Except.ok.inj houtputs
  obtain rfl := Except.ok.inj houtputs'
  obtain ⟨rfl, rfl⟩ := hr.deliverable.unique (hsame b b' hr.enters.reaches hr'.enters.reaches)
    hr'.deliverable
  refine ⟨rfl, module'.bytes, script', ?_⟩
  rintro host (rfl | rfl)
  · exact Outputs.contentsAt_of_published hr.fit hr.granted hp
  · exact Outputs.contentsAt_of_published hr'.fit hr'.granted hp'

/-! ## Packaging again -/

section

variable (hr : Ready c h t b m l module loader script)
  (hp : Outputs.Published t x y module.bytes script h.files fs')

include hr hp

theorem inode?_build : fs'.inode? b = h.files.inode? b :=
  hp.edits.inode?_eq (Ne.symm hr.apart) fun hstaged =>
    (hp.edits.before hstaged).not_directory hr.enters.reaches.isDirectory

theorem stat_of_published {name : Name} {contents : Contents}
    (hfile : h.files.HasFile b name contents) (hshort : (join c.buildDir name).length < pathLimit) :
    (h.withFiles fs').stat (join c.buildDir name) = h.stat (join c.buildDir name) := by
  have hkeeps := Outputs.keepsPaths_of_published hr.fit hr.granted hp
  obtain ⟨n, hchild, hn⟩ := hfile
  have hne : n ≠ t := fun heq =>
    hn.atMostFile.not_directory (heq ▸ hr.fit.enters.reaches.isDirectory)
  have hinode := Outputs.inode?_of_published hp (Ne.symm hr.apart) hchild hne
  have hchild' : fs'.child? b name = some n := (child?_congr (inode?_build hr hp) name).trans hchild
  obtain ⟨i, hi, hnode⟩ := Option.map_eq_some_iff.mp hn
  have hname := hr.plain.named hchild
  have hn' : fs'.IsFile n contents := by
    rw [IsFile, node?_of_inode? (hinode.trans hi), hnode]
  rw [Host.stat_join hr.enters hname hshort hchild hi hn.atMostFile.not_link,
    Host.stat_join (hr.enters.keep hkeeps) hname hshort hchild' (hinode.trans hi)
      hn'.atMostFile.not_link]

theorem viewFrom_of_published (name : Name) :
    fs'.viewFrom b [name] = h.files.viewFrom b [name] := by
  have ht := hr.fit.enters.reaches.isDirectory
  rw [viewFrom_name, viewFrom_name, child?_congr (inode?_build hr hp) name]
  cases hchild : h.files.child? b name with
  | none => rfl
  | some n =>
      rw [Option.bind_some, Option.bind_some]
      by_cases hn : n = t
      · obtain ⟨parent, entries, removed, hnode⟩ := ht
        obtain ⟨i, hi, hdir⟩ := Option.map_eq_some_iff.mp hnode
        obtain ⟨i', entries', hi', hdir', -⟩ := hp.edits.directory hi hdir
        rw [hn, node?_of_inode? hi, node?_of_inode? hi', hdir, hdir']
        rfl
      · rw [node?, node?, Outputs.inode?_of_published hp (Ne.symm hr.apart) hchild hn]

theorem plain_build : fs'.Plain b := by
  have hb := inode?_build hr hp
  refine ⟨?_, fun {name n} hchild => ?_, fun {name n} hchild => ?_⟩
  · rw [entries, node?, hb]
    exact hr.plain.distinct
  · rw [child?_congr hb] at hchild
    exact hr.plain.named hchild
  · rw [child?_congr hb] at hchild
    by_cases hn : n = t
    · rintro ⟨target, hlink⟩
      obtain ⟨parent, entries, removed, hdir⟩ :=
        hp.edits.isDirectory hr.fit.enters.reaches.isDirectory
      rw [hn, hdir] at hlink
      cases hlink
    · rw [IsLink, node?, Outputs.inode?_of_published hp (Ne.symm hr.apart) hchild hn]
      exact hr.plain.unlinked hchild

theorem deliverable_again :
    Deliverable c (h.withFiles fs') b m l module loader script := by
  have hkeeps := Outputs.keepsPaths_of_published hr.fit hr.granted hp
  have hd := hr.deliverable
  have reads : ∀ {name contents}, h.files.HasFile b name contents →
      (join c.buildDir name).length < pathLimit →
        (h.withFiles fs').read (join c.buildDir name) = h.read (join c.buildDir name) := by
    intro name contents hfile hshort
    rw [Host.read, Host.read, stat_of_published hr hp hfile hshort]
  obtain ⟨hlocate, i, hi, hdir, hread⟩ := Host.openDirectory_iff.mp hd.listed
  refine {
    listed := Host.openDirectory_iff.mpr
      ⟨hkeeps.locate hr.enters.reaches.isDirectory hlocate, i, ?_, hdir, hread⟩
    moduleSole := hd.moduleSole.of_viewFrom (viewFrom_of_published hr hp)
    loaderSole := hd.loaderSole.of_viewFrom (viewFrom_of_published hr hp)
    moduleRead := (reads hd.moduleSole.found hr.moduleShort).trans hd.moduleRead
    loaderRead := (reads hd.loaderSole.found hr.loaderShort).trans hd.loaderRead
    moduleSize := hd.moduleSize
    loaderSize := hd.loaderSize
    adapted := hd.adapted }
  exact (inode?_build hr hp).trans hi

theorem ready_again : Ready c (h.withFiles fs') t b m l module loader script where
  fit := Outputs.fit_of_published hr.fit hr.granted hp
  granted := Outputs.granted_of_published hr.fit hr.granted hp
  enters := hr.enters.keep (Outputs.keepsPaths_of_published hr.fit hr.granted hp)
  plain := plain_build hr hp
  apart := hr.apart
  moduleShort := hr.moduleShort
  loaderShort := hr.loaderShort
  deliverable := deliverable_again hr hp

end

/-- Packaging that succeeds would succeed again, with nothing else to be seen after it. -/
theorem package_again (ho : c.Orderly h) {stage : Stage} {outputs : Outputs} {after : Host}
    (hends : PackageEnds c h stage (.ok outputs) after) :
    ∃ stage' after', PackageEnds c after stage' (.ok outputs) after' ∧ after'.cwd = after.cwd ∧
      ∀ loc, after'.files.view loc = after.files.view loc ∧
        ((∀ name, Outputs.IsStaging name → h.stat (join c.outputDir name) = .error .notFound) →
          after'.files.modeAt loc = after.files.modeAt loc) := by
  obtain ⟨t, b, m, l, module, loader, script, hr⟩ := ready_of_package ho hends
  obtain ⟨x, y, fs', hfirst, hp⟩ := package_of_ready hr
  obtain ⟨-, houtputs, rfl⟩ := hfirst.unique hends
  obtain ⟨x', y', fs'', hsecond, hp'⟩ := package_of_ready (ready_again hr hp)
  refine ⟨.publish, (h.withFiles fs').withFiles fs'', houtputs ▸ hsecond, rfl, fun loc => ?_⟩
  obtain ⟨hview, hmode⟩ :=
    Outputs.view_of_republished hr.fit hr.granted hp ho.tree.rooted hp' loc
  refine ⟨hview, fun hnothing => hmode fun {name} hname => ?_⟩
  -- what had the name would be found under the path
  cases hchild : h.files.child? t name with
  | none => rfl
  | some n =>
      obtain ⟨i, hi⟩ := hr.fit.leads hchild
      have hstat := Host.stat_join hr.fit.enters hname.isName (hr.fit.short (.inr hname)) hchild hi
        (hr.fit.noLink (.inr hname) hchild)
      rw [hnothing name hname] at hstat
      cases hstat

theorem on_package_of_ends {s : Session} {stage : Stage} {r : Except Failure Outputs} {after : Host}
    (hends : PackageEnds c s.host stage r after) :
    ((package c).on s).1 = r ∧ ((package c).on s).2.host = after := by
  obtain ⟨⟨stage', hends'⟩, -⟩ := package_ends c s
  obtain ⟨-, hr, hafter⟩ := hends.unique hends'
  exact ⟨hr, hafter⟩

theorem package_congr {s s' : Session} (hhost : s'.host = s.host) :
    ((package c).on s').1 = ((package c).on s).1 ∧
      ((package c).on s').2.host = ((package c).on s).2.host := by
  obtain ⟨⟨stage, hends⟩, -⟩ := package_ends c s
  rw [← hhost] at hends
  exact on_package_of_ends hends

/-- The outputs depend on the toolchain's directory only, and packaging can be repeated: on orderly
file systems that agree on the directory it leaves the same module and the same script, and done
again right away it succeeds again and leaves everything as it was; that goes for permissions, too,
if nothing was staged at first. -/
theorem packaging_repeats (c : Config) :
    (∀ s s' : Session, ∀ outputs outputs', c.Orderly s.host → c.Orderly s'.host →
      SameBuild c s.host s'.host → ((package c).on s).1 = .ok outputs →
      ((package c).on s').1 = .ok outputs' →
      outputs' = outputs ∧ ∃ binary script, ∀ host, host = ((package c).on s).2.host ∨
        host = ((package c).on s').2.host → host.contentsAt outputs.binary = some binary ∧
          host.contentsAt outputs.script = some script) ∧
    ∀ s : Session, ∀ outputs, c.Orderly s.host → ((package c).on s).1 = .ok outputs →
      let first := ((package c).on s).2
      let second := ((package c).on first).2
      ((package c).on first).1 = .ok outputs ∧ second.host.cwd = first.host.cwd ∧
        ∀ loc, second.host.files.view loc = first.host.files.view loc ∧
          ((∀ name, Outputs.IsStaging name →
              s.host.stat (join c.outputDir name) = .error .notFound) →
            second.host.files.modeAt loc = first.host.files.modeAt loc) := by
  constructor
  · intro s s' outputs outputs' ho ho' hsame hok hok'
    obtain ⟨⟨stage, hends⟩, -⟩ := package_ends c s
    obtain ⟨⟨stage', hends'⟩, -⟩ := package_ends c s'
    rw [hok] at hends
    rw [hok'] at hends'
    exact package_determined ho ho' hsame hends hends'
  · intro s outputs ho hok first second
    obtain ⟨⟨stage, hends⟩, -⟩ := package_ends c s
    rw [hok] at hends
    obtain ⟨stage', after', hagain, hcwd, hview⟩ := package_again ho hends
    obtain ⟨hresult, hafter⟩ := on_package_of_ends hagain
    refine ⟨hresult, ?_, fun loc => ?_⟩
    · rw [hafter]
      exact hcwd
    · rw [hafter]
      exact hview loc

/-! ## The project again -/

section Sample

variable {more : List (Name × InodeNumber)}

theorem viewFrom_sample (name : Name) :
    (sample more).files.viewFrom 4 [name] = (sample []).files.viewFrom 4 [name] := by
  have same : (sample more).files.child? 4 name = (sample []).files.child? 4 name := rfl
  rw [viewFrom_name, viewFrom_name, same]
  cases hchild : (sample []).files.child? 4 name with
  | none => rfl
  | some n =>
      rcases child?_sample hchild with ⟨-, rfl⟩ | ⟨-, rfl⟩ <;> rfl

theorem sameBuild_sample (more more' : List (Name × InodeNumber)) :
    SameBuild sampleConfig (sample more) (sample more') := by
  intro b b' hb hb' name
  rw [(enters_sample more).2.reaches.unique hb, (enters_sample more').2.reaches.unique hb']
  exact (viewFrom_sample name).trans (viewFrom_sample name).symm

theorem package_sample (more : List (Name × InodeNumber)) :
    ((package sampleConfig).on ⟨sample more, none, []⟩).1 = (publishSample (sample more)).1 ∧
      ((package sampleConfig).on ⟨sample more, none, []⟩).2.host =
        (publishSample (sample more)).2 :=
  on_package_of_ends (s := ⟨sample more, none, []⟩) (sample_ends more)

theorem sample_ends_again (ho : sampleConfig.Orderly (sample more)) {outputs : Outputs}
    (hok : (publishSample (sample more)).1 = .ok outputs) :
    PackageEnds sampleConfig (publishSample (sample more)).2 .publish
      (publishSample (publishSample (sample more)).2).1
      (publishSample (publishSample (sample more)).2).2 := by
  have hpublish : publishSample (sample more) = (.ok outputs, (publishSample (sample more)).2) :=
    Prod.ext hok rfl
  obtain ⟨t, hr⟩ := ready_of_deliverable ho (by decide) (deliverable_sample more)
    fun hfit => granted_of_publish hfit hpublish
  obtain ⟨x, y, fs', hends, hp⟩ := package_of_ready hr
  obtain ⟨-, -, hafter⟩ := hends.unique (sample_ends more)
  have hr' := ready_again hr hp
  rw [hafter]
  exact ends_of_deliverable hr'.enters hr'.plain hr'.moduleShort hr'.loaderShort hr'.deliverable rfl

theorem package_sample_again (ho : sampleConfig.Orderly (sample more)) {outputs : Outputs}
    (hok : (publishSample (sample more)).1 = .ok outputs) :
    ((package sampleConfig).on ((package sampleConfig).on ⟨sample more, none, []⟩).2).2.host =
      (publishSample (publishSample (sample more)).2).2 := by
  obtain ⟨-, hhost⟩ := package_sample more
  rw [(package_congr (s := ⟨(publishSample (sample more)).2, none, []⟩) hhost).2]
  exact (on_package_of_ends (s := ⟨(publishSample (sample more)).2, none, []⟩)
    (sample_ends_again ho hok)).2

end Sample

theorem orderly_clean : sampleConfig.Orderly (sample []) where
  tree := isTree_of_forall (by decide) (by decide)
  linkFree := linkFree_of_forall (by decide) _
  spareBinary := by decide
  spareScript := by decide

theorem publish_clean : (publishSample (sample [])).1 =
    .ok (Outputs.within sampleConfig.outputDir) := by decide

/-- What is there in the output directory before, a script staged earlier for one, leaves no
traces. -/
theorem packaging_repeats_sample :
    let clean : Session := ⟨sample [], none, []⟩
    let stale : Session := ⟨sample [(Outputs.stagingName Loader.scriptName, 8)], none, []⟩
    let outputs := Outputs.within sampleConfig.outputDir
    sampleConfig.Orderly clean.host ∧ sampleConfig.Orderly stale.host ∧
      SameBuild sampleConfig clean.host stale.host ∧
      ((package sampleConfig).on clean).1 = .ok outputs ∧
      ((package sampleConfig).on stale).1 = .ok outputs ∧
      (∃ binary script, ∀ host, host = ((package sampleConfig).on clean).2.host ∨
        host = ((package sampleConfig).on stale).2.host →
          host.contentsAt outputs.binary = some binary ∧
            host.contentsAt outputs.script = some script) ∧
      ((package sampleConfig).on ((package sampleConfig).on stale).2).1 = .ok outputs ∧
      ∀ loc, ((package sampleConfig).on ((package sampleConfig).on stale).2).2.host.files.view loc =
        ((package sampleConfig).on stale).2.host.files.view loc := by
  obtain ⟨hclean, -⟩ := package_sample []
  obtain ⟨hstale, -⟩ := package_sample [(Outputs.stagingName Loader.scriptName, 8)]
  replace hclean := hclean.trans publish_clean
  replace hstale := hstale.trans publish_sample
  have hsame := sameBuild_sample [] [(Outputs.stagingName Loader.scriptName, 8)]
  obtain ⟨same, again⟩ := packaging_repeats sampleConfig
  obtain ⟨hresult, -, hview⟩ := again _ _ orderly_sample hstale
  exact ⟨orderly_clean, orderly_sample, hsame, hclean, hstale,
    (same _ _ _ _ orderly_clean orderly_sample hsame hclean hstale).2, hresult,
    fun loc => (hview loc).1⟩

/-! ## Where names are shared -/

/-- If both staging names are names of one file, the module is published with the bytes of the
script. -/
theorem outputs_differ_of_shared :
    let shared := sample [(Outputs.stagingName Loader.binaryName, 8),
      (Outputs.stagingName Loader.scriptName, 8)]
    let outputs := Outputs.within sampleConfig.outputDir
    shared.files.IsTree ∧ shared.LinkFree sampleConfig.root ∧
      SameBuild sampleConfig (sample []) shared ∧
      ((package sampleConfig).on ⟨sample [], none, []⟩).1 = .ok outputs ∧
      ((package sampleConfig).on ⟨shared, none, []⟩).1 = .ok outputs ∧
      ((package sampleConfig).on ⟨shared, none, []⟩).2.host.contentsAt outputs.binary ≠
        ((package sampleConfig).on ⟨sample [], none, []⟩).2.host.contentsAt outputs.binary := by
  obtain ⟨hclean, hcleanHost⟩ := package_sample []
  obtain ⟨hshared, hsharedHost⟩ := package_sample [(Outputs.stagingName Loader.binaryName, 8),
    (Outputs.stagingName Loader.scriptName, 8)]
  refine ⟨isTree_of_forall (by decide) (by decide),
    linkFree_of_forall (by decide) _, sameBuild_sample _ _, hclean.trans publish_clean,
    hshared.trans ?_, ?_⟩
  · decide
  · rw [hcleanHost, hsharedHost]
    decide

/-- If the loader has the name that the script is staged under, it is overwritten, and cannot be
adapted another time. -/
theorem fails_again_of_linked :
    let linked := sample [(Outputs.stagingName Loader.scriptName, 6)]
    let first := ((package sampleConfig).on ⟨linked, none, []⟩)
    linked.files.IsTree ∧ linked.LinkFree sampleConfig.root ∧
      first.1 = .ok (Outputs.within sampleConfig.outputDir) ∧
      ((package sampleConfig).on first.2).1.isOk = false := by
  obtain ⟨hlinked, hhost⟩ := package_sample [(Outputs.stagingName Loader.scriptName, 6)]
  refine ⟨isTree_of_forall (by decide) (by decide),
    linkFree_of_forall (by decide) _, hlinked.trans ?_, ?_⟩
  · decide
  · rw [(package_congr
      (s := ⟨(publishSample (sample [(Outputs.stagingName Loader.scriptName, 6)])).2, none, []⟩)
      hhost).1]
    decide +kernel

/-- A script that is published in a file staged earlier has the permissions of that, and those of a
new file when it is published again. -/
theorem modeAt_differs_of_stale :
    let stale := sample [(Outputs.stagingName Loader.scriptName, 8)]
    let first := ((package sampleConfig).on ⟨stale, none, []⟩).2
    let loc := [ascii "p", Loader.targetDir, Loader.scriptName]
    sampleConfig.Orderly stale ∧
      ((package sampleConfig).on ⟨stale, none, []⟩).1 =
        .ok (Outputs.within sampleConfig.outputDir) ∧
      ((package sampleConfig).on first).2.host.files.modeAt loc ≠ first.host.files.modeAt loc := by
  obtain ⟨hstale, hhost⟩ := package_sample [(Outputs.stagingName Loader.scriptName, 8)]
  refine ⟨orderly_sample, hstale.trans publish_sample, ?_⟩
  rw [package_sample_again orderly_sample publish_sample, hhost]
  decide

/-- Only where the staging names are no other file's names do the outputs depend on the toolchain's
directory alone and can packaging be repeated, and only where nothing is staged does repeating it
leave permissions alone. -/
theorem packaging_disturbed :
    let outputs := Outputs.within sampleConfig.outputDir
    let clean := sample []
    let shared := sample [(Outputs.stagingName Loader.binaryName, 8),
      (Outputs.stagingName Loader.scriptName, 8)]
    let linked := sample [(Outputs.stagingName Loader.scriptName, 6)]
    let stale := sample [(Outputs.stagingName Loader.scriptName, 8)]
    let loc := [ascii "p", Loader.targetDir, Loader.scriptName]
    (shared.files.IsTree ∧ shared.LinkFree sampleConfig.root ∧
      SameBuild sampleConfig clean shared ∧
      ((package sampleConfig).on ⟨clean, none, []⟩).1 = .ok outputs ∧
      ((package sampleConfig).on ⟨shared, none, []⟩).1 = .ok outputs ∧
      ((package sampleConfig).on ⟨shared, none, []⟩).2.host.contentsAt outputs.binary ≠
        ((package sampleConfig).on ⟨clean, none, []⟩).2.host.contentsAt outputs.binary) ∧
    (linked.files.IsTree ∧ linked.LinkFree sampleConfig.root ∧
      ((package sampleConfig).on ⟨linked, none, []⟩).1 = .ok outputs ∧
      ((package sampleConfig).on ((package sampleConfig).on ⟨linked, none, []⟩).2).1.isOk =
        false) ∧
    (sampleConfig.Orderly stale ∧ ((package sampleConfig).on ⟨stale, none, []⟩).1 = .ok outputs ∧
      ((package sampleConfig).on
          ((package sampleConfig).on ⟨stale, none, []⟩).2).2.host.files.modeAt loc ≠
        ((package sampleConfig).on ⟨stale, none, []⟩).2.host.files.modeAt loc) :=
  ⟨outputs_differ_of_shared, fails_again_of_linked, modeAt_differs_of_stale⟩

end Pipeline

end WasmPackager
