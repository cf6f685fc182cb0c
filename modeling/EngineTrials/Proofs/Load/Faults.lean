import EngineTrials.Proofs.FileSystem.Canonical
import EngineTrials.Proofs.Load.Trail
import Mathlib.Data.List.Nodup

/-! What the faults of loading certify. A cycle names files of which each loads the next one, from
the fixture or a helper file on; a missing dependency and an unreadable file name what a file that
is needed asks for. The files that are being loaded are a trail throughout a run, so no file is
named that has been left again. -/

namespace EngineTrials

namespace Loader

variable {loader : Loader} {fs : FileSystem} {path origin file : Path} {chain : List Location}
  {directive : LoadDirective} {directives others : List LoadDirective} {key : Location}
  {source : String} {p : Progress} {log : List Entered} {fault : LoadFault}

/-- A way along load directives whose last file is one of those before, which are all different. -/
structure ComesBack (loader : Loader) (fs : FileSystem) (path : Path) (files : List Location) : Prop
    extends Route loader fs path files where
  two_le_length : 2 ≤ files.length
  distinct : files.dropLast.Nodup
  returns : ∃ last ∈ files.dropLast, files.getLast? = some last

/-- A file that is needed holds the directive. -/
def Asks (loader : Loader) (fs : FileSystem) (path origin : Path) (directive : LoadDirective) :
    Prop :=
  ∃ key source, loader.Needs fs path key ∧ fs.locate origin = .ok key ∧
    fs.textAt key = .ok source ∧ directive ∈ loadDirectives source

/-- The path is that of the fixture, of a helper file, or of what a needed file asks for. -/
def Wants (loader : Loader) (fs : FileSystem) (path file : Path) : Prop :=
  file ∈ path :: loader.implicitIncludesFor fs path ∨
    ∃ origin directive, loader.Asks fs path origin directive ∧ file = loader.resolve directive.path

/-- The fault is there among the files. -/
inductive Certified (loader : Loader) (fs : FileSystem) (path : Path) : LoadFault → Prop
  | cyclic {files : List Location} : loader.ComesBack fs path files →
      (fs.workingFolder.IsPlain → (files.map Location.toPath).dropLast.Nodup) →
      Certified loader fs path (.cyclicLoad (files.map Location.toPath))
  | missing {origin resolved : Path} {directive : LoadDirective} :
      loader.Asks fs path origin directive →
      resolved = (if (⟨directive.path⟩ : Path).isAbsolute then ⟨directive.path⟩
        else loader.sourceRoot.join ⟨directive.path⟩) →
      fs.isFile resolved = false →
      Certified loader fs path (.missingDependency directive.path resolved origin)
  | unreadable {file : Path} {fault : FileFault} : loader.Wants fs path file →
      fs.readText file = .error fault → Certified loader fs path (.unreadable file fault.message)

theorem resolve_eq (loader : Loader) (requested : String) :
    loader.resolve requested = if (⟨requested⟩ : Path).isAbsolute then ⟨requested⟩
      else loader.sourceRoot.join ⟨requested⟩ := by
  unfold resolve
  split
  · rename_i habsolute
    rw [Path.join, if_pos habsolute]
  · rfl

theorem Needs.exists_locate (h : loader.Needs fs path key) : ∃ file, fs.locate file = .ok key := by
  obtain ⟨start, ⟨first, -, hfirst⟩, hreach⟩ := h
  cases hreach with
  | refl => exact ⟨first, hfirst⟩
  | tail _ hload =>
    obtain ⟨_, _, directive, _, hkey⟩ := hload
    exact ⟨_, hkey⟩

theorem Route.nodup_map_toPath (h : loader.Route fs path chain)
    (hworking : fs.workingFolder.IsPlain) (hnodup : chain.Nodup) :
    (chain.map Location.toPath).Nodup := by
  have hplain : ∀ key ∈ chain, key.IsPlain := by
    intro key hkey
    obtain ⟨file, hfile⟩ := (h.needs hkey).exists_locate
    exact FileSystem.isPlain_of_locate hworking hfile
  exact hnodup.map_on fun a ha b hb heq => (hplain a ha).eq_of_toPath_eq (hplain b hb) heq

namespace Certified

theorem of_locate (hwants : loader.Wants fs path file) (h : locate fs file = .error fault) :
    loader.Certified fs path fault := by
  unfold locate at h
  split at h
  · simp at h
  · rename_i cause hcause
    obtain rfl := Except.error.inj h
    exact .unreadable hwants (by rw [FileSystem.readText, hcause])

theorem of_readAt (hwants : loader.Wants fs path file) (hkey : fs.locate file = .ok key)
    (h : readAt fs file key = .error fault) : loader.Certified fs path fault := by
  unfold readAt at h
  split at h
  · simp at h
  · rename_i cause hcause
    obtain rfl := Except.error.inj h
    exact .unreadable hwants (by rw [FileSystem.readText, hkey, ← hcause])

end Certified

namespace Within

theorem asks (h : loader.Within fs path chain origin (directive :: others)) :
    loader.Asks fs path origin directive := by
  obtain ⟨key, source, hlast, hkey, hsource, hsub⟩ := h.last
  exact ⟨key, source, h.trail.needs (List.mem_of_getLast? hlast), hkey, hsource,
    hsub List.mem_cons_self⟩

theorem wants (h : loader.Within fs path chain origin (directive :: others)) :
    loader.Wants fs path (loader.resolve directive.path) :=
  .inr ⟨origin, directive, h.asks, rfl⟩

/-- A directive that leads back to the trail certifies a cycle. -/
theorem comesBack (h : loader.Within fs path chain origin (directive :: others))
    (hkey : fs.locate (loader.resolve directive.path) = .ok key) (hback : key ∈ chain) :
    loader.ComesBack fs path (chain ++ [key]) where
  toRoute := h.trail.toRoute.append (h.loads hkey)
  two_le_length := by
    have := List.length_pos_of_mem hback
    simp only [List.length_append, List.length_singleton]
    omega
  distinct := by rw [List.dropLast_concat]; exact h.trail.nodup
  returns := ⟨key, by rwa [List.dropLast_concat], List.getLast?_concat⟩

end Within

/-- What a run that follows directives fails on is there. -/
theorem RunsAll.certified {outcome : Except LoadFault Progress}
    (h : RunsAll loader fs chain origin directives p log outcome)
    (hwithin : loader.Within fs path chain origin directives) (hfault : outcome = .error fault) :
    loader.Certified fs path fault := by
  induction h with
  | done => simp at hfault
  | missing hmissing =>
    obtain rfl := Except.error.inj hfault
    exact .missing hwithin.asks (resolve_eq ..) hmissing
  | unlocated _ hlocate =>
    obtain rfl := Except.error.inj hfault
    exact .of_locate hwithin.wants hlocate
  | cyclic _ hkey hback =>
    obtain rfl := Except.error.inj hfault
    refine .cyclic (hwithin.comesBack (locate_eq_ok.1 hkey) hback) fun hworking => ?_
    rw [List.map_append, List.map_singleton, List.dropLast_concat]
    exact hwithin.trail.toRoute.nodup_map_toPath hworking hwithin.trail.nodup
  | known _ _ _ _ _ ih => exact ih hwithin.rest hfault
  | unreadable _ hkey _ _ htext =>
    obtain rfl := Except.error.inj hfault
    exact .unreadable hwithin.wants (by rw [FileSystem.readText, locate_eq_ok.1 hkey, ← htext])
  | stops _ hkey hnew _ hsource _ ih =>
    exact ih (hwithin.enter (locate_eq_ok.1 hkey) hnew hsource) hfault
  | enter _ _ _ _ _ _ _ _ ih => exact ih hwithin.rest hfault

theorem Runs.certified {outcome : Except LoadFault Progress}
    (h : Runs loader fs [] origin key source p log outcome)
    (hstart : origin ∈ path :: loader.implicitIncludesFor fs path)
    (hkey : fs.locate origin = .ok key) (hsource : fs.textAt key = .ok source)
    (hfault : outcome = .error fault) : loader.Certified fs path fault := by
  obtain ⟨below, result, -, rfl, hbelow⟩ := h
  have hwithin : loader.Within fs path ([] ++ [key]) origin (loadDirectives source) :=
    .start hstart hkey hsource
  cases result with
  | error cause =>
    obtain rfl := Except.error.inj hfault
    exact hbelow.certified hwithin rfl
  | ok q => simp [Except.map] at hfault

theorem RunsIncludes.certified {fixtureKey : Location} {paths : List Path}
    {outcome : Except LoadFault Progress}
    (h : RunsIncludes loader fs fixtureKey paths p log outcome)
    (hpaths : paths ⊆ loader.implicitIncludesFor fs path) (hfault : outcome = .error fault) :
    loader.Certified fs path fault := by
  induction h with
  | done => simp at hfault
  | unlocated hlocate =>
    obtain rfl := Except.error.inj hfault
    exact .of_locate (.inl (List.mem_cons_of_mem _ (hpaths List.mem_cons_self))) hlocate
  | known _ _ _ ih => exact ih (List.subset_of_cons_subset hpaths) hfault
  | unreadable hkey _ hread =>
    obtain rfl := Except.error.inj hfault
    exact .of_readAt (.inl (List.mem_cons_of_mem _ (hpaths List.mem_cons_self)))
      (locate_eq_ok.1 hkey) hread
  | stops hkey _ hsource hrun =>
    exact hrun.certified (List.mem_cons_of_mem _ (hpaths List.mem_cons_self)) (locate_eq_ok.1 hkey)
      (readAt_eq_ok.1 hsource) hfault
  | enter _ _ _ _ _ ih => exact ih (List.subset_of_cons_subset hpaths) hfault

theorem RunsLoad.certified {outcome : Except LoadFault LoadedScript}
    (h : RunsLoad loader fs path log outcome) (hfault : outcome = .error fault) :
    loader.Certified fs path fault := by
  cases h with
  | unreadable hread =>
    obtain rfl := Except.error.inj hfault
    exact .unreadable (.inl List.mem_cons_self) hread
  | unlocated _ hlocate =>
    obtain rfl := Except.error.inj hfault
    exact .of_locate (.inl List.mem_cons_self) hlocate
  | stops _ _ hhelpers =>
    obtain rfl := Except.error.inj hfault
    exact hhelpers.certified (List.Subset.refl _) rfl
  | @enter _ _ _ _ _ result hfixture hkey _ hrun =>
    have hlocate := locate_eq_ok.1 hkey
    cases result with
    | error cause =>
      obtain rfl := Except.error.inj hfault
      exact hrun.certified List.mem_cons_self hlocate (textAt_of_readText hfixture hlocate) rfl
    | ok q => simp [Except.map] at hfault

/-- A fault of loading is there among the files: a cycle of load directives that the fixture or a
helper file leads to, or a file that is asked for and is not there, or one that cannot be read. -/
theorem load_error_certified (h : loader.load fs path = .error fault) :
    loader.Certified fs path fault := by
  obtain ⟨log, hrun⟩ := exists_runsLoad loader fs path
  exact hrun.certified h

/-- A loader from the root of the file system, without helper files. -/
def bareLoader : Loader := ⟨⟨"/"⟩, []⟩

/-- Two files that load each other. -/
def mutualFiles : FileSystem :=
  ⟨[("a.js", .ofText "load('b.js')"), ("b.js", .ofText "load('a.js')")], ⟨[]⟩⟩

def mutualFault : LoadFault :=
  .cyclicLoad (List.map Location.toPath [⟨["a.js"]⟩, ⟨["b.js"]⟩, ⟨["a.js"]⟩])

theorem load_mutualFiles : bareLoader.load mutualFiles ⟨"/a.js"⟩ = .error mutualFault := by
  have hasksB : loadDirectives "load('b.js')" = [⟨"b.js", 1⟩] := by decide +kernel
  have hasksA : loadDirectives "load('a.js')" = [⟨"a.js", 1⟩] := by decide +kernel
  have hlocA : mutualFiles.locate (bareLoader.resolve "a.js") = .ok ⟨["a.js"]⟩ := by rfl
  have hlocB : mutualFiles.locate (bareLoader.resolve "b.js") = .ok ⟨["b.js"]⟩ := by rfl
  have htextA : mutualFiles.textAt ⟨["a.js"]⟩ = .ok "load('b.js')" := by decide +kernel
  have htextB : mutualFiles.textAt ⟨["b.js"]⟩ = .ok "load('a.js')" := by decide +kernel
  have hnone : bareLoader.implicitIncludesFor mutualFiles ⟨"/a.js"⟩ = [] := by rfl
  have hback : RunsAll bareLoader mutualFiles [⟨["a.js"]⟩, ⟨["b.js"]⟩] ⟨"/b.js"⟩
      (loadDirectives "load('a.js')") .start [] (.error mutualFault) := by
    rw [hasksA]
    exact .cyclic (FileSystem.isFile_of_textAt hlocA htextA) (locate_eq_ok.2 hlocA) (by decide)
  have hinto : RunsAll bareLoader mutualFiles [⟨["a.js"]⟩] ⟨"/a.js"⟩
      (loadDirectives "load('b.js')") .start [⟨[⟨["a.js"]⟩], ⟨["b.js"]⟩⟩]
      (.error mutualFault) := by
    rw [hasksB]
    exact .stops (FileSystem.isFile_of_textAt hlocB htextB) (locate_eq_ok.2 hlocB) (by decide)
      (by decide) htextB hback
  have hvisit : Runs bareLoader mutualFiles [] ⟨"/a.js"⟩ ⟨["a.js"]⟩ "load('b.js')" .start
      [⟨[], ⟨["a.js"]⟩⟩, ⟨[⟨["a.js"]⟩], ⟨["b.js"]⟩⟩] (.error mutualFault) :=
    ⟨_, _, rfl, rfl, hinto⟩
  have hfixture : mutualFiles.readText ⟨"/a.js"⟩ = .ok "load('b.js')" :=
    FileSystem.readText_eq_ok.2 ⟨_, hlocA, htextA⟩
  have hhelpers : RunsIncludes bareLoader mutualFiles ⟨["a.js"]⟩
      (bareLoader.implicitIncludesFor mutualFiles ⟨"/a.js"⟩) .start [] (.ok .start) := by
    rw [hnone]
    exact .done _
  exact (RunsLoad.enter hfixture (locate_eq_ok.2 hlocA) hhelpers hvisit).outcome_eq.symm

/-- Two files that load each other are named as a cycle. -/
theorem load_error_certified_mutualFiles :
    bareLoader.load mutualFiles ⟨"/a.js"⟩ = .error mutualFault ∧
      mutualFault = .cyclicLoad [⟨"/a.js"⟩, ⟨"/b.js"⟩, ⟨"/a.js"⟩] ∧
        bareLoader.Certified mutualFiles ⟨"/a.js"⟩ mutualFault :=
  ⟨load_mutualFiles, by rfl, load_error_certified load_mutualFiles⟩

end Loader

end EngineTrials
