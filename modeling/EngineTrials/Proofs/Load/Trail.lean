import EngineTrials.Proofs.Load.Runs
import Mathlib.Data.List.Chain

/-! Trails: ways along load directives that come to no file twice, from the fixture or one of its
helper files. The files that are being loaded are a trail at every point of a run, which is all that
is needed to say what a run enters and why it fails. -/

namespace EngineTrials

namespace Loader

variable {loader : Loader} {fs : FileSystem} {path origin : Path} {chain : List Location}
  {directive : LoadDirective} {directives others : List LoadDirective} {key : Location}
  {source : String} {p : Progress} {log : List Entered}

/-- A way along load directives from the fixture at `path` or one of its helper files. -/
structure Route (loader : Loader) (fs : FileSystem) (path : Path) (chain : List Location) :
    Prop where
  starts : ∃ first, chain.head? = some first ∧ loader.StartsAt fs path first
  linked : chain.IsChain (loader.Loads fs)

namespace Route

theorem needs (h : loader.Route fs path chain) (hkey : key ∈ chain) :
    loader.Needs fs path key := by
  obtain ⟨first, hfirst, hstart⟩ := h.starts
  refine h.linked.induction (loader.Needs fs path) chain (fun a b hload ha => ha.loads hload)
    (fun hne => ?_) key hkey
  rw [List.head?_eq_some_head hne, Option.some.injEq] at hfirst
  exact hfirst ▸ ⟨first, hstart, .refl⟩

theorem append (h : loader.Route fs path chain)
    (hload : ∃ last, chain.getLast? = some last ∧ loader.Loads fs last key) :
    loader.Route fs path (chain ++ [key]) where
  starts := by
    obtain ⟨first, hfirst, hstart⟩ := h.starts
    exact ⟨first, by rw [List.head?_append, hfirst, Option.some_or], hstart⟩
  linked := by
    obtain ⟨last, hlast, hload⟩ := hload
    refine List.isChain_append.2 ⟨h.linked, List.isChain_singleton key, ?_⟩
    simpa [hlast] using hload

end Route

/-- A way along load directives that comes to no file twice. -/
structure Trail (loader : Loader) (fs : FileSystem) (path : Path) (chain : List Location) : Prop
    extends Route loader fs path chain where
  nodup : chain.Nodup
  texts : ∀ key ∈ chain, ∃ source, fs.textAt key = .ok source

namespace Trail

theorem singleton (hstart : loader.StartsAt fs path key) (hsource : fs.textAt key = .ok source) :
    loader.Trail fs path [key] where
  starts := ⟨key, rfl, hstart⟩
  linked := List.isChain_singleton key
  nodup := List.pairwise_singleton ..
  texts := List.forall_mem_singleton.2 ⟨source, hsource⟩

theorem append (h : loader.Trail fs path chain)
    (hload : ∃ last, chain.getLast? = some last ∧ loader.Loads fs last key) (hnew : key ∉ chain)
    (hsource : fs.textAt key = .ok source) : loader.Trail fs path (chain ++ [key]) where
  toRoute := h.toRoute.append hload
  nodup := List.nodup_append.2 ⟨h.nodup, List.pairwise_singleton ..,
    fun a ha b hb => by rintro rfl; exact hnew (List.mem_singleton.1 hb ▸ ha)⟩
  texts := List.forall_mem_append.2 ⟨h.texts, List.forall_mem_singleton.2 ⟨source, hsource⟩⟩

end Trail

/-- A point of a run: `chain` is a trail, and the directives are left of those of its last file. -/
structure Within (loader : Loader) (fs : FileSystem) (path : Path) (chain : List Location)
    (origin : Path) (directives : List LoadDirective) : Prop where
  trail : loader.Trail fs path chain
  last : ∃ key source, chain.getLast? = some key ∧ fs.locate origin = .ok key ∧
    fs.textAt key = .ok source ∧ directives ⊆ loadDirectives source

namespace Within

theorem start (hstart : origin ∈ path :: loader.implicitIncludesFor fs path)
    (hkey : fs.locate origin = .ok key) (hsource : fs.textAt key = .ok source) :
    loader.Within fs path [key] origin (loadDirectives source) where
  trail := .singleton ⟨origin, hstart, hkey⟩ hsource
  last := ⟨key, source, rfl, hkey, hsource, List.Subset.refl _⟩

theorem rest (h : loader.Within fs path chain origin (directive :: others)) :
    loader.Within fs path chain origin others := by
  obtain ⟨key, source, hlast, hkey, hsource, hsub⟩ := h.last
  exact ⟨h.trail, key, source, hlast, hkey, hsource, fun d hd => hsub (List.mem_cons_of_mem _ hd)⟩

theorem loads (h : loader.Within fs path chain origin (directive :: others))
    (hkey : fs.locate (loader.resolve directive.path) = .ok key) :
    ∃ last, chain.getLast? = some last ∧ loader.Loads fs last key := by
  obtain ⟨last, source, hlast, -, hsource, hsub⟩ := h.last
  exact ⟨last, hlast, source, hsource, directive, hsub List.mem_cons_self, hkey⟩

theorem enter (h : loader.Within fs path chain origin (directive :: others))
    (hkey : fs.locate (loader.resolve directive.path) = .ok key) (hnew : key ∉ chain)
    (hsource : fs.textAt key = .ok source) :
    loader.Within fs path (chain ++ [key]) (loader.resolve directive.path)
      (loadDirectives source) where
  trail := h.trail.append (h.loads hkey) hnew hsource
  last := ⟨key, source, List.getLast?_concat, hkey, hsource, List.Subset.refl _⟩

end Within

/-- The files that are being loaded when a file is entered are a trail with it. -/
theorem RunsAll.trail {outcome : Except LoadFault Progress}
    (h : RunsAll loader fs chain origin directives p log outcome)
    (hwithin : loader.Within fs path chain origin directives) :
    ∀ e ∈ log, loader.Trail fs path (e.above ++ [e.key]) := by
  induction h with
  | done => nofun
  | missing => nofun
  | unlocated => nofun
  | cyclic => nofun
  | known _ _ _ _ _ ih => exact ih hwithin.rest
  | unreadable => nofun
  | stops _ hkey hchain _ hsource _ ih =>
    have hnext := hwithin.enter (locate_eq_ok.1 hkey) hchain hsource
    exact List.forall_mem_cons.2 ⟨hnext.trail, ih hnext⟩
  | enter _ hkey hchain _ hsource _ _ ih1 ih2 =>
    have hnext := hwithin.enter (locate_eq_ok.1 hkey) hchain hsource
    refine List.forall_mem_cons.2 ⟨hnext.trail, ?_⟩
    exact List.forall_mem_append.2 ⟨ih1 hnext, ih2 hwithin.rest⟩

theorem Runs.trail {outcome : Except LoadFault Progress}
    (h : Runs loader fs [] origin key source p log outcome)
    (hstart : origin ∈ path :: loader.implicitIncludesFor fs path)
    (hkey : fs.locate origin = .ok key) (hsource : fs.textAt key = .ok source) :
    ∀ e ∈ log, loader.Trail fs path (e.above ++ [e.key]) := by
  obtain ⟨below, result, rfl, -, hbelow⟩ := h
  have hwithin : loader.Within fs path ([] ++ [key]) origin (loadDirectives source) :=
    .start hstart hkey hsource
  exact List.forall_mem_cons.2 ⟨hwithin.trail, hbelow.trail hwithin⟩

theorem RunsIncludes.trail {fixtureKey : Location} {paths : List Path}
    {outcome : Except LoadFault Progress}
    (h : RunsIncludes loader fs fixtureKey paths p log outcome)
    (hpaths : paths ⊆ loader.implicitIncludesFor fs path) :
    ∀ e ∈ log, loader.Trail fs path (e.above ++ [e.key]) := by
  induction h with
  | done => nofun
  | unlocated => nofun
  | known _ _ _ ih => exact ih (List.subset_of_cons_subset hpaths)
  | unreadable => nofun
  | stops hkey _ hsource hrun =>
    exact hrun.trail (List.mem_cons_of_mem _ (hpaths List.mem_cons_self)) (locate_eq_ok.1 hkey)
      (readAt_eq_ok.1 hsource)
  | enter hkey _ hsource hrun _ ih =>
    refine List.forall_mem_append.2 ⟨?_, ih (List.subset_of_cons_subset hpaths)⟩
    exact hrun.trail (List.mem_cons_of_mem _ (hpaths List.mem_cons_self)) (locate_eq_ok.1 hkey)
      (readAt_eq_ok.1 hsource)

/-- What is read for a fixture is the text of the place that its path leads to. -/
theorem textAt_of_readText (hfixture : fs.readText path = .ok source)
    (hkey : fs.locate path = .ok key) : fs.textAt key = .ok source := by
  obtain ⟨place, hplace, hsource⟩ := FileSystem.readText_eq_ok.1 hfixture
  obtain rfl := Except.ok.inj (hkey.symm.trans hplace)
  exact hsource

theorem RunsLoad.trail {outcome : Except LoadFault LoadedScript}
    (h : RunsLoad loader fs path log outcome) :
    ∀ e ∈ log, loader.Trail fs path (e.above ++ [e.key]) := by
  cases h with
  | unreadable => nofun
  | unlocated => nofun
  | stops _ _ hhelpers => exact hhelpers.trail (List.Subset.refl _)
  | enter hfixture hkey hhelpers hrun =>
    have hlocate := locate_eq_ok.1 hkey
    refine List.forall_mem_append.2 ⟨hhelpers.trail (List.Subset.refl _), ?_⟩
    exact hrun.trail List.mem_cons_self hlocate (textAt_of_readText hfixture hlocate)

end Loader

end EngineTrials
