import EngineTrials.Proofs.Load.Search

/-! When a fixture can be put together: exactly when it and its helper files can be read, every load
directive of a file it needs leads to a file that can be read, and no file it needs lies on a cycle
of directives. -/

namespace EngineTrials

open Relation

namespace Loader

variable {loader : Loader} {fs : FileSystem} {path : Path}

/-- The files that a fixture needs can be read, and none of them lies on a cycle. -/
structure Loadable (loader : Loader) (fs : FileSystem) (path : Path) : Prop where
  fixture : fs.Readable path
  includes : ∀ start ∈ loader.implicitIncludesFor fs path, fs.Readable start
  directives : ∀ key source, loader.Needs fs path key → fs.textAt key = .ok source →
    ∀ directive ∈ loadDirectives source, fs.Readable (loader.resolve directive.path)
  acyclic : ∀ key, loader.Needs fs path key → ¬ TransGen (loader.Loads fs) key key

theorem loadable_of_load {script : LoadedScript} (h : loader.load fs path = .ok script) :
    loader.Loadable fs path := by
  obtain ⟨key, source, helped, q, hq, rfl⟩ := load_eq_ok_iff.1 h
  have hreadable : ∀ start, (∃ k ∈ q.included, fs.locate start = .ok k) → fs.Readable start := by
    rintro start ⟨k, hk, hloc⟩
    obtain ⟨text, htext⟩ := hq.assembled.exists_textAt hk
    exact FileSystem.readable_iff.2 ⟨k, text, hloc, htext⟩
  exact {
    fixture := hreadable path (hq.covers List.mem_cons_self)
    includes := fun start hs => hreadable start (hq.covers (List.mem_cons_of_mem _ hs))
    directives := fun k text hk htext directive hd =>
      hreadable _ (hq.assembled.targets (hq.mem_included_iff.2 hk) htext directive hd)
    acyclic := fun k hk => hq.assembled.acyclic (hq.mem_included_iff.2 hk) }

/-- Each of the directives leads to a file that can be read, that is needed, and that every file
of the chain reaches. -/
def Follows (loader : Loader) (fs : FileSystem) (path : Path) (chain : List Location)
    (directives : List LoadDirective) : Prop :=
  ∀ directive ∈ directives, ∃ dep text, fs.locate (loader.resolve directive.path) = .ok dep ∧
    fs.textAt dep = .ok text ∧ loader.Needs fs path dep ∧
    ∀ c ∈ chain, TransGen (loader.Loads fs) c dep

/-- The directives of a needed file, with the chain of files that led to it. -/
theorem Loadable.follows (h : loader.Loadable fs path) {chain : List Location} {key : Location}
    {source : String} (hkey : loader.Needs fs path key) (hsource : fs.textAt key = .ok source)
    (hchain : ∀ c ∈ chain, loader.Reaches fs c key) :
    loader.Follows fs path (chain ++ [key]) (loadDirectives source) := by
  intro directive hd
  obtain ⟨dep, text, hdep, htext⟩ :=
    FileSystem.readable_iff.1 (h.directives key source hkey hsource directive hd)
  have hload : loader.Loads fs key dep := ⟨source, hsource, directive, hd, hdep⟩
  refine ⟨dep, text, hdep, htext, hkey.loads hload, fun c hc => ?_⟩
  rcases List.mem_append.1 hc with hc | hc
  · exact TransGen.tail' (hchain c hc) hload
  · obtain rfl := List.mem_singleton.1 hc
    exact .single hload

/-- A search that follows needed files never fails: a file of the chain that a directive leads back
to would lie on a cycle. -/
theorem Loadable.exists_visitAll (h : loader.Loadable fs path) {chain : List Location}
    (origin : Path) {directives : List LoadDirective} (p : Progress)
    (hfollows : loader.Follows fs path chain directives) :
    ∃ q, loader.visitAll fs chain origin directives p = .ok q := by
  fun_induction visitAll loader fs chain origin directives p with
  | case1 chain origin p => exact ⟨p, rfl⟩
  | case2 chain origin directive rest p resolved hmissing =>
    obtain ⟨dep, text, hdep, htext, -⟩ := hfollows directive List.mem_cons_self
    simp [resolved, FileSystem.isFile_of_textAt hdep htext] at hmissing
  | case3 chain origin directive rest p resolved _ fault hfault =>
    obtain ⟨dep, text, hdep, -⟩ := hfollows directive List.mem_cons_self
    simp [resolved, locate_eq_ok.2 hdep] at hfault
  | case4 =>
    rename_i chain origin directive rest p resolved _ key hkey hmem
    obtain ⟨dep, text, hdep, -, hneeds, hchain⟩ := hfollows directive List.mem_cons_self
    obtain rfl : key = dep := by simpa [resolved, locate_eq_ok.2 hdep, eq_comm] using hkey
    exact absurd (hchain key hmem) (h.acyclic key hneeds)
  | case5 =>
    rename_i hrest
    exact hrest fun directive hd => hfollows directive (List.mem_cons_of_mem _ hd)
  | case6 =>
    rename_i chain origin directive rest p resolved _ key hkey _ _ fault hfault
    obtain ⟨dep, text, hdep, htext, -⟩ := hfollows directive List.mem_cons_self
    obtain rfl : key = dep := by simpa [resolved, locate_eq_ok.2 hdep, eq_comm] using hkey
    simp [htext] at hfault
  | case7 =>
    rename_i chain origin directive rest p resolved _ key hkey _ _ source hsource fault hfault ih
    obtain ⟨dep, text, hdep, -, hneeds, hchain⟩ := hfollows directive List.mem_cons_self
    obtain rfl : key = dep := by simpa [resolved, locate_eq_ok.2 hdep, eq_comm] using hkey
    obtain ⟨q, hq⟩ := ih (h.follows hneeds hsource fun c hc => (hchain c hc).to_reflTransGen)
    simp [hfault] at hq
  | case8 =>
    rename_i hrest
    exact hrest fun directive hd => hfollows directive (List.mem_cons_of_mem _ hd)

theorem Loadable.exists_visit (h : loader.Loadable fs path) (start : Path) {key : Location}
    {source : String} (p : Progress) (hkey : loader.Needs fs path key)
    (hsource : fs.textAt key = .ok source) :
    ∃ q, loader.visit fs [] start key source p = .ok q := by
  have hfollows : loader.Follows fs path ([] ++ [key]) (loadDirectives source) :=
    h.follows hkey hsource (by simp)
  obtain ⟨below, hbelow⟩ := h.exists_visitAll start p hfollows
  exact ⟨below.emit key ⟨start, source⟩, by simp only [visit, hbelow]⟩

theorem Loadable.exists_visitIncludes (h : loader.Loadable fs path) (fixtureKey : Location)
    {paths : List Path} (p : Progress)
    (hpaths : ∀ start ∈ paths, start ∈ loader.implicitIncludesFor fs path) :
    ∃ q, loader.visitIncludes fs fixtureKey paths p = .ok q := by
  induction paths generalizing p with
  | nil => exact ⟨p, by simp only [visitIncludes]⟩
  | cons start rest ih =>
    have hstart := hpaths start List.mem_cons_self
    have hrest := fun next hnext => hpaths next (List.mem_cons_of_mem _ hnext)
    obtain ⟨key, source, hkey, hsource⟩ := FileSystem.readable_iff.1 (h.includes start hstart)
    simp only [visitIncludes, bind, Except.bind, locate_eq_ok.2 hkey]
    split
    · exact ih _ hrest
    · have hneeds : loader.Needs fs path key :=
        ⟨key, ⟨start, List.mem_cons_of_mem _ hstart, hkey⟩, .refl⟩
      obtain ⟨middle, hmiddle⟩ := h.exists_visit start p hneeds hsource
      simp only [readAt_eq_ok.2 hsource, hmiddle]
      exact ih _ hrest

theorem Loadable.exists_load (h : loader.Loadable fs path) :
    ∃ script, loader.load fs path = .ok script := by
  obtain ⟨key, source, hkey, hsource⟩ := FileSystem.readable_iff.1 h.fixture
  obtain ⟨helped, hhelped⟩ := h.exists_visitIncludes key .start fun _ hs => hs
  have hneeds : loader.Needs fs path key := ⟨key, ⟨path, List.mem_cons_self, hkey⟩, .refl⟩
  obtain ⟨q, hq⟩ := h.exists_visit path helped hneeds hsource
  refine ⟨.ofSegments q.segments, ?_⟩
  simp only [load, readFixture, loadFixture, bind, Except.bind, pure, Except.pure,
    FileSystem.readText_eq_ok.2 ⟨key, hkey, hsource⟩, locate_eq_ok.2 hkey, hhelped, hq]

/-- A fixture is put together exactly when the files that it needs can be read and none of them
lies on a cycle of load directives. -/
theorem exists_load_iff_loadable (loader : Loader) (fs : FileSystem) (path : Path) :
    (∃ script, loader.load fs path = .ok script) ↔ loader.Loadable fs path :=
  ⟨fun ⟨_, h⟩ => loadable_of_load h, Loadable.exists_load⟩

end Loader

end EngineTrials
