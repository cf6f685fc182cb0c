import EngineTrials.Proofs.Load.Search

/-! The segments of a script: each holds the text of its file and comes after the files that it
loads. A script that gets no helper files ends with its own file, which is none of those before. -/

namespace EngineTrials

namespace Loader

variable {loader : Loader} {fs : FileSystem} {path : Path}

/-- Segments that hold the texts of files, each file after those that it loads. -/
structure Ordered (loader : Loader) (fs : FileSystem) (segments : List Segment) : Prop where
  texts : ∀ s ∈ segments, ∃ key, fs.locate s.path = .ok key ∧ fs.textAt key = .ok s.source
  earlier : ∀ before s after, segments = before ++ s :: after →
    ∀ directive ∈ loadDirectives s.source,
      ∃ key, fs.locate (loader.resolve directive.path) = .ok key ∧
        ∃ e ∈ before, fs.locate e.path = .ok key

namespace Ordered

variable {segments : List Segment} {segment : Segment}

theorem nil : loader.Ordered fs [] := ⟨by simp, by simp⟩

theorem init (h : loader.Ordered fs (segments ++ [segment])) : loader.Ordered fs segments where
  texts := fun s hs => h.texts s (List.mem_append_left _ hs)
  earlier := fun before s after hsplit =>
    h.earlier before s (after ++ [segment]) (by simp [hsplit])

theorem append_singleton (h : loader.Ordered fs segments)
    (htext : ∃ key, fs.locate segment.path = .ok key ∧ fs.textAt key = .ok segment.source)
    (hearlier : ∀ directive ∈ loadDirectives segment.source,
      ∃ key, fs.locate (loader.resolve directive.path) = .ok key ∧
        ∃ e ∈ segments, fs.locate e.path = .ok key) :
    loader.Ordered fs (segments ++ [segment]) where
  texts := by
    intro s hs
    rcases List.mem_append.1 hs with hs | hs
    · exact h.texts s hs
    · rwa [List.mem_singleton.1 hs]
  earlier := by
    intro before s after hsplit
    rcases List.eq_nil_or_concat after with rfl | ⟨rest, last, rfl⟩
    · obtain ⟨rfl, hlast⟩ := List.append_inj' hsplit rfl
      obtain rfl : segment = s := by simpa using hlast
      exact hearlier
    · have hcut : segments ++ [segment] = (before ++ s :: rest) ++ [last] := by
        simpa using hsplit
      exact h.earlier before s rest (List.append_inj' hcut rfl).1

end Ordered

theorem Assembled.ordered {p : Progress} (h : Assembled loader fs p) :
    loader.Ordered fs p.segments :=
  ⟨fun _ hs => h.textAt hs, fun _ _ _ hs _ hd => h.earlier hs hd⟩

/-- A script loaded without helper files: what it loads, none of which is the script, and then the
script. -/
theorem load_spec {script : LoadedScript} (hhelpers : loader.implicitIncludes = [])
    (h : loader.load fs path = .ok script) :
    ∃ key source, fs.locate path = .ok key ∧ fs.textAt key = .ok source ∧
      script.segments = script.dependencies ++ [⟨path, source⟩] ∧
      (∀ d ∈ script.dependencies, fs.locate d.path ≠ .ok key) ∧
      loader.Ordered fs script.segments := by
  obtain ⟨key, source, helped, q, hq, rfl⟩ := load_eq_ok_iff.1 h
  have hordered := hq.assembled.ordered
  have hnone : loader.implicitIncludesFor fs path = [] := by simp [implicitIncludesFor, hhelpers]
  have hstart : key ∉ helped.included := by
    intro hmem
    obtain ⟨start, hs, -⟩ := hq.reached hmem
    simp [hnone] at hs
  obtain ⟨hkey, hsource, below, hbelow, rfl⟩ := hq.fixture
  simp only [LoadedScript.segments, LoadedScript.dependencies, LoadedScript.ofSegments,
    List.append_nil, Progress.emit, List.dropLast_concat] at hordered ⊢
  refine ⟨key, source, hkey, hsource, rfl, fun d hd hloc => hstart ?_, hordered⟩
  -- a dependency at the script's place would have been found while the script was being loaded
  refine hbelow.mem_of_mem_chain (by simp) ?_
  have hassembled := (hbelow.assembled (hq.helpers.assembled .start)).1
  exact hassembled.mem_included_iff.2 ⟨d, hd, hloc⟩

/-- A fixture that loads nothing and has no helper files is a script by itself. -/
theorem loadFixture_of_alone {key : Location} {source : String} (hkey : fs.locate path = .ok key)
    (hhelpers : loader.implicitIncludesFor fs path = []) (hnone : loadDirectives source = []) :
    loader.loadFixture fs ⟨path, source⟩ = .ok (.ofSegments [⟨path, source⟩]) := by
  simp only [loadFixture, locate_eq_ok.2 hkey, hhelpers, visitIncludes, visit, hnone, visitAll]
  rfl

/-- A file that loads nothing is a script by itself. -/
theorem load_of_noDirectives {key : Location} {source : String}
    (hhelpers : loader.implicitIncludes = []) (hkey : fs.locate path = .ok key)
    (hsource : fs.textAt key = .ok source) (hnone : loadDirectives source = []) :
    loader.load fs path = .ok (.ofSegments [⟨path, source⟩]) := by
  have hread := FileSystem.readText_eq_ok.2 ⟨key, hkey, hsource⟩
  have hnohelpers : loader.implicitIncludesFor fs path = [] := by simp [implicitIncludesFor, hhelpers]
  simp only [load, readFixture, hread]
  exact loadFixture_of_alone hkey hnohelpers hnone

end Loader

end EngineTrials
