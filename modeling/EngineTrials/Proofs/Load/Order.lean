import EngineTrials.Proofs.List
import EngineTrials.Proofs.Load.Search

/-! What a fixture is put together from, and in which order: the files that it needs and no others,
each after the files that it loads, the fixture at the end. A file comes twice only if it is the
fixture and one of its helper files reaches it, since the fixture is loaded at the end whether or
not it has been included. -/

namespace EngineTrials

open Relation

namespace Loader

variable {loader : Loader} {fs : FileSystem} {path : Path} {script : LoadedScript}

/-- A helper file other than the fixture reaches the fixture. -/
def HelperReachesFixture (loader : Loader) (fs : FileSystem) (path : Path) : Prop :=
  ∃ fixtureKey, fs.locate path = .ok fixtureKey ∧
    ∃ start ∈ loader.implicitIncludesFor fs path, ∃ key, fs.locate start = .ok key ∧
      key ≠ fixtureKey ∧ loader.Reaches fs key fixtureKey

/-- The fixture is included before it is loaded exactly if a helper file reaches it. -/
theorem Assembles.mem_helped_iff {key : Location} {source : String} {helped q : Progress}
    (h : Assembles loader fs path key source helped q) :
    key ∈ helped.included ↔ loader.HelperReachesFixture fs path := by
  constructor
  · intro hmem
    exact ⟨key, h.fixture.locate, h.reached hmem⟩
  · rintro ⟨key', hkey', start, hs, first, hfirst, hne, hreach⟩
    obtain rfl : key = key' := by simpa [h.fixture.locate] using hkey'
    obtain ⟨first', hfirst', hknown⟩ := h.helpers.covers hs
    obtain rfl : first = first' := by simpa [hfirst] using hfirst'
    exact (h.helpers.assembled .start).mem_of_reaches (hknown.resolve_left hne) hreach

/-- The files of a script that has been put together: those before the last are distinct, and all
of them are exactly if no helper file reaches the fixture. -/
theorem segments_distinct_iff (h : loader.load fs path = .ok script) :
    (script.dependencies.map fun s => fs.locate s.path).Nodup ∧
      ((script.segments.map fun s => fs.locate s.path).Nodup ↔
        ¬ loader.HelperReachesFixture fs path) := by
  obtain ⟨key, source, helped, q, hq, rfl⟩ := load_eq_ok_iff.1 h
  have hlocated := hq.assembled.located
  obtain ⟨htail, hnodup⟩ := hq.fixture.nodup_iff (hq.helpers.nodup List.nodup_nil)
  rw [hq.mem_helped_iff] at hnodup
  simp only [LoadedScript.dependencies, LoadedScript.segments, LoadedScript.ofSegments,
    List.append_nil, List.map_dropLast, hlocated]
  rw [← List.map_dropLast, List.dropLast_reverse, List.nodup_map_ok, List.nodup_map_ok,
    List.nodup_reverse, List.nodup_reverse]
  exact ⟨htail, hnodup⟩

/-- A loader from the root of the file system, with one name for helper files. -/
def rootLoader : Loader := ⟨⟨"/"⟩, ["h.js"]⟩

/-- A helper file and a fixture that load the same file. -/
def sharedFiles : FileSystem :=
  ⟨[("c.js", .ofText "c"), ("h.js", .ofText "load('c.js')"), ("t.js", .ofText "load('c.js')")],
    ⟨[]⟩⟩

def sharedScript : LoadedScript :=
  .ofSegments [⟨⟨"/c.js"⟩, "c"⟩, ⟨⟨"/h.js"⟩, "load('c.js')"⟩, ⟨⟨"/t.js"⟩, "load('c.js')"⟩]

theorem load_sharedFiles : rootLoader.load sharedFiles ⟨"/t.js"⟩ = .ok sharedScript := by
  have hc : sharedFiles.textAt ⟨["c.js"]⟩ = .ok "c" := by rfl
  have hdirectives : loadDirectives "load('c.js')" = [⟨"c.js", 1⟩] := by decide +kernel
  have hloc : sharedFiles.locate (rootLoader.resolve "c.js") = .ok ⟨["c.js"]⟩ := by rfl
  let withC := Progress.start.emit ⟨["c.js"]⟩ ⟨⟨"/c.js"⟩, "c"⟩
  let withH := withC.emit ⟨["h.js"]⟩ ⟨⟨"/h.js"⟩, "load('c.js')"⟩
  have hhelper : Visits rootLoader sharedFiles [] ⟨"/h.js"⟩ ⟨["h.js"]⟩ "load('c.js')" .start
      withH := by
    refine ⟨by rfl, by decide +kernel, withC, ?_, rfl⟩
    rw [hdirectives]
    exact .enter hloc (by decide) (by decide) hc (.done _ _) (.done _ _)
  have hfixture : Visits rootLoader sharedFiles [] ⟨"/t.js"⟩ ⟨["t.js"]⟩ "load('c.js')" withH
      (withH.emit ⟨["t.js"]⟩ ⟨⟨"/t.js"⟩, "load('c.js')"⟩) := by
    refine ⟨by rfl, by decide +kernel, withH, ?_, rfl⟩
    rw [hdirectives]
    exact .known (FileSystem.isFile_of_textAt hloc hc) hloc (by decide) (by decide) (.done _ _)
  exact load_eq_ok_iff.2 ⟨_, _, _, _,
    ⟨.enter (by decide) (by decide) hhelper (.done _), hfixture⟩, rfl⟩

theorem segments_distinct_sharedFiles :
    rootLoader.load sharedFiles ⟨"/t.js"⟩ = .ok sharedScript ∧
      (sharedScript.dependencies.map fun s => sharedFiles.locate s.path).Nodup ∧
        ((sharedScript.segments.map fun s => sharedFiles.locate s.path).Nodup ↔
          ¬ rootLoader.HelperReachesFixture sharedFiles ⟨"/t.js"⟩) :=
  ⟨load_sharedFiles, segments_distinct_iff load_sharedFiles⟩

/-- A fixture that its helper file loads. -/
def circleFiles : FileSystem :=
  ⟨[("h.js", .ofText "load('t.js')"), ("t.js", .ofText "t")], ⟨[]⟩⟩

/-- The fixture comes twice if its helper file loads it. -/
theorem segments_not_distinct : ∃ script,
    rootLoader.load circleFiles ⟨"/t.js"⟩ = .ok script ∧
      ¬ (script.segments.map fun s => circleFiles.locate s.path).Nodup := by
  have ht : circleFiles.textAt ⟨["t.js"]⟩ = .ok "t" := by rfl
  have hdirectives : loadDirectives "load('t.js')" = [⟨"t.js", 1⟩] := by decide +kernel
  let withT := Progress.start.emit ⟨["t.js"]⟩ ⟨⟨"/t.js"⟩, "t"⟩
  let withH := withT.emit ⟨["h.js"]⟩ ⟨⟨"/h.js"⟩, "load('t.js')"⟩
  let all := withH.emit ⟨["t.js"]⟩ ⟨⟨"/t.js"⟩, "t"⟩
  have hhelper : Visits rootLoader circleFiles [] ⟨"/h.js"⟩ ⟨["h.js"]⟩ "load('t.js')" .start
      withH := by
    refine ⟨by rfl, by decide +kernel, withT, ?_, rfl⟩
    rw [hdirectives]
    exact .enter (by rfl) (by decide) (by decide) ht (.done _ _) (.done _ _)
  have hfixture : Visits rootLoader circleFiles [] ⟨"/t.js"⟩ ⟨["t.js"]⟩ "t" withH all :=
    ⟨by rfl, ht, withH, .done _ _, rfl⟩
  have hload : rootLoader.load circleFiles ⟨"/t.js"⟩ = .ok (.ofSegments all.segments) :=
    load_eq_ok_iff.2 ⟨_, _, _, _, ⟨.enter (by decide) (by decide) hhelper (.done _), hfixture⟩, rfl⟩
  have hlocate : circleFiles.locate ⟨"/t.js"⟩ = .ok ⟨["t.js"]⟩ := by rfl
  refine ⟨_, hload, ?_⟩
  simp [LoadedScript.segments, LoadedScript.ofSegments, all, withH, withT, Progress.emit,
    Progress.start, hlocate]

/-- Some first segments hold the file at `a` and not the file at `b`. -/
def FirstBefore (fs : FileSystem) (segments : List Segment) (a b : Location) : Prop :=
  ∃ before, before <+: segments ∧ (∃ s ∈ before, fs.locate s.path = .ok a) ∧
    ∀ s ∈ before, fs.locate s.path ≠ .ok b

/-- The segments of a script are what the fixture at `path` needs, in an order that can be run. -/
structure InLoadOrder (loader : Loader) (fs : FileSystem) (path : Path)
    (segments : List Segment) : Prop where
  /-- The segments hold the texts of files. -/
  texts : ∀ s ∈ segments, ∃ key, fs.locate s.path = .ok key ∧ fs.textAt key = .ok s.source
  /-- The files are those that the fixture needs. -/
  files : ∀ key, (∃ s ∈ segments, fs.locate s.path = .ok key) ↔ loader.Needs fs path key
  /-- Each file comes after what it loads. -/
  earlier : ∀ before s after, segments = before ++ s :: after →
    ∀ directive ∈ loadDirectives s.source,
      ∃ key, fs.locate (loader.resolve directive.path) = .ok key ∧
        ∃ e ∈ before, fs.locate e.path = .ok key
  /-- The fixture with its own text comes at the end. -/
  fixture : ∃ source, fs.readText path = .ok source ∧ segments.getLast? = some ⟨path, source⟩
  /-- Of two helper files the one listed first comes first, unless it, or a helper file listed
  before it, reaches the other one. -/
  helpers : ∀ first a middle b last,
    loader.implicitIncludesFor fs path = first ++ a :: middle ++ b :: last →
    ∀ keyA keyB, fs.locate a = .ok keyA → fs.locate b = .ok keyB → keyA ≠ keyB →
      fs.locate path ≠ .ok keyA → fs.locate path ≠ .ok keyB →
      FirstBefore fs segments keyA keyB ∨
        ∃ c ∈ first ++ [a], ∃ keyC, fs.locate c = .ok keyC ∧ fs.locate path ≠ .ok keyC ∧
          loader.Reaches fs keyC keyB

/-- Of two helper files the one listed first is loaded first, or a file loaded by then reaches the
other one. -/
theorem VisitsIncludes.firstBefore {fixtureKey keyA keyB : Location} {first rest : List Path}
    {a : Path} {helped : Progress}
    (h : VisitsIncludes loader fs fixtureKey (first ++ a :: rest) .start helped)
    (ha : fs.locate a = .ok keyA) (hne : keyA ≠ fixtureKey) :
    FirstBefore fs helped.segments keyA keyB ∨
      ∃ c ∈ first ++ [a], ∃ keyC, fs.locate c = .ok keyC ∧ keyC ≠ fixtureKey ∧
        loader.Reaches fs keyC keyB := by
  rw [← List.singleton_append, ← List.append_assoc] at h
  obtain ⟨middle, hfirst, hrest⟩ := h.split
  have hassembled : Assembled loader fs middle := hfirst.assembled .start
  by_cases hB : keyB ∈ middle.included
  · rcases hfirst.reached hB with hnone | hreach
    · simp [Progress.start] at hnone
    · exact .inr hreach
  · obtain ⟨keyA', hA', hknown⟩ := hfirst.covers (show a ∈ first ++ [a] by simp)
    obtain rfl : keyA = keyA' := by simpa [ha] using hA'
    have hA : keyA ∈ middle.included := hknown.resolve_left hne
    refine .inl ⟨middle.segments, hrest.extension.segments, ?_, fun s hs hloc => hB ?_⟩
    · exact hassembled.mem_included_iff.1 hA
    · exact hassembled.mem_included_iff.2 ⟨s, hs, hloc⟩

theorem FirstBefore.mono {segments segments' : List Segment} {a b : Location}
    (h : FirstBefore fs segments a b) (hle : segments <+: segments') :
    FirstBefore fs segments' a b := by
  obtain ⟨before, hbefore, ha, hb⟩ := h
  exact ⟨before, hbefore.trans hle, ha, hb⟩

/-- A fixture is put together from the files that it needs, each after what it loads. -/
theorem segments_inLoadOrder (h : loader.load fs path = .ok script) :
    loader.InLoadOrder fs path script.segments := by
  obtain ⟨key, source, helped, q, hq, rfl⟩ := load_eq_ok_iff.1 h
  have hlast : q.segments.getLast? = some ⟨path, source⟩ := by
    obtain ⟨_, _, below, _, rfl⟩ := hq.fixture
    simp [Progress.emit]
  simp only [LoadedScript.segments, LoadedScript.ofSegments, List.append_nil]
  exact {
    texts := fun s hs => hq.assembled.textAt hs
    files := fun other => by rw [← hq.assembled.mem_included_iff, hq.mem_included_iff]
    earlier := fun before s after hs directive hd => hq.assembled.earlier hs hd
    fixture := ⟨source,
      FileSystem.readText_eq_ok.2 ⟨key, hq.fixture.locate, hq.fixture.textAt⟩, hlast⟩
    helpers := by
      intro first a middle b last hlist keyA keyB ha _ _ hneA _
      have hhelpers := hq.helpers
      rw [hq.fixture.locate] at hneA ⊢
      simp only [ne_eq, Except.ok.injEq, List.append_assoc, List.cons_append] at hneA hlist ⊢
      rw [hlist] at hhelpers
      rcases hhelpers.firstBefore ha (Ne.symm hneA) with hfirst | ⟨c, hc, keyC, hloc, hneC, hreach⟩
      · exact .inl (hfirst.mono hq.fixture.extension.segments)
      · exact .inr ⟨c, hc, keyC, hloc, Ne.symm hneC, hreach⟩ }

theorem segments_inLoadOrder_sharedFiles :
    rootLoader.load sharedFiles ⟨"/t.js"⟩ = .ok sharedScript ∧
      rootLoader.InLoadOrder sharedFiles ⟨"/t.js"⟩ sharedScript.segments :=
  ⟨load_sharedFiles, segments_inLoadOrder load_sharedFiles⟩

end Loader

end EngineTrials
