import EngineTrials.Proofs.Bench.Repetition

/-! Merging what the setup scripts and the benchmark script bring. A segment is left out only if its
path is there already, so each file still comes after the files that it loads, whatever the scripts
share, and no file that one of them brings is missing. -/

namespace EngineTrials

namespace BenchOptions

variable {o : BenchOptions} {fs : FileSystem} {script : BenchScript} {names : List String}
  {paths : List Path} {held all : List Segment}

/-- The segments are what loading each of the paths by itself brings, in an order that can be
run. -/
structure MergesLoads (o : BenchOptions) (fs : FileSystem) (paths : List Path)
    (segments : List Segment) : Prop where
  /-- Each of the paths can be loaded. -/
  loads : ∀ path ∈ paths, ∃ script, o.loader.load fs path = .ok script
  /-- Each segment comes after the files that its directives ask for. -/
  earlier : ∀ before s after, segments = before ++ s :: after →
    ∀ directive ∈ loadDirectives s.source,
      ∃ key, fs.locate (o.loader.resolve directive.path) = .ok key ∧
        ∃ e ∈ before, fs.locate e.path = .ok key
  /-- Nothing else is among the segments. -/
  brought : ∀ s ∈ segments, o.Brings fs paths s
  /-- No file is missing, and each has its text. -/
  complete : ∀ s, o.Brings fs paths s → ∃ key, fs.locate s.path = .ok key ∧
    ∃ e ∈ segments, fs.locate e.path = .ok key ∧ e.source = s.source

theorem exists_load_of_loadAll (h : o.loadAll fs paths held = .ok all) :
    ∀ path ∈ paths, ∃ script, o.loader.load fs path = .ok script := by
  induction paths generalizing held with
  | nil => exact List.forall_mem_nil _
  | cons path rest ih =>
    obtain ⟨script, hload, hrest⟩ := loadAll_cons_eq_ok_iff.1 h
    exact List.forall_mem_cons.2 ⟨⟨script, hload⟩, ih hrest⟩

theorem mergesLoads_of_loadAll (h : o.loadAll fs paths [] = .ok all) :
    o.MergesLoads fs paths all := by
  obtain ⟨brought, hbrought, hmerged⟩ := exists_merged h
  obtain ⟨hsubset, hholds, -⟩ := merges_foldl_addSegment [] brought
  rw [← hmerged, List.nil_append] at hsubset hholds
  have hbrings : ∀ s ∈ all, o.Brings fs paths s := fun s hs => (hbrought s).1 (hsubset hs)
  refine ⟨exists_load_of_loadAll h, (ordered_loadAll .nil h).earlier, hbrings, fun s hs => ?_⟩
  -- a segment that was left out has one of the same path, which leads to the same file
  obtain ⟨e, he, hsame⟩ := hholds s ((hbrought s).2 hs)
  obtain ⟨key, hkey, htext⟩ := hs.text
  obtain ⟨key', hkey', htext'⟩ := (hbrings e he).text
  obtain rfl := FileSystem.locate_eq_of_same hsame hkey' hkey
  exact ⟨key', hkey, e, he, hkey', Except.ok.inj (htext'.symm.trans htext)⟩

/-- A benchmark script is put together from all that the setup scripts and the script bring, each
file after the files that it loads, with the timing driver at the end. -/
theorem assemble_mergesLoads {loaded : LoadedScript}
    (h : o.assemble fs script names = .ok loaded) :
    ∃ merged, loaded.segments = merged ++ [benchDriver names o.iterations] ∧
      o.MergesLoads fs (o.setup ++ [script.path]) merged := by
  obtain ⟨hall, hepilogue⟩ := loadAll_of_assemble h
  refine ⟨loaded.loaded, ?_, mergesLoads_of_loadAll hall⟩
  rw [LoadedScript.segments, hepilogue]

/-- A setup script and a benchmark script that load the same file, and the one loads the other. -/
def overlappingFiles : FileSystem :=
  ⟨[("a.js", .ofText "a"), ("b.js", .ofText "load('a.js')"),
    ("bench.js", .ofText "load('b.js')\nload('a.js')")], ⟨[]⟩⟩

def overlappingOptions : BenchOptions := { setup := [⟨"./b.js"⟩] }

def overlappingSegments : List Segment :=
  [⟨⟨"./a.js"⟩, "a"⟩, ⟨⟨"./b.js"⟩, "load('a.js')"⟩,
    ⟨⟨"bench.js"⟩, "load('b.js')\nload('a.js')"⟩]

theorem load_overlappingSetup : overlappingOptions.loader.load overlappingFiles ⟨"./b.js"⟩ =
    .ok (.ofSegments (overlappingSegments.take 2)) := by
  have ha : overlappingFiles.textAt ⟨["a.js"]⟩ = .ok "a" := by rfl
  have hb : overlappingFiles.textAt ⟨["b.js"]⟩ = .ok "load('a.js')" := by decide +kernel
  have hdirectives : loadDirectives "load('a.js')" = [⟨"a.js", 1⟩] := by decide +kernel
  let withA := Progress.start.emit ⟨["a.js"]⟩ ⟨⟨"./a.js"⟩, "a"⟩
  refine Loader.load_eq_ok_iff.2 ⟨⟨["b.js"]⟩, _, .start, _, ⟨.done _, by rfl, hb, withA, ?_, rfl⟩,
    rfl⟩
  rw [hdirectives]
  exact .enter (by rfl) (by decide) (by decide) ha (.done _ _) (.done _ _)

theorem load_overlappingScript : overlappingOptions.loader.load overlappingFiles ⟨"bench.js"⟩ =
    .ok (.ofSegments overlappingSegments) := by
  have ha : overlappingFiles.textAt ⟨["a.js"]⟩ = .ok "a" := by rfl
  have hb : overlappingFiles.textAt ⟨["b.js"]⟩ = .ok "load('a.js')" := by decide +kernel
  have hbench : overlappingFiles.textAt ⟨["bench.js"]⟩ = .ok "load('b.js')\nload('a.js')" := by
    decide +kernel
  have hinner : loadDirectives "load('a.js')" = [⟨"a.js", 1⟩] := by decide +kernel
  have houter : loadDirectives "load('b.js')\nload('a.js')" = [⟨"b.js", 1⟩, ⟨"a.js", 2⟩] := by
    decide +kernel
  have hplace : overlappingFiles.locate (overlappingOptions.loader.resolve "a.js") =
      .ok ⟨["a.js"]⟩ := by rfl
  let withA := Progress.start.emit ⟨["a.js"]⟩ ⟨⟨"./a.js"⟩, "a"⟩
  let withB := withA.emit ⟨["b.js"]⟩ ⟨⟨"./b.js"⟩, "load('a.js')"⟩
  refine Loader.load_eq_ok_iff.2 ⟨⟨["bench.js"]⟩, _, .start, _,
    ⟨.done _, by rfl, hbench, withB, ?_, rfl⟩, rfl⟩
  rw [houter]
  refine @Loader.VisitsAll.enter _ _ _ _ _ _ withA _ _ _ (by rfl) (by decide) (by decide) hb ?_ ?_
  · rw [hinner]
    exact .enter hplace (by decide) (by decide) ha (.done _ _) (.done _ _)
  · exact .known (FileSystem.isFile_of_textAt hplace ha) hplace (by decide) (by decide) (.done _ _)

/-- What the setup script has brought is not brought again. -/
theorem assemble_mergesLoads_overlapping :
    overlappingOptions.assemble overlappingFiles ⟨⟨"bench.js"⟩, ["testA"]⟩ ["testA"] =
        .ok ⟨overlappingSegments, [benchDriver ["testA"] {}]⟩ ∧
      overlappingOptions.MergesLoads overlappingFiles [⟨"./b.js"⟩, ⟨"bench.js"⟩]
        overlappingSegments := by
  have hsetup : overlappingOptions.loadAll overlappingFiles [⟨"./b.js"⟩] [] =
      .ok (overlappingSegments.take 2) := loadAll_cons_eq_ok_iff.2 ⟨_, load_overlappingSetup, rfl⟩
  have hassemble : overlappingOptions.assemble overlappingFiles ⟨⟨"bench.js"⟩, ["testA"]⟩
      ["testA"] = .ok ⟨overlappingSegments, [benchDriver ["testA"] {}]⟩ :=
    assemble_eq_ok_iff.2 ⟨_, _, hsetup, load_overlappingScript, rfl⟩
  obtain ⟨merged, hmerged, hloads⟩ := assemble_mergesLoads hassemble
  obtain ⟨rfl, -⟩ := List.append_inj' hmerged rfl
  exact ⟨hassemble, hloads⟩

end BenchOptions

end EngineTrials
