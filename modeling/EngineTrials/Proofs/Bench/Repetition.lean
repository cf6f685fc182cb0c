import EngineTrials.Proofs.Bench.Assembly
import Mathlib.Data.List.Nodup

/-! Which files a benchmark script is put together with more than once. A script that is loaded by
itself brings each file once, but merging compares the paths as they are spelled: a file comes more
than once exactly if two of the scripts bring it under paths of different components, as a setup
script named without a dot does that is loaded from the folder of that dot as well. -/

namespace EngineTrials

namespace BenchOptions

variable {o : BenchOptions} {fs : FileSystem} {script : BenchScript} {names : List String}
  {paths : List Path} {held all : List Segment}

/-- One of the scripts at the paths, loaded by itself, brings the segment. -/
def Brings (o : BenchOptions) (fs : FileSystem) (paths : List Path) (s : Segment) : Prop :=
  ∃ path ∈ paths, ∃ script, o.loader.load fs path = .ok script ∧ s ∈ script.segments

/-- The scripts at the paths bring no file under two different spellings. -/
def SpellAlike (o : BenchOptions) (fs : FileSystem) (paths : List Path) : Prop :=
  ∀ s t, o.Brings fs paths s → o.Brings fs paths t → fs.locate s.path = fs.locate t.path →
    s.path.same t.path = true

theorem Brings.text {s : Segment} (h : o.Brings fs paths s) :
    ∃ key, fs.locate s.path = .ok key ∧ fs.textAt key = .ok s.source := by
  obtain ⟨path, -, script, hload, hs⟩ := h
  obtain ⟨-, -, -, -, -, -, hordered⟩ := Loader.load_spec rfl hload
  exact hordered.texts s hs

/-- Segments that are brought under the same path are brought from the same file. -/
theorem Brings.locate_eq {s t : Segment} (hs : o.Brings fs paths s) (ht : o.Brings fs paths t)
    (hsame : s.path.same t.path = true) : fs.locate s.path = fs.locate t.path := by
  obtain ⟨a, ha, -⟩ := hs.text
  obtain ⟨b, hb, -⟩ := ht.text
  rw [ha, hb, FileSystem.locate_eq_of_same hsame ha hb]

theorem Holds.of_same {segments : List Segment} {p q : Path} (h : Holds segments p)
    (hsame : p.same q = true) : Holds segments q := by
  obtain ⟨s, hs, hp⟩ := h
  exact ⟨s, hs, Path.same_iff.2 ((Path.same_iff.1 hp).trans (Path.same_iff.1 hsame))⟩

/-- What is merged from the segments held and the new ones: nothing else, each of their paths, and
no path twice. -/
structure Merges (held new merged : List Segment) : Prop where
  subset : merged ⊆ held ++ new
  holds : ∀ s ∈ held ++ new, Holds merged s.path
  apart : (held.Pairwise fun s t => ¬ s.path.same t.path = true) →
    merged.Pairwise fun s t => ¬ s.path.same t.path = true

theorem merges_foldl_addSegment (held new : List Segment) :
    Merges held new (new.foldl addSegment held) := by
  induction new generalizing held with
  | nil => exact ⟨by simp, fun s hs => ⟨s, by simpa using hs, Path.same_iff.2 rfl⟩, id⟩
  | cons first rest ih =>
    rw [List.foldl_cons]
    by_cases hfirst : Holds held first.path
    · rw [addSegment_of_holds hfirst]
      obtain ⟨hsubset, hholds, hapart⟩ := ih held
      obtain ⟨e, he, hsame⟩ := hfirst
      have hkept := (hholds e (List.mem_append_left _ he)).of_same hsame
      rw [List.forall_mem_append] at hholds
      refine ⟨List.Subset.trans hsubset (by simp), ?_, hapart⟩
      rw [List.forall_mem_append, List.forall_mem_cons]
      exact ⟨hholds.1, hkept, hholds.2⟩
    · rw [addSegment_of_not_holds hfirst]
      obtain ⟨hsubset, hholds, hapart⟩ := ih (held ++ [first])
      rw [← List.append_cons] at hsubset hholds
      refine ⟨hsubset, hholds, fun hheld => hapart ?_⟩
      refine List.pairwise_append.2 ⟨hheld, List.pairwise_singleton .., ?_⟩
      intro s hs t ht hsame
      rw [List.mem_singleton.1 ht] at hsame
      exact hfirst ⟨s, hs, hsame⟩

/-- Loading scripts one after the other merges all that they bring. -/
theorem exists_merged (h : o.loadAll fs paths held = .ok all) :
    ∃ brought : List Segment, (∀ s, s ∈ brought ↔ o.Brings fs paths s) ∧
      all = brought.foldl addSegment held := by
  induction paths generalizing held with
  | nil =>
    obtain rfl : held = all := by simpa [loadAll] using h
    exact ⟨[], by simp [Brings], rfl⟩
  | cons path rest ih =>
    obtain ⟨script, hload, hrest⟩ := loadAll_cons_eq_ok_iff.1 h
    obtain ⟨brought, hbrought, rfl⟩ := ih hrest
    refine ⟨script.segments ++ brought, fun s => ?_, by rw [List.foldl_append]⟩
    have hown : (∃ own, o.loader.load fs path = .ok own ∧ s ∈ own.segments) ↔
        s ∈ script.segments := by simp [hload]
    rw [List.mem_append, hbrought, Brings, Brings, List.exists_mem_cons_iff, hown]

theorem loadAll_of_assemble {loaded : LoadedScript} (h : o.assemble fs script names = .ok loaded) :
    o.loadAll fs (o.setup ++ [script.path]) [] = .ok loaded.loaded ∧
      loaded.epilogue = [benchDriver names o.iterations] := by
  obtain ⟨before, own, hbefore, hown, rfl⟩ := assemble_eq_ok_iff.1 h
  exact ⟨loadAll_append_eq_ok_iff.2 ⟨before, own, hbefore, hown, rfl⟩, rfl⟩

/-- The segments before the driver have different paths. They are of different files exactly if the
setup scripts and the script, each loaded by itself, bring no file under two spellings. -/
theorem files_distinct_iff {loaded : LoadedScript}
    (h : o.assemble fs script names = .ok loaded) :
    loaded.segments = loaded.loaded ++ [benchDriver names o.iterations] ∧
      (loaded.loaded.Pairwise fun s t => ¬ s.path.same t.path = true) ∧
      ((loaded.loaded.map fun s => fs.locate s.path).Nodup ↔
        o.SpellAlike fs (o.setup ++ [script.path])) := by
  obtain ⟨hall, hepilogue⟩ := loadAll_of_assemble h
  obtain ⟨brought, hbrought, hmerged⟩ := exists_merged hall
  obtain ⟨hsubset, hholds, hapart⟩ := merges_foldl_addSegment [] brought
  rw [← hmerged, List.nil_append] at hsubset hholds
  rw [← hmerged] at hapart
  have hdifferent := hapart .nil
  refine ⟨by rw [LoadedScript.segments, hepilogue], hdifferent, ?_⟩
  constructor
  · intro hnodup s t hs ht hlocate
    -- each is kept under its own path, so a file under two paths would be kept twice
    obtain ⟨e, he, hes⟩ := hholds s ((hbrought s).2 hs)
    obtain ⟨f, hf, hft⟩ := hholds t ((hbrought t).2 ht)
    have hbrings : ∀ k ∈ loaded.loaded, o.Brings fs (o.setup ++ [script.path]) k :=
      fun k hk => (hbrought k).1 (hsubset hk)
    have hfiles : fs.locate e.path = fs.locate f.path := by
      rw [(hbrings e he).locate_eq hs hes, (hbrings f hf).locate_eq ht hft, hlocate]
    obtain rfl : e = f := List.inj_on_of_nodup_map hnodup he hf hfiles
    exact Path.same_iff.2 ((Path.same_iff.1 hes).symm.trans (Path.same_iff.1 hft))
  · intro halike
    refine List.pairwise_map.2 (hdifferent.imp_of_mem ?_)
    intro s t hs ht hsame hlocate
    exact hsame (halike s t ((hbrought s).1 (hsubset hs)) ((hbrought t).1 (hsubset ht)) hlocate)

/-- A benchmark script that loads a file which sets it up. -/
def loadingFiles : FileSystem :=
  ⟨[("bench.js", .ofText "load('shim.js')"), ("shim.js", .ofText "const s = 1;")], ⟨[]⟩⟩

def loadingScript : BenchScript := ⟨⟨"bench.js"⟩, ["testA"]⟩

def loadingSegment : Segment := ⟨⟨"bench.js"⟩, "load('shim.js')"⟩

def declaringSegment (path : Path) : Segment := ⟨path, "const s = 1;"⟩

theorem load_loadingScript : Loader.load ⟨⟨"."⟩, []⟩ loadingFiles ⟨"bench.js"⟩ =
    .ok (.ofSegments [declaringSegment ⟨"./shim.js"⟩, loadingSegment]) := by
  have hdirectives : loadDirectives "load('shim.js')" = [⟨"shim.js", 1⟩] := by decide +kernel
  have hnone : loadDirectives "const s = 1;" = [] := by decide +kernel
  have hbench : loadingFiles.textAt ⟨["bench.js"]⟩ = .ok "load('shim.js')" := by decide +kernel
  have hshim : loadingFiles.textAt ⟨["shim.js"]⟩ = .ok "const s = 1;" := by decide +kernel
  let loaded := Progress.start.emit ⟨["shim.js"]⟩ (declaringSegment ⟨"./shim.js"⟩)
  refine Loader.load_eq_ok_iff.2 ⟨⟨["bench.js"]⟩, _, .start,
    loaded.emit ⟨["bench.js"]⟩ loadingSegment, ⟨.done _, by rfl, hbench, loaded, ?_, rfl⟩, rfl⟩
  rw [hdirectives]
  refine .enter (by rfl) (by decide) (by decide) hshim ?_ (.done _ _)
  rw [hnone]
  exact .done _ _

theorem load_declaring {path : Path} (h : loadingFiles.locate path = .ok ⟨["shim.js"]⟩) :
    Loader.load ⟨⟨"."⟩, []⟩ loadingFiles path = .ok (.ofSegments [declaringSegment path]) :=
  Loader.load_of_noDirectives rfl h (by decide +kernel) (by decide +kernel)

/-- A setup script that is named as the benchmark script loads it comes once. -/
theorem files_distinct_loadedPath :
    assemble { setup := [⟨"./shim.js"⟩] } loadingFiles loadingScript ["testA"] =
        .ok ⟨[declaringSegment ⟨"./shim.js"⟩, loadingSegment], [benchDriver ["testA"] {}]⟩ ∧
      BenchOptions.SpellAlike { setup := [⟨"./shim.js"⟩] } loadingFiles
        [⟨"./shim.js"⟩, ⟨"bench.js"⟩] := by
  have hsetup : loadAll { setup := [⟨"./shim.js"⟩] } loadingFiles [⟨"./shim.js"⟩] [] =
      .ok [declaringSegment ⟨"./shim.js"⟩] :=
    loadAll_cons_eq_ok_iff.2 ⟨_, load_declaring (by rfl), rfl⟩
  have hassemble : assemble { setup := [⟨"./shim.js"⟩] } loadingFiles loadingScript ["testA"] =
      .ok ⟨[declaringSegment ⟨"./shim.js"⟩, loadingSegment], [benchDriver ["testA"] {}]⟩ :=
    assemble_eq_ok_iff.2 ⟨_, _, hsetup, load_loadingScript, rfl⟩
  refine ⟨hassemble, (files_distinct_iff hassemble).2.2.1 ?_⟩
  decide

/-- A setup script that is named without the dot of the folder that it is loaded from comes
twice. -/
theorem files_not_distinct : ∃ loaded,
    assemble { setup := [⟨"shim.js"⟩] } loadingFiles loadingScript ["testA"] = .ok loaded ∧
      loaded.loaded.map Segment.path = [⟨"shim.js"⟩, ⟨"./shim.js"⟩, ⟨"bench.js"⟩] ∧
      ¬ (loaded.loaded.map fun s => loadingFiles.locate s.path).Nodup := by
  have hsetup : loadAll { setup := [⟨"shim.js"⟩] } loadingFiles [⟨"shim.js"⟩] [] =
      .ok [declaringSegment ⟨"shim.js"⟩] :=
    loadAll_cons_eq_ok_iff.2 ⟨_, load_declaring (by rfl), rfl⟩
  exact ⟨_, assemble_eq_ok_iff.2 ⟨_, _, hsetup, load_loadingScript, rfl⟩, rfl, by decide⟩

end BenchOptions

end EngineTrials
