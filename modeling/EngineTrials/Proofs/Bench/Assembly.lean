import EngineTrials.Bench.Runner
import EngineTrials.Proofs.FileSystem.Spelling
import EngineTrials.Proofs.Load.Segments
import Mathlib.Data.List.Induction

/-! What a benchmark script is put together with. The files of the setup scripts and those of the
script are merged, the first of each path being kept, so each file still comes after what it loads.
The last one is taken for the body: it is the benchmark script unless a setup script has brought it
in already and something else comes after it. -/

namespace EngineTrials

namespace BenchOptions

/-- One of the segments goes by the path. -/
def Holds (segments : List Segment) (path : Path) : Prop :=
  ∃ s ∈ segments, s.path.same path = true

instance (segments : List Segment) (path : Path) : Decidable (Holds segments path) :=
  inferInstanceAs (Decidable (∃ s ∈ segments, s.path.same path = true))

variable {segments : List Segment} {segment : Segment}

theorem addSegment_of_holds (h : Holds segments segment.path) :
    addSegment segments segment = segments := by
  rw [addSegment, if_pos (List.any_eq_true.2 h)]

theorem addSegment_of_not_holds (h : ¬ Holds segments segment.path) :
    addSegment segments segment = segments ++ [segment] := by
  rw [addSegment, if_neg fun hany => h (List.any_eq_true.1 hany)]

theorem holds_append {more : List Segment} {path : Path} :
    Holds (segments ++ more) path ↔ Holds segments path ∨ Holds more path := by
  simp only [Holds, List.mem_append, or_and_right, exists_or]

/-- Merging keeps what is there and adds some of the new segments, none exactly if all of their
paths are there. -/
theorem exists_foldl_addSegment (segments new : List Segment) :
    ∃ kept, new.foldl addSegment segments = segments ++ kept ∧ kept.Sublist new ∧
      (kept = [] ↔ ∀ s ∈ new, Holds segments s.path) := by
  induction new generalizing segments with
  | nil => exact ⟨[], by simp, .slnil, by simp⟩
  | cons first rest ih =>
    rw [List.foldl_cons]
    by_cases hholds : Holds segments first.path
    · obtain ⟨kept, hkept, hsublist, hnone⟩ := ih segments
      rw [addSegment_of_holds hholds]
      refine ⟨kept, hkept, hsublist.cons first, ?_⟩
      rw [hnone, List.forall_mem_cons]
      exact (and_iff_right hholds).symm
    · obtain ⟨kept, hkept, hsublist, -⟩ := ih (segments ++ [first])
      rw [addSegment_of_not_holds hholds, hkept]
      refine ⟨first :: kept, by simp, hsublist.cons_cons first, ?_⟩
      exact iff_of_false (by simp) fun hall => hholds (hall first List.mem_cons_self)

end BenchOptions

namespace Loader.Ordered

open BenchOptions

variable {loader : Loader} {fs : FileSystem} {held new : List Segment}

/-- Merging keeps the order, and for each new segment there is one with its file. -/
theorem merge (hheld : loader.Ordered fs held) (hnew : loader.Ordered fs new) :
    loader.Ordered fs (new.foldl addSegment held) ∧
      ∀ s ∈ new, ∃ e ∈ new.foldl addSegment held, fs.locate e.path = fs.locate s.path := by
  induction new using List.reverseRecOn with
  | nil => exact ⟨hheld, by simp⟩
  | append_singleton init last ih =>
    obtain ⟨hmerged, hinit⟩ := ih hnew.init
    rw [List.foldl_append, List.foldl_cons, List.foldl_nil]
    generalize init.foldl addSegment held = merged at hmerged hinit ⊢
    obtain ⟨key, hkey, hsource⟩ := hnew.texts last (by simp)
    by_cases hholds : Holds merged last.path
    · rw [addSegment_of_holds hholds]
      refine ⟨hmerged, List.forall_mem_append.2 ⟨hinit, ?_⟩⟩
      obtain ⟨e, he, hsame⟩ := hholds
      obtain ⟨key', hkey', -⟩ := hmerged.texts e he
      obtain rfl := FileSystem.locate_eq_of_same hsame hkey' hkey
      simpa [hkey] using ⟨e, he, hkey'⟩
    · rw [addSegment_of_not_holds hholds]
      refine ⟨hmerged.append_singleton ⟨key, hkey, hsource⟩ ?_, ?_⟩
      · intro directive hd
        obtain ⟨dep, hdep, e, he, hloc⟩ := hnew.earlier init last [] rfl directive hd
        obtain ⟨e', he', hloc'⟩ := hinit e he
        exact ⟨dep, hdep, e', he', hloc'.trans hloc⟩
      · intro s hs
        rcases List.mem_append.1 hs with hs | hs
        · obtain ⟨e, he, hloc⟩ := hinit s hs
          exact ⟨e, List.mem_append_left _ he, hloc⟩
        · exact ⟨s, List.mem_append_right _ hs, rfl⟩

end Loader.Ordered

namespace BenchOptions

variable {o : BenchOptions} {fs : FileSystem} {script : BenchScript} {names : List String}

theorem loadAll_cons_eq_ok_iff {path : Path} {rest : List Path} {held all : List Segment} :
    o.loadAll fs (path :: rest) held = .ok all ↔ ∃ script, o.loader.load fs path = .ok script ∧
      o.loadAll fs rest (script.segments.foldl addSegment held) = .ok all := by
  simp only [loadAll, bind, Except.bind]
  cases o.loader.load fs path with
  | error fault => simp
  | ok script => simp

theorem loadAll_append_eq_ok_iff {paths : List Path} {path : Path} {held all : List Segment} :
    o.loadAll fs (paths ++ [path]) held = .ok all ↔
      ∃ before script, o.loadAll fs paths held = .ok before ∧ o.loader.load fs path = .ok script ∧
        all = script.segments.foldl addSegment before := by
  induction paths generalizing held with
  | nil =>
    rw [List.nil_append, loadAll_cons_eq_ok_iff]
    simp [loadAll, eq_comm]
  | cons first rest ih =>
    rw [List.cons_append, loadAll_cons_eq_ok_iff]
    simp only [ih, loadAll_cons_eq_ok_iff]
    constructor
    · rintro ⟨script, hload, before, own, hbefore, hown, rfl⟩
      exact ⟨before, own, ⟨script, hload, hbefore⟩, hown, rfl⟩
    · rintro ⟨before, own, ⟨script, hload, hbefore⟩, hown, rfl⟩
      exact ⟨script, hload, before, own, hbefore, hown, rfl⟩

theorem ordered_loadAll {paths : List Path} {held all : List Segment}
    (hheld : o.loader.Ordered fs held) (h : o.loadAll fs paths held = .ok all) :
    o.loader.Ordered fs all := by
  induction paths generalizing held with
  | nil =>
    obtain rfl : held = all := by simpa [loadAll] using h
    exact hheld
  | cons path rest ih =>
    obtain ⟨script, hload, hrest⟩ := loadAll_cons_eq_ok_iff.1 h
    obtain ⟨-, -, -, -, -, -, hordered⟩ := Loader.load_spec rfl hload
    exact ih (hheld.merge hordered).1 hrest

theorem assemble_eq_ok_iff {loaded : LoadedScript} :
    o.assemble fs script names = .ok loaded ↔ ∃ before own,
      o.loadAll fs o.setup [] = .ok before ∧ o.loader.load fs script.path = .ok own ∧
        loaded = ⟨own.segments.foldl addSegment before, [benchDriver names o.iterations]⟩ := by
  unfold assemble
  constructor
  · intro h
    cases hall : o.loadAll fs (o.setup ++ [script.path]) [] with
    | error fault => simp [hall, Except.map] at h
    | ok all =>
      obtain ⟨before, own, hbefore, hown, rfl⟩ := loadAll_append_eq_ok_iff.1 hall
      rw [hall] at h
      exact ⟨before, own, hbefore, hown, (Except.ok.inj h).symm⟩
  · rintro ⟨before, own, hbefore, hown, rfl⟩
    rw [loadAll_append_eq_ok_iff.2 ⟨before, own, hbefore, hown, rfl⟩]
    rfl

/-- The last of the merged segments, by whether the setup scripts have brought the script in: the
script, or what it loads and they do not, or what they end with. -/
theorem getLast?_merge (before : List Segment) {own : List Segment} (segment : Segment)
    (hown : ∀ d ∈ own, ¬ d.path.same segment.path = true) :
    (¬ Holds before segment.path ∧
      ((own ++ [segment]).foldl addSegment before).getLast? = some segment) ∨
    Holds before segment.path ∧
      ((¬ (∀ d ∈ own, Holds before d.path) ∧
        ∃ d ∈ own, ((own ++ [segment]).foldl addSegment before).getLast? = some d) ∨
      (∀ d ∈ own, Holds before d.path) ∧
        (own ++ [segment]).foldl addSegment before = before) := by
  obtain ⟨kept, hkept, hsublist, hnone⟩ := exists_foldl_addSegment before own
  -- what is added before the script is not the script, so only the setup scripts can hold it
  have hother : ¬ Holds kept segment.path := fun ⟨d, hd, hsame⟩ => hown d (hsublist.subset hd) hsame
  rw [List.foldl_append, hkept, List.foldl_cons, List.foldl_nil, ← hnone]
  by_cases hholds : Holds before segment.path
  · rw [addSegment_of_holds (holds_append.2 (.inl hholds))]
    refine .inr ⟨hholds, ?_⟩
    rcases List.eq_nil_or_concat kept with rfl | ⟨init, last, rfl⟩
    · exact .inr ⟨rfl, List.append_nil before⟩
    · refine .inl ⟨by simp, last, hsublist.subset (by simp), ?_⟩
      rw [List.concat_eq_append, ← List.append_assoc, List.getLast?_concat]
  · have hnew : ¬ Holds (before ++ kept) segment.path := by
      rw [holds_append]
      exact not_or_intro hholds hother
    rw [addSegment_of_not_holds hnew, List.getLast?_concat]
    exact .inl ⟨hholds, rfl⟩

/-- A script is put together with each file after what it loads. Its body is the benchmark script
exactly if the setup scripts do not bring it in, or bring in all that it loads and it at the
end. -/
theorem assemble_body {loaded : LoadedScript} (h : o.assemble fs script names = .ok loaded) :
    ∃ before own key source body, o.loadAll fs o.setup [] = .ok before ∧
      o.loader.load fs script.path = .ok own ∧
      fs.locate script.path = .ok key ∧ fs.textAt key = .ok source ∧
      loaded.body? = some body ∧ loaded.epilogue = [benchDriver names o.iterations] ∧
      o.loader.Ordered fs loaded.loaded ∧
      (fs.locate body.path = .ok key ∧ body.source = source ↔
        ¬ Holds before script.path ∨
          (∀ d ∈ own.dependencies, Holds before d.path) ∧
            ∃ last, before.getLast? = some last ∧ fs.locate last.path = .ok key) := by
  obtain ⟨before, own, hbefore, hown, rfl⟩ := assemble_eq_ok_iff.1 h
  obtain ⟨key, source, hkey, hsource, hsegments, hother, hordered⟩ := Loader.load_spec rfl hown
  have hmerged := ((ordered_loadAll .nil hbefore).merge hordered).1
  have hdifferent : ∀ d ∈ own.dependencies, ¬ d.path.same script.path = true := by
    intro d hd hsame
    obtain ⟨key', hkey', -⟩ := hordered.texts d (by simp [hsegments, hd])
    obtain rfl := FileSystem.locate_eq_of_same hsame hkey' hkey
    exact hother d hd hkey'
  have hlast := getLast?_merge before ⟨script.path, source⟩ hdifferent
  rw [hsegments] at hmerged ⊢
  generalize List.foldl addSegment before _ = merged at hmerged hlast ⊢
  rcases hlast with ⟨hnew, hlast⟩ | ⟨hholds, ⟨hsome, d, hd, hlast⟩ | ⟨hall, rfl⟩⟩
  · exact ⟨before, own, key, source, _, hbefore, hown, hkey, hsource, hlast, rfl, hmerged,
      iff_of_true ⟨hkey, rfl⟩ (.inl hnew)⟩
  · refine ⟨before, own, key, source, d, hbefore, hown, hkey, hsource, hlast, rfl, hmerged,
      iff_of_false (fun hbody => hother d hd hbody.1) ?_⟩
    rintro (hnew | ⟨hall, -⟩)
    · exact hnew hholds
    · exact hsome hall
  · obtain ⟨last, hlast⟩ : ∃ last, merged.getLast? = some last := by
      obtain ⟨s, hs, -⟩ := hholds
      exact ⟨_, List.getLast?_eq_some_getLast (List.ne_nil_of_mem hs)⟩
    refine ⟨merged, own, key, source, last, hbefore, hown, hkey, hsource, hlast, rfl, hmerged,
      fun hbody => .inr ⟨hall, last, hlast, hbody.1⟩, ?_⟩
    rintro (hnew | ⟨-, last', hlast', hloc⟩)
    · exact absurd hholds hnew
    · obtain rfl := Option.some.inj (hlast.symm.trans hlast')
      obtain ⟨key', hkey', htext⟩ := hmerged.texts last (List.mem_of_getLast? hlast)
      obtain rfl := Except.ok.inj (hkey'.symm.trans hloc)
      exact ⟨hloc, Except.ok.inj (htext.symm.trans hsource)⟩

/-- A benchmark script and a file to set it up. -/
def shimFiles : FileSystem :=
  ⟨[("bench.js", .ofText "function testA() \x7b\x7d"), ("shim.js", .ofText "var s = 1;")], ⟨[]⟩⟩

def shimScript : BenchScript := ⟨⟨"bench.js"⟩, ["testA"]⟩

def benchSegment : Segment := ⟨⟨"bench.js"⟩, "function testA() \x7b\x7d"⟩

def shimSegment : Segment := ⟨⟨"shim.js"⟩, "var s = 1;"⟩

theorem load_bench (o : BenchOptions) :
    o.loader.load shimFiles ⟨"bench.js"⟩ = .ok (.ofSegments [benchSegment]) := by
  have hsource : shimFiles.textAt ⟨["bench.js"]⟩ = .ok benchSegment.source := by decide +kernel
  exact Loader.load_of_noDirectives rfl (by rfl) hsource (by decide +kernel)

theorem load_shim (o : BenchOptions) :
    o.loader.load shimFiles ⟨"shim.js"⟩ = .ok (.ofSegments [shimSegment]) := by
  have hsource : shimFiles.textAt ⟨["shim.js"]⟩ = .ok shimSegment.source := by decide +kernel
  exact Loader.load_of_noDirectives rfl (by rfl) hsource (by decide +kernel)

/-- A setup script of its own comes before the benchmark script, which is the body. -/
theorem assemble_body_shim :
    assemble { setup := [⟨"shim.js"⟩] } shimFiles shimScript ["testA"] =
        .ok ⟨[shimSegment, benchSegment], [benchDriver ["testA"] {}]⟩ ∧
      ∃ key, shimFiles.locate shimScript.path = .ok key ∧
        shimFiles.locate benchSegment.path = .ok key ∧
        shimFiles.textAt key = .ok benchSegment.source := by
  have hsetup : loadAll { setup := [⟨"shim.js"⟩] } shimFiles [⟨"shim.js"⟩] [] =
      .ok [shimSegment] := loadAll_cons_eq_ok_iff.2 ⟨_, load_shim _, rfl⟩
  have hassemble : assemble { setup := [⟨"shim.js"⟩] } shimFiles shimScript ["testA"] =
      .ok ⟨[shimSegment, benchSegment], [benchDriver ["testA"] {}]⟩ :=
    assemble_eq_ok_iff.2 ⟨_, _, hsetup, load_bench _, rfl⟩
  obtain ⟨before, own, key, source, body, hbefore, -, hkey, hsource, hbody, -, -, hiff⟩ :=
    assemble_body hassemble
  obtain rfl : [shimSegment] = before := Except.ok.inj (hsetup.symm.trans hbefore)
  obtain rfl : benchSegment = body := Option.some.inj hbody
  obtain ⟨hplace, rfl⟩ := hiff.2 (.inl (by decide))
  exact ⟨hassemble, key, hkey, hplace, hsource⟩

/-- A setup script that is the benchmark script, with another one after it: the other one is taken
for the body. -/
theorem assemble_body_overtaken : ∃ loaded,
    assemble { setup := [⟨"bench.js"⟩, ⟨"shim.js"⟩] } shimFiles shimScript ["testA"] = .ok loaded ∧
      loaded.body? = some shimSegment ∧
      shimFiles.locate shimSegment.path ≠ shimFiles.locate shimScript.path := by
  have hsetup : loadAll { setup := [⟨"bench.js"⟩, ⟨"shim.js"⟩] } shimFiles
      [⟨"bench.js"⟩, ⟨"shim.js"⟩] [] = .ok [benchSegment, shimSegment] :=
    loadAll_cons_eq_ok_iff.2 ⟨_, load_bench _, loadAll_cons_eq_ok_iff.2 ⟨_, load_shim _, rfl⟩⟩
  have hshim : shimFiles.locate shimSegment.path = .ok ⟨["shim.js"]⟩ := by rfl
  have hbench : shimFiles.locate shimScript.path = .ok ⟨["bench.js"]⟩ := by rfl
  refine ⟨_, assemble_eq_ok_iff.2 ⟨_, _, hsetup, load_bench _, rfl⟩, rfl, ?_⟩
  rw [hshim, hbench]
  simp

end BenchOptions

end EngineTrials
