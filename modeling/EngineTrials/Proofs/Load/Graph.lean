import EngineTrials.Load.Loader
import Mathlib.Logic.Relation

/-! The load graph: the files of a file system, and the load directives that lead from one file to
another. What has been put together file by file, each file after everything that it loads, is
closed under these directives and lies on no cycle of them. -/

namespace EngineTrials

open Relation

/-- A regular file that holds a text. -/
def Entry.ofText (text : String) : Entry := .file (Text.Utf8.encode text.toList)

/-- A path that leads to a regular file whose bytes are text. -/
def FileSystem.Readable (fs : FileSystem) (path : Path) : Prop :=
  ∃ source, fs.readText path = .ok source

theorem FileSystem.readText_eq_ok {fs : FileSystem} {path : Path} {source : String} :
    fs.readText path = .ok source ↔
      ∃ key, fs.locate path = .ok key ∧ fs.textAt key = .ok source := by
  unfold FileSystem.readText
  cases fs.locate path with
  | error fault => simp
  | ok key => simp

theorem FileSystem.readable_iff {fs : FileSystem} {path : Path} :
    fs.Readable path ↔ ∃ key source, fs.locate path = .ok key ∧ fs.textAt key = .ok source := by
  constructor
  · rintro ⟨source, h⟩
    obtain ⟨key, hkey, hsource⟩ := FileSystem.readText_eq_ok.1 h
    exact ⟨key, source, hkey, hsource⟩
  · rintro ⟨key, source, hkey, hsource⟩
    exact ⟨source, FileSystem.readText_eq_ok.2 ⟨key, hkey, hsource⟩⟩

/-- A location with text is that of a regular file. -/
theorem FileSystem.isFile_of_textAt {fs : FileSystem} {path : Path} {key : Location}
    {source : String} (hkey : fs.locate path = .ok key) (hsource : fs.textAt key = .ok source) :
    fs.isFile path = true := by
  simp only [FileSystem.textAt] at hsource
  simp only [FileSystem.isFile, hkey]
  cases hbytes : fs.bytesAt key with
  | error fault => simp [hbytes] at hsource
  | ok content => rfl

namespace Loader

variable {loader : Loader} {fs : FileSystem}

/-- A load directive of the file at `a` leads to the file at `b`. -/
def Loads (loader : Loader) (fs : FileSystem) (a b : Location) : Prop :=
  ∃ source, fs.textAt a = .ok source ∧
    ∃ directive ∈ loadDirectives source, fs.locate (loader.resolve directive.path) = .ok b

/-- Load directives lead from the file at `a` to the file at `b`, in any number of steps. -/
abbrev Reaches (loader : Loader) (fs : FileSystem) : Location → Location → Prop :=
  ReflTransGen (loader.Loads fs)

/-- The file at `key` is the fixture at `path` or one of its helper files. -/
def StartsAt (loader : Loader) (fs : FileSystem) (path : Path) (key : Location) : Prop :=
  ∃ start ∈ path :: loader.implicitIncludesFor fs path, fs.locate start = .ok key

/-- The fixture at `path` or one of its helper files reaches the file at `key`. -/
def Needs (loader : Loader) (fs : FileSystem) (path : Path) (key : Location) : Prop :=
  ∃ start, loader.StartsAt fs path start ∧ loader.Reaches fs start key

theorem Needs.loads {path : Path} {a b : Location} (h : loader.Needs fs path a)
    (hab : loader.Loads fs a b) : loader.Needs fs path b := by
  obtain ⟨start, hstart, hreach⟩ := h
  exact ⟨start, hstart, hreach.tail hab⟩

/-- Each of the directives leads to one of the files. -/
def Targets (loader : Loader) (fs : FileSystem) (directives : List LoadDirective)
    (files : List Location) : Prop :=
  ∀ directive ∈ directives, ∃ dep ∈ files, fs.locate (loader.resolve directive.path) = .ok dep

theorem Targets.mono {directives : List LoadDirective} {files files' : List Location}
    (h : loader.Targets fs directives files) (hsub : files ⊆ files') :
    loader.Targets fs directives files' := by
  intro directive hd
  obtain ⟨dep, hdep, hloc⟩ := h directive hd
  exact ⟨dep, hsub hdep, hloc⟩

/-- What the file at `key` loads is among the files that its directives lead to. -/
theorem Targets.mem_of_loads {source : String} {files : List Location} {key dep : Location}
    (h : loader.Targets fs (loadDirectives source) files) (hsource : fs.textAt key = .ok source)
    (hload : loader.Loads fs key dep) : dep ∈ files := by
  obtain ⟨source', hsource', directive, hd, hloc⟩ := hload
  obtain rfl : source = source' := by simpa [hsource] using hsource'
  obtain ⟨dep', hdep', hloc'⟩ := h directive hd
  obtain rfl : dep = dep' := by simpa [hloc] using hloc'
  exact hdep'

/-- A progress that arises file by file: the path of each segment leads to the file that it stands
for, and the directives of a file lead to files included before it. -/
inductive Assembled (loader : Loader) (fs : FileSystem) : Progress → Prop
  | start : Assembled loader fs .start
  | emit {p : Progress} {key : Location} {path : Path} {source : String} :
      Assembled loader fs p → fs.locate path = .ok key → fs.textAt key = .ok source →
      loader.Targets fs (loadDirectives source) p.included →
      Assembled loader fs (p.emit key ⟨path, source⟩)

namespace Assembled

/-- The segments stand for the included files, which are listed with the newest first. -/
theorem located {p : Progress} (h : Assembled loader fs p) :
    p.segments.map (fun s => fs.locate s.path) = p.included.reverse.map Except.ok := by
  induction h with
  | start => rfl
  | emit _ hkey _ _ ih => simp [Progress.emit, ih, hkey]

theorem mem_included_iff {p : Progress} (h : Assembled loader fs p) {key : Location} :
    key ∈ p.included ↔ ∃ s ∈ p.segments, fs.locate s.path = .ok key := by
  have hmap : (Except.ok key : Except FileFault Location) ∈
      p.segments.map (fun s => fs.locate s.path) ↔ key ∈ p.included := by
    rw [h.located]
    simp
  rw [← hmap, List.mem_map]

theorem textAt {p : Progress} (h : Assembled loader fs p) {s : Segment} (hs : s ∈ p.segments) :
    ∃ key, fs.locate s.path = .ok key ∧ fs.textAt key = .ok s.source := by
  induction h with
  | start => simp [Progress.start] at hs
  | @emit p key path source _ hkey hsource _ ih =>
    rcases List.mem_append.1 hs with hs | hs
    · exact ih hs
    · obtain rfl := List.mem_singleton.1 hs
      exact ⟨key, hkey, hsource⟩

/-- The directives of a segment lead to the files of segments before it. -/
theorem earlier {p : Progress} (h : Assembled loader fs p) {before after : List Segment}
    {s : Segment} (hs : p.segments = before ++ s :: after) {directive : LoadDirective}
    (hd : directive ∈ loadDirectives s.source) :
    ∃ key, fs.locate (loader.resolve directive.path) = .ok key ∧
      ∃ e ∈ before, fs.locate e.path = .ok key := by
  induction h generalizing after with
  | start => simp [Progress.start] at hs
  | @emit p key path source hp hkey hsource htargets ih =>
    rcases List.eq_nil_or_concat after with rfl | ⟨rest, last, rfl⟩
    · obtain ⟨rfl, hlast⟩ := List.append_inj' hs rfl
      obtain rfl : ⟨path, source⟩ = s := by simpa using hlast
      obtain ⟨dep, hdep, hloc⟩ := htargets directive hd
      exact ⟨dep, hloc, hp.mem_included_iff.1 hdep⟩
    · have hcut : p.segments ++ [⟨path, source⟩] = (before ++ s :: rest) ++ [last] := by
        simpa [Progress.emit] using hs
      exact ih (List.append_inj' hcut rfl).1

theorem exists_textAt {p : Progress} (h : Assembled loader fs p) {key : Location}
    (hkey : key ∈ p.included) : ∃ source, fs.textAt key = .ok source := by
  obtain ⟨s, hs, hloc⟩ := h.mem_included_iff.1 hkey
  obtain ⟨key', hloc', hsource⟩ := h.textAt hs
  obtain rfl : key = key' := by simpa [hloc] using hloc'
  exact ⟨s.source, hsource⟩

/-- The directives of an included file lead to included files. -/
theorem targets {p : Progress} (h : Assembled loader fs p) {key : Location} {source : String}
    (hkey : key ∈ p.included) (hsource : fs.textAt key = .ok source) :
    loader.Targets fs (loadDirectives source) p.included := by
  induction h with
  | start => simp [Progress.start] at hkey
  | @emit p key' path source' _ _ hsource' htargets ih =>
    have hsub : p.included ⊆ (p.emit key' ⟨path, source'⟩).included := List.subset_cons_self ..
    rcases List.mem_cons.1 hkey with rfl | hkey
    · obtain rfl : source = source' := by simpa [hsource] using hsource'
      exact htargets.mono hsub
    · exact (ih hkey).mono hsub

/-- What an included file reaches is included. -/
theorem mem_of_reaches {p : Progress} (h : Assembled loader fs p) {a b : Location}
    (ha : a ∈ p.included) (hab : loader.Reaches fs a b) : b ∈ p.included := by
  induction hab with
  | refl => exact ha
  | tail _ hload ih =>
    obtain ⟨source, hsource⟩ := h.exists_textAt ih
    exact (h.targets ih hsource).mem_of_loads hsource hload

/-- No included file lies on a cycle. -/
theorem acyclic {p : Progress} (h : Assembled loader fs p) {key : Location}
    (hkey : key ∈ p.included) : ¬ TransGen (loader.Loads fs) key key := by
  induction h with
  | start => simp [Progress.start] at hkey
  | @emit p key' path source hp _ hsource htargets ih =>
    by_cases hold : key ∈ p.included
    · exact ih hold
    · obtain rfl : key = key' := (List.mem_cons.1 hkey).resolve_right hold
      -- the first step of a cycle would lead to an older file, and all that one reaches is older
      intro hcycle
      obtain ⟨dep, hload, hback⟩ := TransGen.head'_iff.1 hcycle
      exact hold (hp.mem_of_reaches (htargets.mem_of_loads hsource hload) hback)

end Assembled

end Loader

end EngineTrials
