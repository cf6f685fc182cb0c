import EngineTrials.Proofs.Load.Graph

/-! The depth first search of a loader as a derivation: `VisitsAll` for the files that directives
lead to and `VisitsIncludes` for the helper files of a fixture. What the search adds to a progress
is read off the derivation. -/

namespace EngineTrials

open Relation

/-- `q` has all that `p` has, and what it has more comes later. -/
structure Progress.Extends (p q : Progress) : Prop where
  included : p.included ⊆ q.included
  segments : p.segments <+: q.segments

theorem Progress.Extends.refl (p : Progress) : p.Extends p :=
  ⟨List.Subset.refl _, List.prefix_refl _⟩

theorem Progress.Extends.trans {p q r : Progress} (h1 : p.Extends q) (h2 : q.Extends r) :
    p.Extends r :=
  ⟨List.Subset.trans h1.included h2.included, h1.segments.trans h2.segments⟩

theorem Progress.extends_emit (p : Progress) (key : Location) (segment : Segment) :
    p.Extends (p.emit key segment) :=
  ⟨List.subset_cons_self .., List.prefix_append ..⟩

namespace Loader

variable {loader : Loader} {fs : FileSystem}

theorem locate_eq_ok {path : Path} {key : Location} :
    locate fs path = .ok key ↔ fs.locate path = .ok key := by
  unfold locate
  cases fs.locate path with
  | error fault => simp
  | ok key' => simp

theorem readAt_eq_ok {path : Path} {key : Location} {source : String} :
    readAt fs path key = .ok source ↔ fs.textAt key = .ok source := by
  unfold readAt
  cases fs.textAt key with
  | error fault => simp
  | ok source' => simp

/-- The search below the files of `chain` that follows directives from `p` to `q`. -/
inductive VisitsAll (loader : Loader) (fs : FileSystem) :
    List Location → List LoadDirective → Progress → Progress → Prop
  | done (chain : List Location) (p : Progress) : VisitsAll loader fs chain [] p p
  | known {chain : List Location} {directive : LoadDirective} {rest : List LoadDirective}
      {p q : Progress} {key : Location} :
      fs.isFile (loader.resolve directive.path) = true →
      fs.locate (loader.resolve directive.path) = .ok key → key ∉ chain → key ∈ p.included →
      VisitsAll loader fs chain rest p q → VisitsAll loader fs chain (directive :: rest) p q
  | enter {chain : List Location} {directive : LoadDirective} {rest : List LoadDirective}
      {p below q : Progress} {key : Location} {source : String} :
      fs.locate (loader.resolve directive.path) = .ok key → key ∉ chain → key ∉ p.included →
      fs.textAt key = .ok source →
      VisitsAll loader fs (chain ++ [key]) (loadDirectives source) p below →
      VisitsAll loader fs chain rest (below.emit key ⟨loader.resolve directive.path, source⟩) q →
      VisitsAll loader fs chain (directive :: rest) p q

theorem visitsAll_of_visitAll {chain : List Location} {origin : Path}
    {directives : List LoadDirective} {p q : Progress}
    (h : loader.visitAll fs chain origin directives p = .ok q) :
    VisitsAll loader fs chain directives p q := by
  fun_induction visitAll loader fs chain origin directives p generalizing q with
  | case1 chain _ p =>
    obtain rfl : p = q := by simpa using h
    exact .done chain p
  | case2 => simp at h
  | case3 => simp at h
  | case4 => simp at h
  | case5 =>
    rename_i hfile key hkey hchain hknown ih
    exact .known (by simpa using hfile) (locate_eq_ok.1 hkey) hchain hknown (ih h)
  | case6 => simp at h
  | case7 => simp at h
  | case8 =>
    rename_i key hkey hchain hnew source hsource below hbelow ih1 ih2
    exact .enter (locate_eq_ok.1 hkey) hchain hnew hsource (ih1 hbelow) (ih2 h)

theorem visitAll_of_visitsAll {chain : List Location} {directives : List LoadDirective}
    {p q : Progress} (h : VisitsAll loader fs chain directives p q) (origin : Path) :
    loader.visitAll fs chain origin directives p = .ok q := by
  induction h generalizing origin with
  | done => rw [visitAll]
  | known hfile hkey hchain hknown _ ih =>
    rw [visitAll]
    simp only [hfile, locate_eq_ok.2 hkey, hchain, hknown, Bool.true_eq_false, if_false,
      dite_false, if_true]
    exact ih origin
  | @enter chain directive rest p below q key source hkey hchain hnew hsource _ _ ih1 ih2 =>
    rw [visitAll]
    simp only [FileSystem.isFile_of_textAt hkey hsource, locate_eq_ok.2 hkey, hchain, hnew,
      Bool.true_eq_false, if_false, dite_false]
    split
    · rename_i fault hfault
      simp [hsource] at hfault
    · rename_i text htext
      obtain rfl : source = text := by simpa [hsource] using htext
      rw [ih1]
      exact ih2 origin

theorem visitAll_eq_ok_iff {chain : List Location} {origin : Path}
    {directives : List LoadDirective} {p q : Progress} :
    loader.visitAll fs chain origin directives p = .ok q ↔
      VisitsAll loader fs chain directives p q :=
  ⟨visitsAll_of_visitAll, fun h => visitAll_of_visitsAll h origin⟩

namespace VisitsAll

variable {chain : List Location} {directives : List LoadDirective} {p q : Progress}

theorem extension (h : VisitsAll loader fs chain directives p q) : p.Extends q := by
  induction h with
  | done chain p => exact Progress.Extends.refl p
  | known _ _ _ _ _ ih => exact ih
  | enter _ _ _ _ _ _ ih1 ih2 => exact (ih1.trans (Progress.extends_emit ..)).trans ih2

/-- The search adds files in an order that puts each after what it loads, and misses none that a
directive leads to. -/
theorem assembled (h : VisitsAll loader fs chain directives p q) (hp : Assembled loader fs p) :
    Assembled loader fs q ∧ loader.Targets fs directives q.included := by
  induction h with
  | done => exact ⟨hp, by simp [Targets]⟩
  | known _ hkey _ hknown hrest ih =>
    obtain ⟨hq, htargets⟩ := ih hp
    refine ⟨hq, List.forall_mem_cons.2 ⟨?_, htargets⟩⟩
    exact ⟨_, hrest.extension.included hknown, hkey⟩
  | enter hkey _ _ hsource _ hrest ih1 ih2 =>
    obtain ⟨hbelow, htargets⟩ := ih1 hp
    obtain ⟨hq, htargets'⟩ := ih2 (hbelow.emit hkey hsource htargets)
    refine ⟨hq, List.forall_mem_cons.2 ⟨?_, htargets'⟩⟩
    exact ⟨_, hrest.extension.included List.mem_cons_self, hkey⟩

/-- A file that is still being loaded is not added. -/
theorem mem_of_mem_chain (h : VisitsAll loader fs chain directives p q) {key : Location}
    (hchain : key ∈ chain) (hq : key ∈ q.included) : key ∈ p.included := by
  induction h with
  | done => exact hq
  | known _ _ _ _ _ ih => exact ih hchain hq
  | @enter chain directive rest p below q key' source _ hout _ _ _ _ ih1 ih2 =>
    refine ih1 (List.mem_append_left _ hchain) ?_
    have hmem := ih2 hchain hq
    have hne : key ≠ key' := by
      rintro rfl
      exact hout hchain
    exact (List.mem_cons.1 hmem).resolve_left hne

/-- No file is added twice. -/
theorem nodup (h : VisitsAll loader fs chain directives p q) (hp : p.included.Nodup) :
    q.included.Nodup := by
  induction h with
  | done => exact hp
  | known _ _ _ _ _ ih => exact ih hp
  | enter _ _ hnew _ hvisit _ ih1 ih2 =>
    refine ih2 (List.nodup_cons.2 ⟨fun hmem => hnew ?_, ih1 hp⟩)
    exact hvisit.mem_of_mem_chain (by simp) hmem

/-- A file that is added is reached from where a directive leads. -/
theorem reached (h : VisitsAll loader fs chain directives p q) {key : Location}
    (hq : key ∈ q.included) :
    key ∈ p.included ∨ ∃ directive ∈ directives, ∃ dep,
      fs.locate (loader.resolve directive.path) = .ok dep ∧ loader.Reaches fs dep key := by
  induction h with
  | done => exact .inl hq
  | known _ _ _ _ _ ih =>
    rcases ih hq with hold | ⟨directive, hd, hreach⟩
    · exact .inl hold
    · exact .inr ⟨directive, List.mem_cons_of_mem _ hd, hreach⟩
  | @enter chain directive rest p below q key' source hkey _ _ hsource _ _ ih1 ih2 =>
    rcases ih2 hq with hmem | ⟨directive', hd, hreach⟩
    · rcases List.mem_cons.1 hmem with rfl | hmem
      · exact .inr ⟨directive, List.mem_cons_self, key, hkey, .refl⟩
      · rcases ih1 hmem with hold | ⟨directive', hd, dep, hdep, hreach⟩
        · exact .inl hold
        · have hload : loader.Loads fs key' dep := ⟨source, hsource, directive', hd, hdep⟩
          exact .inr ⟨directive, List.mem_cons_self, key', hkey, hreach.head hload⟩
    · exact .inr ⟨directive', List.mem_cons_of_mem _ hd, hreach⟩

end VisitsAll

/-- The search that loads one file, found under `path`, and all that it loads. -/
structure Visits (loader : Loader) (fs : FileSystem) (chain : List Location) (path : Path)
    (key : Location) (source : String) (p q : Progress) : Prop where
  locate : fs.locate path = .ok key
  textAt : fs.textAt key = .ok source
  run : ∃ below, VisitsAll loader fs (chain ++ [key]) (loadDirectives source) p below ∧
    q = below.emit key ⟨path, source⟩

theorem visits_iff {chain : List Location} {path : Path} {key : Location} {source : String}
    {p q : Progress} (hkey : fs.locate path = .ok key) (hsource : fs.textAt key = .ok source) :
    loader.visit fs chain path key source p = .ok q ↔
      Visits loader fs chain path key source p q := by
  unfold visit
  constructor
  · intro h
    split at h
    · simp at h
    · rename_i below hbelow
      obtain rfl : below.emit key ⟨path, source⟩ = q := by simpa using h
      exact ⟨hkey, hsource, below, visitAll_eq_ok_iff.1 hbelow, rfl⟩
  · rintro ⟨_, _, below, hbelow, rfl⟩
    rw [visitAll_eq_ok_iff.2 hbelow]

namespace Visits

variable {chain : List Location} {path : Path} {key : Location} {source : String}
  {p q : Progress}

theorem extension (h : Visits loader fs chain path key source p q) : p.Extends q := by
  obtain ⟨_, _, below, hbelow, rfl⟩ := h
  exact hbelow.extension.trans (Progress.extends_emit ..)

theorem mem_included (h : Visits loader fs chain path key source p q) : key ∈ q.included := by
  obtain ⟨_, _, below, _, rfl⟩ := h
  exact List.mem_cons_self

theorem assembled (h : Visits loader fs chain path key source p q)
    (hp : Assembled loader fs p) : Assembled loader fs q := by
  obtain ⟨hkey, hsource, below, hbelow, rfl⟩ := h
  obtain ⟨hassembled, htargets⟩ := hbelow.assembled hp
  exact hassembled.emit hkey hsource htargets

/-- All files but the last are still there once, and the last is if it was not there before. -/
theorem nodup_iff (h : Visits loader fs chain path key source p q) (hp : p.included.Nodup) :
    q.included.tail.Nodup ∧ (q.included.Nodup ↔ key ∉ p.included) := by
  obtain ⟨_, _, below, hbelow, rfl⟩ := h
  have hnodup := hbelow.nodup hp
  have hmem : key ∈ below.included ↔ key ∈ p.included :=
    ⟨hbelow.mem_of_mem_chain (by simp), fun hold => hbelow.extension.included hold⟩
  refine ⟨hnodup, ?_⟩
  simp [Progress.emit, hnodup, hmem]

theorem reached (h : Visits loader fs chain path key source p q) {other : Location}
    (hq : other ∈ q.included) : other ∈ p.included ∨ loader.Reaches fs key other := by
  obtain ⟨_, hsource, below, hbelow, rfl⟩ := h
  rcases List.mem_cons.1 hq with rfl | hmem
  · exact .inr .refl
  · rcases hbelow.reached hmem with hold | ⟨directive, hd, dep, hdep, hreach⟩
    · exact .inl hold
    · exact .inr (hreach.head ⟨source, hsource, directive, hd, hdep⟩)

end Visits

/-- The search that loads helper files one after the other, except the fixture and those already
loaded. -/
inductive VisitsIncludes (loader : Loader) (fs : FileSystem) (fixtureKey : Location) :
    List Path → Progress → Progress → Prop
  | done (p : Progress) : VisitsIncludes loader fs fixtureKey [] p p
  | known {path : Path} {rest : List Path} {p q : Progress} {key : Location} :
      fs.locate path = .ok key → key = fixtureKey ∨ key ∈ p.included →
      VisitsIncludes loader fs fixtureKey rest p q →
      VisitsIncludes loader fs fixtureKey (path :: rest) p q
  | enter {path : Path} {rest : List Path} {p middle q : Progress} {key : Location}
      {source : String} :
      key ≠ fixtureKey → key ∉ p.included → Visits loader fs [] path key source p middle →
      VisitsIncludes loader fs fixtureKey rest middle q →
      VisitsIncludes loader fs fixtureKey (path :: rest) p q

theorem visitIncludes_eq_ok_iff {fixtureKey : Location} {paths : List Path} {p q : Progress} :
    loader.visitIncludes fs fixtureKey paths p = .ok q ↔
      VisitsIncludes loader fs fixtureKey paths p q := by
  constructor
  · intro h
    induction paths generalizing p with
    | nil =>
      obtain rfl : p = q := by simpa [visitIncludes] using h
      exact .done p
    | cons path rest ih =>
      simp only [visitIncludes, bind, Except.bind] at h
      split at h
      · simp at h
      rename_i key hkey
      rw [locate_eq_ok] at hkey
      split at h
      · rename_i hknown
        exact .known hkey hknown (ih h)
      rename_i hnew
      obtain ⟨hne, hout⟩ := not_or.1 hnew
      split at h
      · simp at h
      rename_i source hsource
      rw [readAt_eq_ok] at hsource
      split at h
      · simp at h
      rename_i middle hmiddle
      exact .enter hne hout ((visits_iff hkey hsource).1 hmiddle) (ih h)
  · intro h
    induction h with
    | done => rfl
    | known hkey hknown _ ih =>
      simp only [visitIncludes, bind, Except.bind, locate_eq_ok.2 hkey, hknown, if_true]
      exact ih
    | enter hne hnew hvisit _ ih =>
      have hmiddle := (visits_iff hvisit.locate hvisit.textAt).2 hvisit
      simp only [visitIncludes, bind, Except.bind, locate_eq_ok.2 hvisit.locate, hne, hnew,
        or_self, if_false, readAt_eq_ok.2 hvisit.textAt, hmiddle]
      exact ih

namespace VisitsIncludes

variable {fixtureKey : Location} {paths : List Path} {p q : Progress}

theorem extension (h : VisitsIncludes loader fs fixtureKey paths p q) : p.Extends q := by
  induction h with
  | done p => exact Progress.Extends.refl p
  | known _ _ _ ih => exact ih
  | enter _ _ hvisit _ ih => exact hvisit.extension.trans ih

theorem assembled (h : VisitsIncludes loader fs fixtureKey paths p q)
    (hp : Assembled loader fs p) : Assembled loader fs q := by
  induction h with
  | done => exact hp
  | known _ _ _ ih => exact ih hp
  | enter _ _ hvisit _ ih => exact ih (hvisit.assembled hp)

theorem nodup (h : VisitsIncludes loader fs fixtureKey paths p q) (hp : p.included.Nodup) :
    q.included.Nodup := by
  induction h with
  | done => exact hp
  | known _ _ _ ih => exact ih hp
  | enter _ hnew hvisit _ ih => exact ih ((hvisit.nodup_iff hp).2.2 hnew)

/-- Each helper file is loaded unless it is the fixture. -/
theorem covers (h : VisitsIncludes loader fs fixtureKey paths p q) {path : Path}
    (hpath : path ∈ paths) :
    ∃ key, fs.locate path = .ok key ∧ (key = fixtureKey ∨ key ∈ q.included) := by
  induction h with
  | done => simp at hpath
  | @known path' rest p q key hkey hknown hrest ih =>
    rcases List.mem_cons.1 hpath with rfl | hpath
    · exact ⟨key, hkey, hknown.imp id fun hold => hrest.extension.included hold⟩
    · exact ih hpath
  | @enter path' rest p middle q key source _ _ hvisit hrest ih =>
    rcases List.mem_cons.1 hpath with rfl | hpath
    · exact ⟨key, hvisit.locate, .inr (hrest.extension.included hvisit.mem_included)⟩
    · exact ih hpath

/-- A file that is added is reached from a helper file other than the fixture. -/
theorem reached (h : VisitsIncludes loader fs fixtureKey paths p q) {other : Location}
    (hq : other ∈ q.included) :
    other ∈ p.included ∨ ∃ path ∈ paths, ∃ key, fs.locate path = .ok key ∧ key ≠ fixtureKey ∧
      loader.Reaches fs key other := by
  induction h with
  | done => exact .inl hq
  | known _ _ _ ih =>
    rcases ih hq with hold | ⟨path, hpath, hreach⟩
    · exact .inl hold
    · exact .inr ⟨path, List.mem_cons_of_mem _ hpath, hreach⟩
  | enter hne _ hvisit _ ih =>
    rcases ih hq with hmem | ⟨path, hpath, hreach⟩
    · rcases hvisit.reached hmem with hold | hreach
      · exact .inl hold
      · exact .inr ⟨_, List.mem_cons_self, _, hvisit.locate, hne, hreach⟩
    · exact .inr ⟨path, List.mem_cons_of_mem _ hpath, hreach⟩

theorem split {before after : List Path}
    (h : VisitsIncludes loader fs fixtureKey (before ++ after) p q) :
    ∃ middle, VisitsIncludes loader fs fixtureKey before p middle ∧
      VisitsIncludes loader fs fixtureKey after middle q := by
  induction before generalizing p with
  | nil => exact ⟨p, .done p, h⟩
  | cons path rest ih =>
    cases h with
    | known hkey hknown hrest =>
      obtain ⟨middle, h1, h2⟩ := ih hrest
      exact ⟨middle, .known hkey hknown h1, h2⟩
    | enter hne hnew hvisit hrest =>
      obtain ⟨middle, h1, h2⟩ := ih hrest
      exact ⟨middle, .enter hne hnew hvisit h1, h2⟩

end VisitsIncludes

/-- The helper files and then the fixture are loaded, from nothing loaded. -/
structure Assembles (loader : Loader) (fs : FileSystem) (path : Path) (key : Location)
    (source : String) (helped q : Progress) : Prop where
  helpers : VisitsIncludes loader fs key (loader.implicitIncludesFor fs path) .start helped
  fixture : Visits loader fs [] path key source helped q

namespace Assembles

variable {path : Path} {key : Location} {source : String} {helped q : Progress}

theorem assembled (h : Assembles loader fs path key source helped q) : Assembled loader fs q :=
  h.fixture.assembled (h.helpers.assembled .start)

/-- A file that is included before the fixture is reached from a helper file. -/
theorem reached (h : Assembles loader fs path key source helped q) {other : Location}
    (hmem : other ∈ helped.included) :
    ∃ start ∈ loader.implicitIncludesFor fs path, ∃ first, fs.locate start = .ok first ∧
      first ≠ key ∧ loader.Reaches fs first other := by
  rcases h.helpers.reached hmem with hnone | hreach
  · simp [Progress.start] at hnone
  · exact hreach

/-- The fixture and its helper files are included. -/
theorem covers (h : Assembles loader fs path key source helped q) {start : Path}
    (hstart : start ∈ path :: loader.implicitIncludesFor fs path) :
    ∃ k ∈ q.included, fs.locate start = .ok k := by
  rcases List.mem_cons.1 hstart with rfl | hstart
  · exact ⟨key, h.fixture.mem_included, h.fixture.locate⟩
  · obtain ⟨k, hk, hknown⟩ := h.helpers.covers hstart
    rcases hknown with rfl | hold
    · exact ⟨k, h.fixture.mem_included, hk⟩
    · exact ⟨k, h.fixture.extension.included hold, hk⟩

/-- The files that are included are those that the fixture needs. -/
theorem mem_included_iff (h : Assembles loader fs path key source helped q) {other : Location} :
    other ∈ q.included ↔ loader.Needs fs path other := by
  constructor
  · intro hmem
    rcases h.fixture.reached hmem with hhelped | hreach
    · obtain ⟨start, hs, first, hfirst, -, hreach⟩ := h.reached hhelped
      exact ⟨first, ⟨start, List.mem_cons_of_mem _ hs, hfirst⟩, hreach⟩
    · exact ⟨key, ⟨path, List.mem_cons_self, h.fixture.locate⟩, hreach⟩
  · rintro ⟨first, ⟨start, hs, hfirst⟩, hreach⟩
    obtain ⟨first', hmem, hfirst'⟩ := h.covers hs
    obtain rfl : first = first' := by simpa [hfirst] using hfirst'
    exact h.assembled.mem_of_reaches hmem hreach

end Assembles

theorem load_eq_ok_iff {path : Path} {script : LoadedScript} :
    loader.load fs path = .ok script ↔
      ∃ key source helped q, Assembles loader fs path key source helped q ∧
        script = .ofSegments q.segments := by
  simp only [load, readFixture, loadFixture, bind, Except.bind]
  constructor
  · intro h
    split at h
    · simp at h
    rename_i fixture hfixture
    split at hfixture
    · rename_i source hread
      obtain rfl : ⟨path, source⟩ = fixture := by simpa using hfixture
      obtain ⟨key, hkey, hsource⟩ := FileSystem.readText_eq_ok.1 hread
      simp only [locate_eq_ok.2 hkey] at h
      split at h
      · simp at h
      rename_i helped hhelped
      split at h
      · simp at h
      rename_i q hq
      obtain rfl : .ofSegments q.segments = script := by simpa [pure, Except.pure] using h
      exact ⟨key, source, helped, q, ⟨visitIncludes_eq_ok_iff.1 hhelped,
        (visits_iff hkey hsource).1 hq⟩, rfl⟩
    · simp at hfixture
  · rintro ⟨key, source, helped, q, ⟨hhelped, hvisit⟩, rfl⟩
    have hread := FileSystem.readText_eq_ok.2 ⟨key, hvisit.locate, hvisit.textAt⟩
    have hq := (visits_iff hvisit.locate hvisit.textAt).2 hvisit
    simp only [hread, locate_eq_ok.2 hvisit.locate, visitIncludes_eq_ok_iff.2 hhelped, hq, pure,
      Except.pure]

end Loader

end EngineTrials
