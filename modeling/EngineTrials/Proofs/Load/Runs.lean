import EngineTrials.Proofs.Load.Search

/-! Loading as a run, whether it succeeds or fails: every file that is entered, in order, and how
the run ends. The rules of a run follow the search without saying why it ends. That every search has
a run with the outcome that the search computes, and no run has another one, is proved here; how
long the runs are and how deep they nest is read off them. -/

namespace EngineTrials

/-- A file that is entered in a run. -/
structure Entered where
  /-- The files that are being loaded, from the outermost to the one that asks for the file. -/
  above : List Location
  key : Location
  deriving DecidableEq, Repr

namespace Loader

variable {loader : Loader} {fs : FileSystem}

/-- Following directives of `origin`, the last file of `chain`: what is entered on the way, and how
it ends. -/
inductive RunsAll (loader : Loader) (fs : FileSystem) :
    List Location → Path → List LoadDirective → Progress → List Entered →
      Except LoadFault Progress → Prop
  | done (chain : List Location) (origin : Path) (p : Progress) :
      RunsAll loader fs chain origin [] p [] (.ok p)
  | missing {chain : List Location} {origin : Path} {directive : LoadDirective}
      {rest : List LoadDirective} {p : Progress} :
      fs.isFile (loader.resolve directive.path) = false →
      RunsAll loader fs chain origin (directive :: rest) p []
        (.error (.missingDependency directive.path (loader.resolve directive.path) origin))
  | unlocated {chain : List Location} {origin : Path} {directive : LoadDirective}
      {rest : List LoadDirective} {p : Progress} {fault : LoadFault} :
      fs.isFile (loader.resolve directive.path) = true →
      locate fs (loader.resolve directive.path) = .error fault →
      RunsAll loader fs chain origin (directive :: rest) p [] (.error fault)
  | cyclic {chain : List Location} {origin : Path} {directive : LoadDirective}
      {rest : List LoadDirective} {p : Progress} {key : Location} :
      fs.isFile (loader.resolve directive.path) = true →
      locate fs (loader.resolve directive.path) = .ok key → key ∈ chain →
      RunsAll loader fs chain origin (directive :: rest) p []
        (.error (.cyclicLoad ((chain ++ [key]).map Location.toPath)))
  | known {chain : List Location} {origin : Path} {directive : LoadDirective}
      {rest : List LoadDirective} {p : Progress} {key : Location} {log : List Entered}
      {outcome : Except LoadFault Progress} :
      fs.isFile (loader.resolve directive.path) = true →
      locate fs (loader.resolve directive.path) = .ok key → key ∉ chain → key ∈ p.included →
      RunsAll loader fs chain origin rest p log outcome →
      RunsAll loader fs chain origin (directive :: rest) p log outcome
  | unreadable {chain : List Location} {origin : Path} {directive : LoadDirective}
      {rest : List LoadDirective} {p : Progress} {key : Location} {fault : FileFault} :
      fs.isFile (loader.resolve directive.path) = true →
      locate fs (loader.resolve directive.path) = .ok key → key ∉ chain → key ∉ p.included →
      fs.textAt key = .error fault →
      RunsAll loader fs chain origin (directive :: rest) p []
        (.error (.unreadable (loader.resolve directive.path) fault.message))
  | stops {chain : List Location} {origin : Path} {directive : LoadDirective}
      {rest : List LoadDirective} {p : Progress} {key : Location} {source : String}
      {log : List Entered} {fault : LoadFault} :
      fs.isFile (loader.resolve directive.path) = true →
      locate fs (loader.resolve directive.path) = .ok key → key ∉ chain → key ∉ p.included →
      fs.textAt key = .ok source →
      RunsAll loader fs (chain ++ [key]) (loader.resolve directive.path) (loadDirectives source) p
        log (.error fault) →
      RunsAll loader fs chain origin (directive :: rest) p (⟨chain, key⟩ :: log) (.error fault)
  | enter {chain : List Location} {origin : Path} {directive : LoadDirective}
      {rest : List LoadDirective} {p below : Progress} {key : Location} {source : String}
      {log later : List Entered} {outcome : Except LoadFault Progress} :
      fs.isFile (loader.resolve directive.path) = true →
      locate fs (loader.resolve directive.path) = .ok key → key ∉ chain → key ∉ p.included →
      fs.textAt key = .ok source →
      RunsAll loader fs (chain ++ [key]) (loader.resolve directive.path) (loadDirectives source) p
        log (.ok below) →
      RunsAll loader fs chain origin rest
        (below.emit key ⟨loader.resolve directive.path, source⟩) later outcome →
      RunsAll loader fs chain origin (directive :: rest) p (⟨chain, key⟩ :: (log ++ later)) outcome

theorem exists_runsAll (loader : Loader) (fs : FileSystem) (chain : List Location) (origin : Path)
    (directives : List LoadDirective) (p : Progress) :
    ∃ log, RunsAll loader fs chain origin directives p log
      (loader.visitAll fs chain origin directives p) := by
  fun_induction visitAll loader fs chain origin directives p with
  | case1 chain origin p => exact ⟨[], .done chain origin p⟩
  | case2 chain origin directive rest p resolved hmissing => exact ⟨[], .missing hmissing⟩
  | case3 chain origin directive rest p resolved hfile fault hfault =>
    exact ⟨[], .unlocated (by simpa using hfile) hfault⟩
  | case4 chain origin directive rest p resolved hfile key hkey hchain =>
    exact ⟨[], .cyclic (by simpa using hfile) hkey hchain⟩
  | case5 chain origin directive rest p resolved hfile key hkey hchain hknown ih =>
    obtain ⟨log, hlog⟩ := ih
    exact ⟨log, .known (by simpa using hfile) hkey hchain hknown hlog⟩
  | case6 chain origin directive rest p resolved hfile key hkey hchain hnew fault hfault =>
    exact ⟨[], .unreadable (by simpa using hfile) hkey hchain hnew hfault⟩
  | case7 chain origin directive rest p resolved hfile key hkey hchain hnew source hsource fault
      hfault ih =>
    obtain ⟨log, hlog⟩ := ih
    rw [hfault] at hlog
    exact ⟨_, .stops (by simpa using hfile) hkey hchain hnew hsource hlog⟩
  | case8 chain origin directive rest p resolved hfile key hkey hchain hnew source hsource below
      hbelow ih1 ih2 =>
    obtain ⟨log, hlog⟩ := ih1
    obtain ⟨later, hlater⟩ := ih2
    rw [hbelow] at hlog
    exact ⟨_, .enter (by simpa using hfile) hkey hchain hnew hsource hlog hlater⟩

/-- What the search makes of a directive that leads to a new file with a text. -/
theorem visitAll_of_new {chain : List Location} {origin : Path} {directive : LoadDirective}
    {rest : List LoadDirective} {p : Progress} {key : Location} {source : String}
    (hfile : fs.isFile (loader.resolve directive.path) = true)
    (hkey : locate fs (loader.resolve directive.path) = .ok key) (hchain : key ∉ chain)
    (hnew : key ∉ p.included) (hsource : fs.textAt key = .ok source) :
    loader.visitAll fs chain origin (directive :: rest) p =
      match loader.visitAll fs (chain ++ [key]) (loader.resolve directive.path)
        (loadDirectives source) p with
      | .error fault => .error fault
      | .ok below => loader.visitAll fs chain origin rest
          (below.emit key ⟨loader.resolve directive.path, source⟩) := by
  rw [visitAll]
  simp only [hfile, hkey, hchain, hnew, Bool.true_eq_false, if_false, dite_false]
  split
  · rename_i fault hfault
    simp [hsource] at hfault
  · rename_i text htext
    obtain rfl : source = text := by simpa [hsource] using htext
    rfl

/-- A run ends as the search says. -/
theorem RunsAll.outcome_eq {chain : List Location} {origin : Path}
    {directives : List LoadDirective} {p : Progress} {log : List Entered}
    {outcome : Except LoadFault Progress}
    (h : RunsAll loader fs chain origin directives p log outcome) :
    outcome = loader.visitAll fs chain origin directives p := by
  induction h with
  | done => rw [visitAll]
  | missing hmissing => rw [visitAll, if_pos hmissing]
  | unlocated hfile hfault =>
    rw [visitAll]
    simp only [hfile, hfault, Bool.true_eq_false, if_false]
  | cyclic hfile hkey hchain =>
    rw [visitAll]
    simp only [hfile, hkey, hchain, Bool.true_eq_false, if_false, dite_true]
  | known hfile hkey hchain hknown _ ih =>
    rw [visitAll, ih]
    simp only [hfile, hkey, hchain, hknown, Bool.true_eq_false, if_false, dite_false, if_true]
  | unreadable hfile hkey hchain hnew hfault =>
    rw [visitAll]
    simp only [hfile, hkey, hchain, hnew, Bool.true_eq_false, if_false, dite_false]
    split
    · rename_i fault hother
      obtain rfl := Except.error.inj (hfault.symm.trans hother)
      rfl
    · rename_i source hsource
      simp [hsource] at hfault
  | stops hfile hkey hchain hnew hsource _ ih =>
    rw [visitAll_of_new hfile hkey hchain hnew hsource, ← ih]
  | enter hfile hkey hchain hnew hsource _ _ ih1 ih2 =>
    rw [visitAll_of_new hfile hkey hchain hnew hsource, ← ih1]
    exact ih2

/-- Entering one file, found under `path`: what it asks for, and then the file. -/
structure Runs (loader : Loader) (fs : FileSystem) (chain : List Location) (path : Path)
    (key : Location) (source : String) (p : Progress) (log : List Entered)
    (outcome : Except LoadFault Progress) : Prop where
  run : ∃ below result, log = ⟨chain, key⟩ :: below ∧
    outcome = result.map (·.emit key ⟨path, source⟩) ∧
    RunsAll loader fs (chain ++ [key]) path (loadDirectives source) p below result

theorem visit_eq_map (loader : Loader) (fs : FileSystem) (chain : List Location) (path : Path)
    (key : Location) (source : String) (p : Progress) :
    loader.visit fs chain path key source p =
      (loader.visitAll fs (chain ++ [key]) path (loadDirectives source) p).map
        (·.emit key ⟨path, source⟩) := by
  unfold visit
  cases loader.visitAll fs (chain ++ [key]) path (loadDirectives source) p <;> rfl

theorem exists_runs (loader : Loader) (fs : FileSystem) (chain : List Location) (path : Path)
    (key : Location) (source : String) (p : Progress) :
    ∃ log, Runs loader fs chain path key source p log
      (loader.visit fs chain path key source p) := by
  obtain ⟨below, hbelow⟩ :=
    exists_runsAll loader fs (chain ++ [key]) path (loadDirectives source) p
  exact ⟨_, below, _, rfl, visit_eq_map .., hbelow⟩

theorem Runs.outcome_eq {chain : List Location} {path : Path} {key : Location} {source : String}
    {p : Progress} {log : List Entered} {outcome : Except LoadFault Progress}
    (h : Runs loader fs chain path key source p log outcome) :
    outcome = loader.visit fs chain path key source p := by
  obtain ⟨below, result, -, rfl, hbelow⟩ := h
  rw [visit_eq_map, ← hbelow.outcome_eq]

/-- Loading helper files one after the other, except the fixture and those already loaded. -/
inductive RunsIncludes (loader : Loader) (fs : FileSystem) (fixtureKey : Location) :
    List Path → Progress → List Entered → Except LoadFault Progress → Prop
  | done (p : Progress) : RunsIncludes loader fs fixtureKey [] p [] (.ok p)
  | unlocated {path : Path} {rest : List Path} {p : Progress} {fault : LoadFault} :
      locate fs path = .error fault →
      RunsIncludes loader fs fixtureKey (path :: rest) p [] (.error fault)
  | known {path : Path} {rest : List Path} {p : Progress} {key : Location} {log : List Entered}
      {outcome : Except LoadFault Progress} :
      locate fs path = .ok key → key = fixtureKey ∨ key ∈ p.included →
      RunsIncludes loader fs fixtureKey rest p log outcome →
      RunsIncludes loader fs fixtureKey (path :: rest) p log outcome
  | unreadable {path : Path} {rest : List Path} {p : Progress} {key : Location}
      {fault : LoadFault} :
      locate fs path = .ok key → ¬ (key = fixtureKey ∨ key ∈ p.included) →
      readAt fs path key = .error fault →
      RunsIncludes loader fs fixtureKey (path :: rest) p [] (.error fault)
  | stops {path : Path} {rest : List Path} {p : Progress} {key : Location} {source : String}
      {log : List Entered} {fault : LoadFault} :
      locate fs path = .ok key → ¬ (key = fixtureKey ∨ key ∈ p.included) →
      readAt fs path key = .ok source → Runs loader fs [] path key source p log (.error fault) →
      RunsIncludes loader fs fixtureKey (path :: rest) p log (.error fault)
  | enter {path : Path} {rest : List Path} {p middle : Progress} {key : Location}
      {source : String} {log later : List Entered} {outcome : Except LoadFault Progress} :
      locate fs path = .ok key → ¬ (key = fixtureKey ∨ key ∈ p.included) →
      readAt fs path key = .ok source → Runs loader fs [] path key source p log (.ok middle) →
      RunsIncludes loader fs fixtureKey rest middle later outcome →
      RunsIncludes loader fs fixtureKey (path :: rest) p (log ++ later) outcome

theorem exists_runsIncludes (loader : Loader) (fs : FileSystem) (fixtureKey : Location)
    (paths : List Path) (p : Progress) :
    ∃ log, RunsIncludes loader fs fixtureKey paths p log
      (loader.visitIncludes fs fixtureKey paths p) := by
  induction paths generalizing p with
  | nil => exact ⟨[], .done p⟩
  | cons path rest ih =>
    simp only [visitIncludes, bind, Except.bind]
    cases hkey : locate fs path with
    | error fault => exact ⟨[], .unlocated hkey⟩
    | ok key =>
      by_cases hknown : key = fixtureKey ∨ key ∈ p.included
      · obtain ⟨log, hlog⟩ := ih p
        exact ⟨log, by simpa only [hknown, if_true] using .known hkey hknown hlog⟩
      · simp only [hknown, if_false]
        cases hsource : readAt fs path key with
        | error fault => exact ⟨[], .unreadable hkey hknown hsource⟩
        | ok source =>
          dsimp only
          obtain ⟨log, hlog⟩ := exists_runs loader fs [] path key source p
          cases hvisit : loader.visit fs [] path key source p with
          | error fault => exact ⟨log, .stops hkey hknown hsource (hvisit ▸ hlog)⟩
          | ok middle =>
            obtain ⟨later, hlater⟩ := ih middle
            exact ⟨log ++ later, .enter hkey hknown hsource (hvisit ▸ hlog) hlater⟩

theorem RunsIncludes.outcome_eq {fixtureKey : Location} {paths : List Path} {p : Progress}
    {log : List Entered} {outcome : Except LoadFault Progress}
    (h : RunsIncludes loader fs fixtureKey paths p log outcome) :
    outcome = loader.visitIncludes fs fixtureKey paths p := by
  induction h with
  | done => rfl
  | unlocated hfault => simp only [visitIncludes, bind, Except.bind, hfault]
  | known hkey hknown _ ih =>
    simp only [visitIncludes, bind, Except.bind, hkey, hknown, if_true, ih]
  | unreadable hkey hnew hfault =>
    simp only [visitIncludes, bind, Except.bind, hkey, hnew, if_false, hfault]
  | stops hkey hnew hsource hrun =>
    simp only [visitIncludes, bind, Except.bind, hkey, hnew, if_false, hsource, ← hrun.outcome_eq]
  | enter hkey hnew hsource hrun _ ih =>
    simp only [visitIncludes, bind, Except.bind, hkey, hnew, if_false, hsource, ← hrun.outcome_eq,
      ih]

/-- Loading a fixture: its helper files, and then the fixture. -/
inductive RunsLoad (loader : Loader) (fs : FileSystem) (path : Path) :
    List Entered → Except LoadFault LoadedScript → Prop
  | unreadable {fault : FileFault} : fs.readText path = .error fault →
      RunsLoad loader fs path [] (.error (.unreadable path fault.message))
  | unlocated {source : String} {fault : LoadFault} : fs.readText path = .ok source →
      locate fs path = .error fault → RunsLoad loader fs path [] (.error fault)
  | stops {source : String} {key : Location} {log : List Entered} {fault : LoadFault} :
      fs.readText path = .ok source → locate fs path = .ok key →
      RunsIncludes loader fs key (loader.implicitIncludesFor fs path) .start log (.error fault) →
      RunsLoad loader fs path log (.error fault)
  | enter {source : String} {key : Location} {log later : List Entered} {helped : Progress}
      {outcome : Except LoadFault Progress} :
      fs.readText path = .ok source → locate fs path = .ok key →
      RunsIncludes loader fs key (loader.implicitIncludesFor fs path) .start log (.ok helped) →
      Runs loader fs [] path key source helped later outcome →
      RunsLoad loader fs path (log ++ later) (outcome.map fun q => .ofSegments q.segments)

theorem exists_runsLoad (loader : Loader) (fs : FileSystem) (path : Path) :
    ∃ log, RunsLoad loader fs path log (loader.load fs path) := by
  simp only [load, readFixture, loadFixture, bind, Except.bind]
  cases hfixture : fs.readText path with
  | error fault => exact ⟨[], .unreadable hfixture⟩
  | ok source =>
    dsimp only
    cases hkey : locate fs path with
    | error fault => exact ⟨[], .unlocated hfixture hkey⟩
    | ok key =>
      dsimp only
      obtain ⟨log, hlog⟩ :=
        exists_runsIncludes loader fs key (loader.implicitIncludesFor fs path) .start
      cases hhelped :
        loader.visitIncludes fs key (loader.implicitIncludesFor fs path) .start with
      | error fault => exact ⟨log, .stops hfixture hkey (hhelped ▸ hlog)⟩
      | ok helped =>
        obtain ⟨later, hlater⟩ := exists_runs loader fs [] path key source helped
        have hrun := RunsLoad.enter hfixture hkey (hhelped ▸ hlog) hlater
        dsimp only
        cases hvisit : loader.visit fs [] path key source helped with
        | error fault => exact ⟨_, hvisit ▸ hrun⟩
        | ok q => exact ⟨_, hvisit ▸ hrun⟩

theorem RunsLoad.outcome_eq {path : Path} {log : List Entered}
    {outcome : Except LoadFault LoadedScript} (h : RunsLoad loader fs path log outcome) :
    outcome = loader.load fs path := by
  cases h with
  | unreadable hfault => simp only [load, readFixture, bind, Except.bind, hfault]
  | unlocated hfixture hfault =>
    simp only [load, readFixture, loadFixture, bind, Except.bind, hfixture, hfault]
  | stops hfixture hkey hhelpers =>
    simp only [load, readFixture, loadFixture, bind, Except.bind, hfixture, hkey,
      ← hhelpers.outcome_eq]
  | enter hfixture hkey hhelpers hrun =>
    simp only [load, readFixture, loadFixture, bind, Except.bind, hfixture, hkey,
      ← hhelpers.outcome_eq, ← hrun.outcome_eq]
    rfl

end Loader

end EngineTrials
