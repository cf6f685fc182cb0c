import EngineTrials.CommandLine.FixtureRunner
import EngineTrials.Proofs.Except
import EngineTrials.Proofs.Report.Summaries
import EngineTrials.Proofs.Run.Discovery
import EngineTrials.Proofs.Run.Trial
import Mathlib.Algebra.GroupWithZero.Nat

/-! What the tool that runs fixtures leaves behind. `Prepared` lists all that has to be there and
good before the first fixture is run; if any of it is not, nothing is run. Otherwise every path is
run, and the exit code and the report are those of all runs taken together. -/

namespace EngineTrials

/-- A run can honour the settings. -/
structure Settings.Usable (s : Settings) : Prop where
  time : s.timeoutMillis ≠ 0
  jobs : s.jobs ≠ 0
  extensions : s.extensions ≠ []
  program : Text.trimmed s.engine.program ≠ ""

theorem Settings.validate_eq_ok_iff {s : Settings} : s.validate = .ok () ↔ s.Usable := by
  have hvalidate : s.validate = .ok () ↔ s.firstInvalid? = none := by
    unfold validate
    cases s.firstInvalid? with
    | none => simp
    | some setting => simp
  rw [hvalidate, firstInvalid?]
  constructor
  · intro h
    split_ifs at h with htime hjobs hextensions hprogram
    exact ⟨htime, hjobs, hextensions, by simpa using hprogram⟩
  · intro h
    rw [if_neg h.time, if_neg h.jobs, if_neg h.extensions, if_neg (by simpa using h.program)]

theorem Glob.ofText_eq_ok_iff {text : String} {g : Glob} :
    Glob.ofText text = .ok g ↔ Glob.ofText? text = some g := by
  unfold Glob.ofText
  cases Glob.ofText? text with
  | none => simp
  | some glob => simp

theorem Glob.mapM_ofText_eq_ok_iff {texts : List String} {globs : List Glob} :
    texts.mapM Glob.ofText = .ok globs ↔ texts.map Glob.ofText? = globs.map some := by
  rw [mapM_eq_ok_iff, ← List.forall₂_eq_eq_eq, List.forall₂_map_left_iff,
    List.forall₂_map_right_iff]
  simp only [Glob.ofText_eq_ok_iff]

namespace Runner

variable {fs : FileSystem} {settings : Settings} {r : Runner}

/-- The glob that a text spells, if there is a text. -/
def optionalGlob : Option String → Except SettingsFault (Option Glob)
  | some text => some <$> Glob.ofText text
  | none => .ok none

/-- The skip list in a file, if there is a file. -/
def optionalSkipList (fs : FileSystem) : Option Path → Except SettingsFault SkipList
  | some path => SkipList.ofFile fs path
  | none => .ok .empty

theorem ofSettings_eq (fs : FileSystem) (settings : Settings) :
    ofSettings fs settings =
      settings.validate >>= fun _ => optionalGlob settings.filter >>= fun filter =>
        settings.exclude.mapM Glob.ofText >>= fun exclude =>
          optionalSkipList fs settings.skipList >>= fun skipList =>
            .ok ⟨settings, filter, exclude, skipList⟩ := by
  unfold ofSettings
  cases settings.filter <;> cases settings.skipList <;> rfl

theorem optionalGlob_eq_ok_iff {text : Option String} {filter : Option Glob} :
    optionalGlob text = .ok filter ↔ text.map Glob.ofText? = filter.map some := by
  cases text with
  | none => cases filter <;> simp [optionalGlob]
  | some text =>
    have hmap : optionalGlob (some text) = .ok filter ↔
        ∃ g, Glob.ofText text = .ok g ∧ some g = filter := by
      rw [optionalGlob]
      cases Glob.ofText text with
      | error fault => simp [Functor.map, Except.map]
      | ok g => simp [Functor.map, Except.map]
    rw [hmap]
    simp only [Glob.ofText_eq_ok_iff]
    cases filter <;> simp

/-- The skip list that a run takes: the one in the file, which has to spell one, or else none. -/
def TakesSkipList (fs : FileSystem) (list : SkipList) : Option Path → Prop
  | some path => ∃ text, fs.readText path = .ok text ∧ SkipList.parse? text = some list
  | none => list = .empty

theorem optionalSkipList_eq_ok_iff {path : Option Path} {list : SkipList} :
    optionalSkipList fs path = .ok list ↔ TakesSkipList fs list path := by
  cases path with
  | none => simp [optionalSkipList, TakesSkipList, eq_comm]
  | some path =>
    rw [optionalSkipList, SkipList.ofFile, TakesSkipList]
    cases fs.readText path with
    | error fault => simp
    | ok text => cases hparse : SkipList.parse? text <;> simp [hparse]

/-- The runner is made from settings that a run can honour, and from the globs and the skip list
that they spell and name. -/
structure MadeFrom (r : Runner) (fs : FileSystem) (settings : Settings) : Prop where
  settings_eq : r.settings = settings
  usable : settings.Usable
  filter : settings.filter.map Glob.ofText? = r.filter.map some
  exclude : settings.exclude.map Glob.ofText? = r.exclude.map some
  skipList : TakesSkipList fs r.skipList settings.skipList

theorem ofSettings_eq_ok_iff : ofSettings fs settings = .ok r ↔ r.MadeFrom fs settings := by
  simp only [ofSettings_eq, bind_eq_ok_iff, optionalGlob_eq_ok_iff, Glob.mapM_ofText_eq_ok_iff,
    optionalSkipList_eq_ok_iff, Except.ok.injEq]
  constructor
  · rintro ⟨_, husable, filter, hfilter, exclude, hexclude, skipList, hskip, rfl⟩
    exact ⟨rfl, Settings.validate_eq_ok_iff.1 husable, hfilter, hexclude, hskip⟩
  · intro h
    refine ⟨(), Settings.validate_eq_ok_iff.2 h.usable, r.filter, h.filter, r.exclude, h.exclude,
      r.skipList, h.skipList, ?_⟩
    rw [← h.settings_eq]

end Runner

namespace FixtureRunner

variable {s : Surroundings} {fs : FileSystem} {a : Arguments} {r : Runner}

/-- The settings that a command line starts from: those in the file that it names, which has to
spell settings, or else the defaults. -/
def StartsFrom (fs : FileSystem) (a : Arguments) (base : Settings) : Prop :=
  match a.value? "config" with
  | some path => ∃ text, fs.readText ⟨path⟩ = .ok text ∧ Settings.ofYaml? text = some base
  | none => base = {}

theorem baseSettings_eq_ok_iff {base : Settings} :
    baseSettings fs a = .ok base ↔ StartsFrom fs a base := by
  unfold baseSettings StartsFrom
  cases a.value? "config" with
  | none => simp [eq_comm]
  | some path =>
    dsimp only
    rw [Settings.ofFile]
    cases fs.readText ⟨path⟩ with
    | error fault => simp
    | ok text => cases hsettings : Settings.ofYaml? text <;> simp [hsettings]

/-- All that a command line asks for is there and good, and `r` is the runner for it. -/
structure Prepared (fs : FileSystem) (a : Arguments) (r : Runner) : Prop where
  settings : ∃ base, StartsFrom fs a base ∧ r.MadeFrom fs (override base a)
  paths : ∀ path ∈ a.paths, ∃ place, fs.locate ⟨path⟩ = .ok place

theorem firstMissing?_eq_none_iff {paths : List String} :
    firstMissing? fs paths = none ↔ ∀ path ∈ paths, ∃ place, fs.locate ⟨path⟩ = .ok place := by
  simp only [firstMissing?, List.find?_eq_none, Bool.not_eq_true', Bool.not_eq_false,
    FileSystem.hasPath]
  refine forall₂_congr fun path _ => ?_
  cases fs.locate ⟨path⟩ <;> simp [Except.isOk, Except.toBool]

theorem ready_eq_ok_iff : ready fs a = .ok r ↔ Prepared fs a r := by
  have hrunner : runner fs a = .ok r ↔
      ∃ base, StartsFrom fs a base ∧ r.MadeFrom fs (override base a) := by
    simp only [runner, bind_eq_ok_iff, baseSettings_eq_ok_iff, Runner.ofSettings_eq_ok_iff]
  have hready : ready fs a = .ok r ↔ runner fs a = .ok r ∧ firstMissing? fs a.paths = none := by
    unfold ready
    cases runner fs a with
    | error fault => simp
    | ok made => cases firstMissing? fs a.paths <;> simp
  rw [hready, hrunner, firstMissing?_eq_none_iff]
  exact ⟨fun ⟨hsettings, hpaths⟩ => ⟨hsettings, hpaths⟩, fun h => ⟨h.settings, h.paths⟩⟩

def runOf (s : Surroundings) (r : Runner) (path : String) : RunRecord :=
  r.run s.files (s.engine r.settings.engine) ⟨path⟩

/-- The run of a path has a trial for each fixture found there, in the order in which they are found,
and asks the engine for what these trials ask for. -/
structure RunsFound (s : Surroundings) (r : Runner) (path : String) (run : RunRecord) : Prop where
  trials : run.trials = (r.discover s.files ⟨path⟩).map
    (r.runFixture s.files (s.engine r.settings.engine))
  entries : run.report.entries = run.trials.map Trial.entry
  executions : run.executions.Perm (run.trials.flatMap Trial.executions)

theorem runsFound_runOf (s : Surroundings) (r : Runner) (path : String) :
    RunsFound s r path (runOf s r path) where
  trials := r.trials_runAll s.files (s.engine r.settings.engine) (r.discover s.files ⟨path⟩)
  entries := rfl
  executions :=
    r.executions_runAll_perm s.files (s.engine r.settings.engine) (r.discover s.files ⟨path⟩)

/-- The report of the runs of all paths, and its text. -/
structure ReportsRuns (s : Surroundings) (a : Arguments) (r : Runner) (report : Report)
    (rendered : String) : Prop where
  runs : ∀ path ∈ a.paths, RunsFound s r path (runOf s r path)
  /-- The entries of the runs, in the order of the paths. -/
  entries : report.entries = a.paths.flatMap fun path => (runOf s r path).report.entries
  tallied : report.Tallied
  total : report.counts.total = (a.paths.map fun path => (runOf s r path).report.counts.total).sum
  /-- The reports of the runs, merged one after the other, come to the same. -/
  merged : report.entries.length ≤ Json.maxCount →
    (a.paths.map fun path => (runOf s r path).report).foldlM Report.merge? .empty = some report
  rendered : report.render? (format a) = some rendered

def contentOf (rendered : String) : List UInt8 := Text.Utf8.encode rendered.toList

/-- What the tool leaves behind when it has handed over the report of all runs. -/
structure HandsOver (s : Surroundings) (a : Arguments) (r : Runner) (rendered : String)
    (result : CommandResult) : Prop where
  exit_eq_zero_iff : result.exitCode = 0 ↔ ∀ path ∈ a.paths, ∀ e ∈ (runOf s r path).report.entries,
    e.verdict = .passed ∨ ∃ reason, e.verdict = .skipped reason
  exit_eq : result.exitCode = 0 ∨ result.exitCode = 1
  executions : result.executions = a.paths.flatMap fun path => (runOf s r path).executions
  printed : a.value? "output" = none →
    result.stdout = printed s rendered (format a) ∧ result.files = s.files
  written : ∀ path, a.value? "output" = some path →
    result.written = some (⟨path⟩, contentOf rendered) ∧
      s.files.write ⟨path⟩ (contentOf rendered) = .ok result.files

theorem isProblem_eq_false_iff (v : Verdict) :
    v.isProblem = false ↔ v = .passed ∨ ∃ reason, v = .skipped reason := by
  cases v <;> simp [Verdict.isProblem, Verdict.isPass, Verdict.isSkip]

def reportOf (s : Surroundings) (r : Runner) (paths : List String) : Report :=
  .combine (paths.map fun path => (runOf s r path).report)

theorem entries_reportOf (s : Surroundings) (r : Runner) (paths : List String) :
    (reportOf s r paths).entries = paths.flatMap fun path => (runOf s r path).report.entries :=
  List.flatMap_map ..

theorem exists_reportsRuns (s : Surroundings) (a : Arguments) (r : Runner) :
    ∃ rendered, ReportsRuns s a r (reportOf s r a.paths) rendered := by
  have htallied : (reportOf s r a.paths).Tallied := Report.tallied_ofEntries _
  have hentries := entries_reportOf s r a.paths
  have hsums : (reportOf s r a.paths).SumsUp := by
    rw [Report.sumsUp_iff, htallied.total, htallied.skipped]
    exact List.countP_le_length
  obtain ⟨rendered, hrendered⟩ := Option.isSome_iff_exists.1 (hsums.render (format a))
  refine ⟨rendered, fun path _ => runsFound_runOf s r path, hentries, htallied, ?_,
    fun hlength => ?_, hrendered⟩
  · rw [htallied.total, hentries, List.length_flatMap]
    refine congrArg List.sum (List.map_congr_left fun path _ => ?_)
    exact (Report.tallied_ofEntries _).total.symm
  · rw [hentries] at hlength
    exact Report.foldlM_merge? (by rwa [List.flatMap_map])

theorem isSuccess_reportOf_iff (s : Surroundings) (r : Runner) (paths : List String) :
    (reportOf s r paths).isSuccess = true ↔
      ∀ path ∈ paths, ∀ e ∈ (runOf s r path).report.entries,
        e.verdict = .passed ∨ ∃ reason, e.verdict = .skipped reason := by
  have htallied : (reportOf s r paths).Tallied := Report.tallied_ofEntries _
  rw [htallied.isSuccess_iff, Report.problems, List.filter_eq_nil_iff, entries_reportOf]
  simp only [List.forall_mem_flatMap, Bool.not_eq_true, isProblem_eq_false_iff]

theorem exitCode_spec (success : Bool) :
    ((if success = true then 0 else 1) = 0 ↔ success = true) ∧
      ((if success = true then 0 else 1) = 0 ∨ (if success = true then 0 else 1) = 1) := by
  cases success <;> simp

theorem report_runs (s : Surroundings) (r : Runner) (paths : List String) :
    Report.combine ((runs s r paths).map RunRecord.report) = reportOf s r paths := by
  rw [runs, List.map_map]
  rfl

theorem executions_runs (s : Surroundings) (r : Runner) (paths : List String) :
    (runs s r paths).flatMap RunRecord.executions =
      paths.flatMap fun path => (runOf s r path).executions :=
  List.flatMap_map ..

theorem handsOver_runFixtures {rendered : String} (hready : ready s.files a = .ok r)
    (hrendered : (reportOf s r a.paths).render? (format a) = some rendered)
    (hwrite : ∀ path, a.value? "output" = some path →
      ∃ files, s.files.write ⟨path⟩ (contentOf rendered) = .ok files) :
    HandsOver s a r rendered (runFixtures s a) := by
  obtain ⟨hzero, hexit⟩ := exitCode_spec (reportOf s r a.paths).isSuccess
  have hsuccess := hzero.trans (isSuccess_reportOf_iff s r a.paths)
  cases houtput : a.value? "output" with
  | none =>
    simp only [runFixtures, hready, report_runs, executions_runs, hrendered, Option.getD_some,
      houtput]
    exact ⟨hsuccess, hexit, rfl, fun _ => ⟨rfl, rfl⟩, fun path hpath => by simp [houtput] at hpath⟩
  | some path =>
    obtain ⟨files, hfiles⟩ := hwrite path houtput
    rw [contentOf] at hfiles
    simp only [runFixtures, hready, report_runs, executions_runs, hrendered, Option.getD_some,
      houtput, hfiles]
    refine ⟨hsuccess, hexit, rfl, fun hnone => by simp [houtput] at hnone, fun other hother => ?_⟩
    obtain rfl : path = other := Option.some.inj (houtput.symm.trans hother)
    exact ⟨rfl, hfiles⟩

/-- Nothing is run, and the exit code is 2, unless all that the command line asks for is there and
good. Otherwise the report is that of all runs in the order of the paths, and if it can be handed
over, the exit code is 0 exactly if every fixture has passed or was skipped, and 1 if not. -/
theorem execute_run (s : Surroundings) {arguments : List String}
    (h : Request.ofArguments arguments = .ok (.run a)) :
    ((∀ r, ¬ Prepared s.files a r) → (execute s arguments).exitCode = 2 ∧
        (execute s arguments).executions = [] ∧ (execute s arguments).written = none ∧
          (execute s arguments).files = s.files) ∧
      ∀ r, Prepared s.files a r → ∃ report rendered, ReportsRuns s a r report rendered ∧
        ((∀ path, a.value? "output" = some path →
            ∃ files, s.files.write ⟨path⟩ (contentOf rendered) = .ok files) →
          HandsOver s a r rendered (execute s arguments)) := by
  have hexecute : execute s arguments = runFixtures s a := by simp only [execute, h]
  rw [hexecute]
  constructor
  · intro hnone
    cases hready : ready s.files a with
    | ok r => exact absurd (ready_eq_ok_iff.1 hready) (hnone r)
    | error message =>
      simp only [runFixtures, hready]
      exact ⟨rfl, rfl, rfl, rfl⟩
  · intro r hprepared
    obtain ⟨rendered, hreports⟩ := exists_reportsRuns s a r
    refine ⟨_, rendered, hreports, fun hwrite => ?_⟩
    exact handsOver_runFixtures (ready_eq_ok_iff.2 hprepared) hreports.rendered hwrite

/-! Two fixtures that pass and one that throws, in a folder with one of the others. -/

def innerFolder : List (String × Entry) := [("d.js", .ofText "boom"), ("c.js", .ofText "2;")]

def twoPathsFiles : FileSystem := ⟨[("a.js", .ofText "1;"), ("b", .folder innerFolder)], ⟨[]⟩⟩

def boom : Exception := ⟨"Error", "boom", none, none⟩

def twoPaths : Surroundings where
  files := twoPathsFiles
  engine := fun settings =>
    .scripted settings.program [] [("boom", .outcome ⟨.threw boom, {}⟩)]

def plainRunner : Runner := ⟨{}, none, [], .empty⟩

def trialOf (found : Found) (source : String) (verdict : Verdict) : Trial :=
  ⟨found.entry 0 verdict [], [plainRunner.execution (.ofSegments [⟨found.path, source⟩])]⟩

/-- The trials of `a.js`, of `b/c.js` and of `b/d.js`. -/
def trialA : Trial := trialOf ⟨⟨"a.js"⟩, ⟨"a.js"⟩⟩ "1;" .passed

def trialC : Trial := trialOf ⟨⟨"c.js"⟩, ⟨"b/c.js"⟩⟩ "2;" .passed

def trialD : Trial := trialOf ⟨⟨"d.js"⟩, ⟨"b/d.js"⟩⟩ "boom" (.errored (.uncaught boom))

theorem trials_runOf_a : (runOf twoPaths plainRunner "a.js").trials = [trialA] := by
  have hdiscover : plainRunner.discover twoPaths.files ⟨"a.js"⟩ = [⟨⟨"a.js"⟩, ⟨"a.js"⟩⟩] := by rfl
  have hsource : twoPathsFiles.textAt ⟨["a.js"]⟩ = .ok "1;" := by decide +kernel
  rw [(runsFound_runOf twoPaths plainRunner "a.js").trials, hdiscover, List.map_singleton]
  refine congrArg (fun t => [t]) ((Runner.runFixture_of_alone rfl (by rfl) hsource
    (by decide +kernel) (by decide) (by decide +kernel)).trans ?_)
  decide +kernel

theorem runFixture_c : plainRunner.runFixture twoPaths.files (twoPaths.engine {})
    ⟨⟨"c.js"⟩, ⟨"b/c.js"⟩⟩ = trialC := by
  have hsource : twoPathsFiles.textAt ⟨["b", "c.js"]⟩ = .ok "2;" := by decide +kernel
  refine (Runner.runFixture_of_alone rfl (by rfl) hsource (by decide +kernel) (by decide)
    (by decide +kernel)).trans ?_
  decide +kernel

theorem runFixture_d : plainRunner.runFixture twoPaths.files (twoPaths.engine {})
    ⟨⟨"d.js"⟩, ⟨"b/d.js"⟩⟩ = trialD := by
  have hsource : twoPathsFiles.textAt ⟨["b", "d.js"]⟩ = .ok "boom" := by decide +kernel
  refine (Runner.runFixture_of_alone rfl (by rfl) hsource (by decide +kernel) (by decide)
    (by decide +kernel)).trans ?_
  decide +kernel

theorem trials_runOf_c : (runOf twoPaths plainRunner "b/c.js").trials = [trialC] := by
  have hdiscover : plainRunner.discover twoPaths.files ⟨"b/c.js"⟩ =
      [⟨⟨"c.js"⟩, ⟨"b/c.js"⟩⟩] := by rfl
  rw [(runsFound_runOf twoPaths plainRunner "b/c.js").trials, hdiscover, List.map_singleton]
  exact congrArg (fun t => [t]) runFixture_c

theorem trials_runOf_b : (runOf twoPaths plainRunner "b").trials = [trialC, trialD] := by
  have hplace : twoPathsFiles.locate ⟨"b"⟩ = .ok ⟨["b"]⟩ := by rfl
  have hfolder : twoPathsFiles.entry? ⟨["b"]⟩ = some (.folder innerFolder) := by rfl
  have htree : (Entry.folder innerFolder).IsTree :=
    .folder (by decide) (by decide) (by simp [innerFolder, Entry.ofText, Entry.IsTree.file])
  have hfiles : (Entry.folder innerFolder).filesBelow = [["c.js"], ["d.js"]] := by
    simp [Entry.filesBelow_folder, sortByName, innerFolder, Entry.ofText, List.mergeSort,
      List.MergeSort.Internal.splitInTwo]
  have hdiscover : plainRunner.discover twoPaths.files ⟨"b"⟩ =
      [⟨⟨"c.js"⟩, ⟨"b/c.js"⟩⟩, ⟨⟨"d.js"⟩, ⟨"b/d.js"⟩⟩] := by
    rw [twoPaths, Runner.discover_eq hplace hfolder htree, hfiles]
    decide
  rw [(runsFound_runOf twoPaths plainRunner "b").trials, hdiscover, List.map_cons,
    List.map_singleton]
  exact congrArg₂ (fun t u => [t, u]) runFixture_c runFixture_d

def writingArguments : Arguments := { options := [("output", "out.txt")], paths := ["a.js", "b"] }

def passingArguments : Arguments := { paths := ["a.js", "b/c.js"] }

def missingArguments : Arguments := { paths := ["a.js", "u.js"] }

theorem madeFrom_plainRunner (fs : FileSystem) : plainRunner.MadeFrom fs {} :=
  ⟨rfl, ⟨by decide, by decide, by decide, by decide +kernel⟩, rfl, rfl, rfl⟩

theorem prepared_writingArguments : Prepared twoPaths.files writingArguments plainRunner where
  settings := ⟨{}, rfl, madeFrom_plainRunner _⟩
  paths := List.forall_mem_cons.2 ⟨⟨⟨["a.js"]⟩, rfl⟩, List.forall_mem_singleton.2 ⟨⟨["b"]⟩, rfl⟩⟩

theorem prepared_passingArguments : Prepared twoPaths.files passingArguments plainRunner where
  settings := ⟨{}, rfl, madeFrom_plainRunner _⟩
  paths := List.forall_mem_cons.2
    ⟨⟨⟨["a.js"]⟩, rfl⟩, List.forall_mem_singleton.2 ⟨⟨["b", "c.js"]⟩, rfl⟩⟩

theorem not_prepared_missingArguments (r : Runner) :
    ¬ Prepared twoPaths.files missingArguments r := by
  intro h
  obtain ⟨place, hplace⟩ := h.paths "u.js" (by decide)
  have hmissing : twoPaths.files.locate ⟨"u.js"⟩ = .error .missing := by rfl
  simp [hmissing] at hplace

theorem length_executions_runOf (path : String) :
    (runOf twoPaths plainRunner path).executions.length =
      ((runOf twoPaths plainRunner path).trials.flatMap Trial.executions).length :=
  (runsFound_runOf twoPaths plainRunner path).executions.length_eq

theorem entries_runOf (path : String) : (runOf twoPaths plainRunner path).report.entries =
    (runOf twoPaths plainRunner path).trials.map Trial.entry := rfl

/-- With the fixture that throws the exit code is 1, without it 0, and with a path that leads
nowhere 2. -/
theorem execute_run_twoPaths :
    Request.ofArguments ["run", "a.js", "b", "-o", "out.txt"] = .ok (.run writingArguments) ∧
      (execute twoPaths ["run", "a.js", "b", "-o", "out.txt"]).exitCode = 1 ∧
      (execute twoPaths ["run", "a.js", "b", "-o", "out.txt"]).executions.length = 3 ∧
      Request.ofArguments ["run", "a.js", "b/c.js"] = .ok (.run passingArguments) ∧
      (execute twoPaths ["run", "a.js", "b/c.js"]).exitCode = 0 ∧
      (execute twoPaths ["run", "a.js", "b/c.js"]).executions.length = 2 ∧
      Request.ofArguments ["run", "a.js", "u.js"] = .ok (.run missingArguments) ∧
      (execute twoPaths ["run", "a.js", "u.js"]).exitCode = 2 ∧
      (execute twoPaths ["run", "a.js", "u.js"]).executions = [] := by
  have hwriting : Request.ofArguments ["run", "a.js", "b", "-o", "out.txt"] =
      .ok (.run writingArguments) := by rfl
  have hpassing : Request.ofArguments ["run", "a.js", "b/c.js"] = .ok (.run passingArguments) := by
    rfl
  have hmissing : Request.ofArguments ["run", "a.js", "u.js"] = .ok (.run missingArguments) := by
    rfl
  obtain ⟨hexit, hnone, -⟩ := (execute_run twoPaths hmissing).1 not_prepared_missingArguments
  obtain ⟨report, rendered, -, hhands⟩ :=
    (execute_run twoPaths hwriting).2 plainRunner prepared_writingArguments
  have hwrite : ∀ path, writingArguments.value? "output" = some path →
      ∃ files, twoPaths.files.write ⟨path⟩ (contentOf rendered) = .ok files := by
    intro path hpath
    obtain rfl : "out.txt" = path := Option.some.inj hpath
    exact ⟨_, rfl⟩
  have hfailed := hhands hwrite
  obtain ⟨report', rendered', -, hpassed⟩ :=
    (execute_run twoPaths hpassing).2 plainRunner prepared_passingArguments
  have hsucceeded := hpassed nofun
  have hthrown : (execute twoPaths ["run", "a.js", "b", "-o", "out.txt"]).exitCode ≠ 0 := by
    intro hzero
    have hall := hfailed.exit_eq_zero_iff.1 hzero "b" (by decide) trialD.entry
      (by simp [entries_runOf, trials_runOf_b])
    simp [trialD, trialOf, Found.entry] at hall
  refine ⟨hwriting, hfailed.exit_eq.resolve_left hthrown, ?_, hpassing, ?_, ?_, hmissing, hexit,
    hnone⟩
  · simp [hfailed.executions, writingArguments, length_executions_runOf, trials_runOf_a,
      trials_runOf_b, trialA, trialC, trialD, trialOf]
  · refine hsucceeded.exit_eq_zero_iff.2 ?_
    simp [passingArguments, entries_runOf, trials_runOf_a, trials_runOf_c, trialA, trialC, trialOf,
      Found.entry]
  · simp [hsucceeded.executions, passingArguments, length_executions_runOf, trials_runOf_a,
      trials_runOf_c, trialA, trialC, trialOf]

end FixtureRunner

end EngineTrials
