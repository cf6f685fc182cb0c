import EngineTrials.Engine.Basic
import EngineTrials.Report.Basic
import EngineTrials.Run.Pool
import EngineTrials.Run.Runner
import EngineTrials.Verdict.Grade

/-! Running fixtures. Each fixture is loaded and executed on its own, and whatever goes wrong becomes
its verdict. A trial keeps what the engine was asked to do. -/

namespace EngineTrials

/-- What a fixture comes to before the engine is asked. -/
inductive Preparation
  /-- The verdict is clear without the engine. -/
  | settled (verdict : Verdict)
  | ready (fixture : Fixture) (execution : Execution)
  deriving DecidableEq, Repr

/-- The entry of a fixture in the report, and what the engine was asked to do for it. -/
structure Trial where
  entry : ReportEntry
  executions : List Execution
  deriving DecidableEq, Repr

/-- The trials of a run, in the order of the fixtures, and all that the engine was asked to do, in
the order of time. -/
structure RunRecord where
  trials : List Trial
  executions : List Execution
  deriving DecidableEq, Repr

def RunRecord.report (run : RunRecord) : Report := .ofEntries (run.trials.map Trial.entry)

/-- The verdict and the status messages that a response stands for. -/
def Response.judge (engine : String) (sentinel : Bool) : Response → Verdict × List String
  | .outcome o => (grade o sentinel, o.log.status)
  | .fault f => (.crashed (.abnormal ("engine error: " ++ f.message)), [])
  | .panicked => (.crashed (.abnormal ("engine adapter '" ++ engine ++ "' panicked")), [])

/-- The entry of a fixture; the status messages of one that passed are left out. -/
def Found.entry (found : Found) (durationMillis : Nat) (verdict : Verdict)
    (status : List String) : ReportEntry :=
  { path := found.path.text, verdict, durationMillis
    status := if verdict.isPass then [] else status }

namespace Runner

/-- The capabilities that a fixture needs and an engine does not have. -/
def missingCapabilities (r : Runner) (engine : Engine) (fixture : Fixture) : List String :=
  (fixture.requiredCapabilities r.settings.gates).filter fun c => !engine.supports c

/-- Settles a fixture or gets it ready: the skip list comes first, then the fixture is read, then
its capabilities are checked, then it is put together. -/
def prepare (r : Runner) (fs : FileSystem) (engine : Engine) (found : Found) : Preparation :=
  match r.skipList.reasonFor? found.relative with
  | some reason => .settled (.skipped reason)
  | none =>
    match Loader.readFixture fs found.path with
    | .error fault => .settled (.errored (.load fault))
    | .ok fixture =>
      match r.missingCapabilities engine fixture with
      | missing@(_ :: _) =>
        .settled (.skipped ("requires engine capability: " ++ Text.join ", " missing))
      | [] =>
        match r.loader.loadFixture fs fixture with
        | .error fault => .settled (.errored (.load fault))
        | .ok script => .ready fixture ⟨script, r.settings.trace, r.settings.timeoutMillis⟩

/-- Whether a fixture has to complete with the success sentinel. -/
def wantsSentinel (r : Runner) (fixture : Fixture) : Bool :=
  r.settings.requireSentinel || fixture.expectsSentinel

def runFixture (r : Runner) (fs : FileSystem) (engine : Engine) (found : Found) : Trial :=
  let millis := millisOf (engine.elapsedMicros found.path)
  match r.prepare fs engine found with
  | .settled verdict => ⟨found.entry millis verdict [], []⟩
  | .ready fixture execution =>
    let (verdict, status) := (engine.execute execution).judge engine.name (r.wantsSentinel fixture)
    ⟨found.entry millis verdict status, [execution]⟩

/-- The trial of a fixture whose worker gave up. -/
def lostTrial (found : Found) : Trial :=
  ⟨found.entry 0 (.crashed (.abnormal "fixture worker terminated")) [], []⟩

/-- The trials of fixtures run one after the other. -/
def runInTurn (r : Runner) (fs : FileSystem) (engine : Engine) (fixtures : List Found) :
    RunRecord :=
  let trials := fixtures.map (r.runFixture fs engine)
  ⟨trials, trials.flatMap Trial.executions⟩

/-- The pool that runs fixtures, after the steps of a schedule. There is no worker more than there
are fixtures. -/
def pool (r : Runner) (fs : FileSystem) (engine : Engine) (fixtures : List Found)
    (schedule : List Nat) : Pool Found Trial :=
  (Pool.start (min r.settings.jobs fixtures.length) fixtures).advance (r.runFixture fs engine)
    schedule

/-- The trials of fixtures run on a pool of workers whose steps follow a schedule. -/
def runOnPool (r : Runner) (fs : FileSystem) (engine : Engine) (fixtures : List Found)
    (schedule : List Nat) : RunRecord :=
  let pool := r.pool fs engine fixtures schedule
  ⟨List.zipWith (fun slot found => slot.getD (lostTrial found)) pool.slots fixtures,
    pool.answers.flatMap fun answer => answer.2.executions⟩

/-- Runs fixtures, on a pool if several may run at the same time. -/
def runAll (r : Runner) (fs : FileSystem) (engine : Engine) (fixtures : List Found) : RunRecord :=
  if 1 < r.settings.jobs ∧ 1 < fixtures.length then
    r.runOnPool fs engine fixtures
      (Pool.rounds (min r.settings.jobs fixtures.length) fixtures.length)
  else r.runInTurn fs engine fixtures

/-- Runs every fixture that a path leads to. -/
def run (r : Runner) (fs : FileSystem) (engine : Engine) (path : Path) : RunRecord :=
  r.runAll fs engine (r.discover fs path)

end Runner

end EngineTrials
