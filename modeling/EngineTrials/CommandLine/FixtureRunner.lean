import EngineTrials.CommandLine.Command
import EngineTrials.Decimal.Fixed
import EngineTrials.Report.Render
import EngineTrials.Run.Basic

/-! The tool that runs fixtures, or lists those that it would run. Nothing is run unless all
settings are good and all paths are there. -/

namespace EngineTrials.FixtureRunner

def name : String := "fixture-runner"

def usage : String := "Usage: fixture-runner [OPTIONS] <COMMAND>\n\nCommands:\n" ++
  "  run   Execute fixtures and print a report\n  list  Print the fixtures a run would execute\n"

def commonSpecs : List OptionSpec :=
  [{ name := "verbose", letter := 'v', kind := .count },
    { name := "help", letter := 'h', kind := .help }]

def outerSpecs : List OptionSpec :=
  { name := "version", letter := 'V', kind := .version } :: commonSpecs

def settingSpecs : List OptionSpec :=
  [{ name := "config", letter := 'c', kind := .value Arguments.isPath },
    { name := "filter", kind := .value Arguments.isAny },
    { name := "timeout", kind := .value Arguments.isNumber },
    { name := "engine", kind := .value Arguments.isAny },
    { name := "engine-arg", kind := .values Arguments.isAny true },
    { name := "capability", kind := .values Arguments.isAny false },
    { name := "root", kind := .value Arguments.isPath },
    { name := "jobs", letter := 'j', kind := .value Arguments.isNumber },
    { name := "skip-list", kind := .value Arguments.isPath },
    { name := "require-success", kind := .flag },
    { name := "trace", kind := .flag }]

def reportSpecs : List OptionSpec :=
  [{ name := "format", kind := .value fun text => (ReportFormat.ofText text).isOk },
    { name := "output", letter := 'o', kind := .value Arguments.isPath }]

/-- A command with its arguments. -/
inductive Request
  | run (arguments : Arguments)
  | list (arguments : Arguments)
  deriving DecidableEq, Repr

/-- Reads the arguments of a command, which wants at least one path. -/
def commandArguments (specs : List OptionSpec) (arguments : List String) :
    Except Stop Arguments := do
  let a ← Arguments.read specs false arguments none {}
  if a.paths = [] then .error (.fault .missingPaths) else .ok a

def Request.ofArguments (arguments : List String) : Except Stop Request := do
  let outer ← Arguments.read outerSpecs true arguments none {}
  match outer.rest with
  | "run" :: rest =>
    return .run (← commandArguments (commonSpecs ++ settingSpecs ++ reportSpecs) rest)
  | "list" :: rest => return .list (← commandArguments (commonSpecs ++ settingSpecs) rest)
  | "help" :: _ => .error .help
  | name :: _ => .error (.fault (.unknownCommand name))
  | [] => .error (.fault .missingCommand)

/-- Settings with what a command line changes in them. -/
def override (s : Settings) (a : Arguments) : Settings :=
  let engine := s.engine.override a
  { s with
    engine := { engine with capabilities := engine.capabilities ++ a.values "capability" }
    filter := (a.value? "filter").or s.filter
    timeoutMillis := (a.number? "timeout").getD s.timeoutMillis
    sourceRoot := ((a.value? "root").map Path.mk).getD s.sourceRoot
    jobs := (a.number? "jobs").getD s.jobs
    skipList := ((a.value? "skip-list").map Path.mk).or s.skipList
    requireSentinel := s.requireSentinel || a.has "require-success"
    trace := s.trace || a.has "trace" }

/-- The runner that a command line asks for. -/
def runner (fs : FileSystem) (a : Arguments) : Except SettingsFault Runner := do
  Runner.ofSettings fs (override (← baseSettings fs a) a)

/-- The runner that a command line asks for, once all its paths are known to be there. -/
def ready (fs : FileSystem) (a : Arguments) : Except String Runner :=
  match runner fs a with
  | .error fault => .error fault.message
  | .ok r =>
    match firstMissing? fs a.paths with
    | some path => .error ("fixture path not found: " ++ path)
    | none => .ok r

/-- The form of the report that a command line asks for. -/
def format (a : Arguments) : ReportFormat :=
  match ReportFormat.ofText ((a.value? "format").getD "text") with
  | .ok f => f
  | .error _ => .text

/-- The report as it is printed; the text form ends with the time that the run took. -/
def printed (s : Surroundings) (rendered : String) (f : ReportFormat) : String :=
  withLineFeed rendered ++
    if f = .text then "Time: " ++ Decimal.fixed s.seconds 2 ++ "s\n" else ""

/-- The runs of all paths, in the order of the arguments. -/
def runs (s : Surroundings) (r : Runner) (paths : List String) : List RunRecord :=
  paths.map fun path => r.run s.files (s.engine r.settings.engine) ⟨path⟩

def runFixtures (s : Surroundings) (a : Arguments) : CommandResult :=
  match ready s.files a with
  | .error message => .failed s.files message
  | .ok r =>
    let done := runs s r a.paths
    let executions := done.flatMap RunRecord.executions
    let report := Report.combine (done.map RunRecord.report)
    let rendered := (report.render? (format a)).getD ""
    let exitCode := if report.isSuccess then 0 else 1
    match a.value? "output" with
    | none =>
      { exitCode, stdout := printed s rendered (format a), files := s.files, executions }
    | some path =>
      let content := Text.Utf8.encode rendered.toList
      match s.files.write ⟨path⟩ content with
      | .error fault => { CommandResult.failed s.files fault.message with executions }
      | .ok files =>
        { exitCode
          stderr := report.summary?.getD "" ++ "\nReport written to " ++ path ++ "\n"
          files, written := some (⟨path⟩, content), executions }

/-- Lists the fixtures that a run would execute. -/
def listFixtures (s : Surroundings) (a : Arguments) : CommandResult :=
  match ready s.files a with
  | .error message => .failed s.files message
  | .ok r =>
    let found := a.paths.flatMap fun path => r.discover s.files ⟨path⟩
    { exitCode := 0
      stdout := String.join (found.map fun f => f.path.text ++ "\n")
      stderr := toString found.length ++ " fixture(s)\n"
      files := s.files }

def execute (s : Surroundings) (arguments : List String) : CommandResult :=
  match Request.ofArguments arguments with
  | .error stop => .stopped s.files name toolVersion usage stop
  | .ok (.run a) => runFixtures s a
  | .ok (.list a) => listFixtures s a

end EngineTrials.FixtureRunner
