import EngineTrials.Bench.Runner
import EngineTrials.CommandLine.Command

/-! The tool that times benchmarks. -/

namespace EngineTrials.FixtureBench

def name : String := "fixture-bench"

def usage : String := "Usage: fixture-bench [OPTIONS] <PATHS>...\n"

def specs : List OptionSpec :=
  [{ name := "config", letter := 'c', kind := .value Arguments.isPath },
    { name := "engine", kind := .value Arguments.isAny },
    { name := "engine-arg", kind := .values Arguments.isAny true },
    { name := "setup", kind := .values Arguments.isPath false },
    { name := "filter", kind := .value Arguments.isAny },
    { name := "warmup", kind := .value Arguments.isNumber },
    { name := "iterations", letter := 'i', kind := .value Arguments.isNumber },
    { name := "timeout", kind := .value Arguments.isNumber },
    { name := "json", kind := .flag },
    { name := "verbose", letter := 'v', kind := .count },
    { name := "help", letter := 'h', kind := .help },
    { name := "version", letter := 'V', kind := .version }]

/-- Reads a command line, which wants at least one path. -/
def readArguments (arguments : List String) : Except Stop Arguments := do
  let a ← Arguments.read specs false arguments none {}
  if a.paths = [] then .error (.fault .missingPaths) else .ok a

/-- The options of the run that a command line asks for. -/
def options (s : Settings) (a : Arguments) : Except OptionFault BenchOptions := do
  let default : BenchOptions := {}
  let o : BenchOptions :=
    { iterations :=
        { warmup := (a.number? "warmup").getD default.iterations.warmup
          measured := (a.number? "iterations").getD default.iterations.measured }
      sourceRoot := s.sourceRoot
      setup := (a.values "setup").map Path.mk
      timeoutMillis := (a.number? "timeout").getD default.timeoutMillis }
  let o ← match a.value? "filter" with
    | some pattern => o.withFilter pattern
    | none => .ok o
  o.validate
  return o

/-- Gathers the scripts of one path after the other. -/
def gather (fs : FileSystem) : List String → Except String BenchSuite
  | [] => .ok ⟨[]⟩
  | path :: rest => do
    if !fs.hasPath ⟨path⟩ then .error ("benchmark path not found: " ++ path)
    let first ← (BenchSuite.discover fs ⟨path⟩).mapError SuiteFault.message
    let others ← gather fs rest
    return .concat [first, others]

/-- What a run needs: the settings, the options and the scripts. -/
def ready (fs : FileSystem) (a : Arguments) :
    Except String (Settings × BenchOptions × BenchSuite) := do
  let base ← (baseSettings fs a).mapError SettingsFault.message
  let settings := { base with engine := base.engine.override a }
  settings.validate.mapError SettingsFault.message
  let o ← (options settings a).mapError OptionFault.message
  let suite ← gather fs a.paths
  return (settings, o, suite)

/-- The sum of the times, added up from a negative zero, which adds nothing to any number. -/
def totalMillis (results : List BenchResult) : Float :=
  (results.map BenchResult.millis).foldl (· + ·) (-0.0)

def opening (settings : Settings) (suite : BenchSuite) : String :=
  "Running " ++ toString suite.size ++ " benchmark(s) from " ++ toString suite.scripts.length ++
    " script(s) on " ++ settings.engine.program ++ "...\n"

def summary (results : List BenchResult) : String :=
  let failed := results.countP fun r => !r.success
  let total := totalMillis results
  "\nSummary:\n" ++
    "  Total benchmarks: " ++ toString results.length ++ "\n" ++
    "  Successful: " ++ toString (results.length - failed) ++ "\n" ++
    "  Failed: " ++ toString failed ++ "\n" ++
    "  Total time: " ++ Decimal.fixed total 2 ++ " ms (" ++ Decimal.fixed (total / 1000.0) 2 ++
      " s)\n"

def printed (settings : Settings) (suite : BenchSuite) (results : List BenchResult)
    (asJson : Bool) : String :=
  if asJson then benchJson results ++ "\n"
  else opening settings suite ++ benchTable results ++ "\n" ++ summary results

def runBenchmarks (s : Surroundings) (a : Arguments) : CommandResult :=
  match ready s.files a with
  | .error message => .failed s.files message
  | .ok (settings, o, suite) =>
    match o.runSuite? s.files (s.engine settings.engine) suite with
    | none => .failed s.files "engine adapter panicked"
    | some results =>
      { exitCode := if results.all BenchResult.success then 0 else 1
        stdout := printed settings suite results (a.has "json")
        files := s.files }

def execute (s : Surroundings) (arguments : List String) : CommandResult :=
  match readArguments arguments with
  | .error stop => .stopped s.files name toolVersion usage stop
  | .ok a => runBenchmarks s a

end EngineTrials.FixtureBench
