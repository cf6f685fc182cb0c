import EngineTrials.Bench.Result
import EngineTrials.Bench.Suite
import EngineTrials.Engine.Basic
import EngineTrials.Pattern.Reader

/-! Running benchmarks: each script is put together with the setup scripts and the timing driver, is
executed once, and every entry point wanted gets a result, whatever the engine does. -/

namespace EngineTrials

/-- The name filter of a run: its text and the pattern that the text spells. -/
structure NameFilter where
  text : String
  pattern : Pattern
  deriving DecidableEq, Repr

/-- The settings of a benchmark run. -/
structure BenchOptions where
  iterations : Iterations := {}
  /-- The folder that load directives start from. -/
  sourceRoot : Path := ⟨"."⟩
  /-- The scripts that come before each benchmark script. -/
  setup : List Path := []
  /-- Only the entry points that it selects are run. -/
  filter : Option NameFilter := none
  /-- The time limit of a script in milliseconds. -/
  timeoutMillis : Nat := 60000
  deriving DecidableEq, Repr

/-- A setting that a benchmark run cannot honour. -/
inductive OptionFault
  | noIterations
  | noTime
  /-- A filter that spells no pattern. -/
  | badFilter (text : String)
  deriving DecidableEq, Repr

namespace OptionFault

def field : OptionFault → String
  | .noIterations => "iterations"
  | .noTime => "timeout"
  | .badFilter _ => "filter"

/-- The text of a fault; what is wrong with a filter is not told. -/
def message : OptionFault → String
  | .noIterations => "invalid value for iterations: must be at least 1"
  | .noTime => "invalid value for timeout: must be greater than zero"
  | .badFilter text => "invalid benchmark filter '" ++ text ++ "':"

end OptionFault

/-- Why a script cannot be run. -/
inductive BenchFault
  | load (fault : LoadFault)
  | engine (fault : EngineFault)
  deriving DecidableEq, Repr

def BenchFault.message : BenchFault → String
  | .load fault => fault.message
  | .engine fault => fault.message

/-- What came of a script: its results, a fault, or nothing at all because the adapter to the engine
gave up. -/
inductive ScriptRun
  | results (results : List BenchResult)
  | fault (f : BenchFault)
  | panicked

namespace BenchOptions

def withFilter (o : BenchOptions) (text : String) : Except OptionFault BenchOptions :=
  match Pattern.ofText? text with
  | some pattern => .ok { o with filter := some ⟨text, pattern⟩ }
  | none => .error (.badFilter text)

/-- Checks that a run can honour the options. -/
def validate (o : BenchOptions) : Except OptionFault Unit :=
  if o.iterations.measured = 0 then .error .noIterations
  else if o.timeoutMillis = 0 then .error .noTime
  else .ok ()

/-- The entry points of a script that are wanted. -/
def selected (o : BenchOptions) (script : BenchScript) : List String :=
  match o.filter with
  | some filter => script.entryPoints.filter filter.pattern.selects
  | none => script.entryPoints

/-- How scripts are put together: nothing is loaded without being asked for. -/
def loader (o : BenchOptions) : Loader := ⟨o.sourceRoot, []⟩

/-- Segments with one more at the end, unless one of them has the same path. -/
def addSegment (segments : List Segment) (segment : Segment) : List Segment :=
  if segments.any fun s => s.path.same segment.path then segments else segments ++ [segment]

/-- The segments of scripts loaded one after the other, each path once. -/
def loadAll (o : BenchOptions) (fs : FileSystem) :
    List Path → List Segment → Except LoadFault (List Segment)
  | [], segments => .ok segments
  | path :: rest, segments => do
    let script ← o.loader.load fs path
    loadAll o fs rest (script.segments.foldl addSegment segments)

/-- The setup scripts, the benchmark script with all that it loads, and the timing driver. -/
def assemble (o : BenchOptions) (fs : FileSystem) (script : BenchScript) (names : List String) :
    Except LoadFault LoadedScript :=
  (o.loadAll fs (o.setup ++ [script.path]) []).map fun segments =>
    (LoadedScript.ofSegments segments).withEpilogue (benchDriver names o.iterations)

/-- Why an entry point has no record after an ending. -/
def unreported : Ending → String
  | .completed _ => "benchmark did not report a result"
  | .threw exception => "script threw " ++ exception.display
  | .timedOut limit => "timeout after " ++ toString (limit / 1000) ++ " ms"
  | .crashed reason => reason

/-- The result of each entry point: by its first record, or else by how the script ended. -/
def resultsOf (names : List String) (script : String) (outcome : Outcome) : List BenchResult :=
  let records := outcome.log.output.filterMap BenchRecord.ofLine?
  names.map fun name =>
    match records.find? fun r => r.name == name with
    | some record => .ofRecord record script
    | none => .failed name script (unreported outcome.ending)

/-- What the engine is asked to do for a script; nothing if no entry point is wanted. -/
def execution? (o : BenchOptions) (fs : FileSystem) (script : BenchScript) :
    Except LoadFault (Option Execution) :=
  match o.selected script with
  | [] => .ok none
  | names => (o.assemble fs script names).map fun loaded => some ⟨loaded, false, o.timeoutMillis⟩

/-- What a response makes of a script. -/
def ofResponse (o : BenchOptions) (script : BenchScript) : Response → ScriptRun
  | .outcome outcome => .results (resultsOf (o.selected script) script.name outcome)
  | .fault f => .fault (.engine f)
  | .panicked => .panicked

/-- The results of a script; one failure for each entry point if it cannot be run. -/
def suiteResults? (o : BenchOptions) (script : BenchScript) : ScriptRun → Option (List BenchResult)
  | .results results => some results
  | .fault f => some ((o.selected script).map fun name => .failed name script.name f.message)
  | .panicked => none

section

variable {m : Type → Type} [Monad m]

/-- Runs the entry points of a script that are wanted; `ask` asks the engine. -/
def runScript (o : BenchOptions) (fs : FileSystem) (ask : Execution → m Response)
    (script : BenchScript) : m ScriptRun :=
  match o.execution? fs script with
  | .error fault => return .fault (.load fault)
  | .ok none => return .results []
  | .ok (some execution) => return o.ofResponse script (← ask execution)

/-- Runs scripts one after the other, up to one in which the adapter to the engine gives up: then
there are no results at all. -/
def runScripts (o : BenchOptions) (fs : FileSystem) (ask : Execution → m Response) :
    List BenchScript → m (Option (List BenchResult))
  | [] => return some []
  | script :: rest => do
    match o.suiteResults? script (← o.runScript fs ask script) with
    | none => return none
    | some results => return (← runScripts o fs ask rest).map (results ++ ·)

end

/-- The results of a suite; there are none if the adapter to the engine gave up. -/
def runSuite? (o : BenchOptions) (fs : FileSystem) (engine : Engine) (suite : BenchSuite) :
    Option (List BenchResult) :=
  o.runScripts (m := Id) fs engine.execute suite.scripts

end BenchOptions

end EngineTrials
