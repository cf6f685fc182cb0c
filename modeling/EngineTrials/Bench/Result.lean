import EngineTrials.Bench.Record
import EngineTrials.Decimal.Fixed
import EngineTrials.Json.Numeral

/-! The results of benchmarks, with their rates, as a table and as JSON. -/

namespace EngineTrials

/-- What came of a benchmark. -/
inductive Timing
  | timed (iterations : Nat) (millis : Float)
  | failed (error : String)

/-- The result of one entry point. -/
structure BenchResult where
  name : String
  /-- The name of its script. -/
  script : String
  timing : Timing

namespace BenchResult

/-- The result of an entry point that was timed. -/
def timed (name script : String) (iterations : Nat) (millis : Float) : BenchResult :=
  ⟨name, script, .timed iterations millis⟩

/-- The result of an entry point that was not. -/
def failed (name script error : String) : BenchResult := ⟨name, script, .failed error⟩

def ofRecord (record : BenchRecord) (script : String) : BenchResult :=
  match record.error, record.iterations, record.totalMillis with
  | some error, _, _ => failed record.name script error
  | none, some iterations, some millis => timed record.name script iterations millis
  | none, _, _ => failed record.name script "incomplete benchmark record"

def iterations (r : BenchResult) : Nat :=
  match r.timing with
  | .timed iterations _ => iterations
  | .failed _ => 0

def millis (r : BenchResult) : Float :=
  match r.timing with
  | .timed _ millis => millis
  | .failed _ => 0.0

def success (r : BenchResult) : Bool :=
  match r.timing with
  | .timed _ _ => true
  | .failed _ => false

def error? (r : BenchResult) : Option String :=
  match r.timing with
  | .timed _ _ => none
  | .failed error => some error

/-- Whether calls were timed and took any time, so that there are rates. -/
def hasRates (r : BenchResult) : Bool := 0 < r.iterations && 0.0 < r.millis

def nanosPerCall? (r : BenchResult) : Option Float :=
  if r.hasRates then some (r.millis * 1000000.0 / Float.ofNat r.iterations) else none

def callsPerSecond? (r : BenchResult) : Option Float :=
  if r.hasRates then some (Float.ofNat r.iterations / (r.millis / 1000.0)) else none

def toJson (r : BenchResult) : Json :=
  .ofMembers [("name", .ofString r.name), ("script", .ofString r.script),
    ("iterations", .ofNat r.iterations), ("duration_ms", .ofFloat r.millis),
    ("ns_per_op", .ofFloat? r.nanosPerCall?), ("ops_per_sec", .ofFloat? r.callsPerSecond?),
    ("success", .bool r.success), ("error", .ofOption r.error?)]

/-- A text with blanks after it up to a width. -/
def padRight (width : Nat) (s : String) : String :=
  s ++ String.ofList (List.replicate (width - s.length) ' ')

/-- A text with blanks before it up to a width. -/
def padLeft (width : Nat) (s : String) : String :=
  String.ofList (List.replicate (width - s.length) ' ') ++ s

def row (benchmark iterations millis nanos calls status : String) : String :=
  padRight 40 benchmark ++ " " ++ padLeft 10 iterations ++ " " ++ padLeft 13 millis ++ " " ++
    padLeft 12 nanos ++ " " ++ padLeft 14 calls ++ "  " ++ padRight 8 status ++ "\n"

/-- A rate with some decimal places, or a dash. -/
def rateText (places : Nat) : Option Float → String
  | some x => Decimal.fixed x places
  | none => "-"

/-- The lines of a result in the table. -/
def tableLines (r : BenchResult) : String :=
  let line := row (r.script ++ ":" ++ r.name) (toString r.iterations) (Decimal.fixed r.millis 2)
    (rateText 1 r.nanosPerCall?) (rateText 0 r.callsPerSecond?)
    (if r.success then "✓ PASS" else "✗ FAIL")
  match r.error? with
  | some error => line ++ "  Error: " ++ error ++ "\n"
  | none => line

end BenchResult

def benchTable (results : List BenchResult) : String :=
  "\n" ++ BenchResult.row "Benchmark" "Iterations" "Duration (ms)" "ns/op" "ops/sec" "Status" ++
    String.ofList (List.replicate 103 '=') ++ "\n" ++
    String.join (results.map BenchResult.tableLines)

/-- The results as JSON text over several lines. -/
def benchJson (results : List BenchResult) : String :=
  (Json.array (results.map BenchResult.toJson)).pretty

end EngineTrials
