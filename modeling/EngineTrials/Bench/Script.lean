import EngineTrials.Bench.Template
import EngineTrials.FileSystem.Basic
import EngineTrials.Fixture.Declaration
import EngineTrials.Json.Basic
import EngineTrials.Load.Basic

/-! Benchmark scripts, with the entry points that they declare, and the segment that times them. -/

namespace EngineTrials

/-- A benchmark script. -/
structure BenchScript where
  path : Path
  entryPoints : List String
  deriving DecidableEq, Repr

def BenchScript.ofSource (path : Path) (source : String) : BenchScript :=
  ⟨path, EngineTrials.entryPoints source⟩

/-- The name that results are listed under: the file name, or else the path. -/
def BenchScript.name (script : BenchScript) : String := script.path.fileName?.getD script.path.text

/-- How often an entry point is called. -/
structure Iterations where
  /-- The calls that are not timed. -/
  warmup : Nat := 100
  /-- The calls that are timed. -/
  measured : Nat := 1000
  deriving DecidableEq, Repr

/-- The path that the timing driver goes by. -/
def benchDriverPath : Path := ⟨"fixture-bench-driver.js"⟩

/-- The segment that times the entry points: the template with its three placeholders filled, one
after the other. -/
def benchDriver (names : List String) (iterations : Iterations) : Segment :=
  let named := Text.replace benchTemplate "__NAMES__" (Json.ofStrings names).compact
  let warmed := Text.replace named "__WARMUP__" (toString iterations.warmup)
  ⟨benchDriverPath, Text.replace warmed "__ITERATIONS__" (toString iterations.measured)⟩

end EngineTrials
