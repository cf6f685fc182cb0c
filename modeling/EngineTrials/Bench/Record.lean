import EngineTrials.Json.Decode
import EngineTrials.Json.Reader
import EngineTrials.Text.Blank
import EngineTrials.Text.Search

/-! The records that the timing driver prints, one a line, after a marker. -/

namespace EngineTrials

/-- What records of the timing driver start with. -/
def benchMarker : String := "@@bench "

/-- A record of one entry point. -/
structure BenchRecord where
  name : String
  /-- The calls that were timed. -/
  iterations : Option Nat
  /-- The time that they took. -/
  totalMillis : Option Float
  /-- What the entry point threw. -/
  error : Option String

namespace BenchRecord

def ofJson? (j : Json) : Option BenchRecord := do
  let fields ← j.fields? ["name", "iterations", "total_ms", "error"]
  return { name := ← fields.required "name" Json.text?
           iterations := ← fields.defaulted "iterations" none (Json.Fields.nullable Json.count?)
           totalMillis := ← fields.defaulted "total_ms" none (Json.Fields.nullable Json.float?)
           error := ← fields.defaulted "error" none (Json.Fields.nullable Json.text?) }

/-- The record on a line, if there is one. -/
def ofLine? (line : String) : Option BenchRecord := do
  let payload ← Text.after? benchMarker (Text.dropEndWhile (· == '\r') line.toList)
  ofJson? (← Json.parse? payload)

end BenchRecord

end EngineTrials
