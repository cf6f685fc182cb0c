import EngineTrials.Json.Reader
import EngineTrials.Report.Basic
import EngineTrials.Verdict.Json

/-! Reports as JSON text: the counts, and the entries with their verdicts. -/

namespace EngineTrials

open Json (ofString ofNat ofMembers)

namespace ReportEntry

def toJson (e : ReportEntry) : Json :=
  ofMembers ([("path", ofString e.path), ("result", e.verdict.toJson),
    ("duration_ms", ofNat e.durationMillis)] ++
    if e.status = [] then [] else [("status", Json.ofStrings e.status)])

/-- The entry that a value spells; `room` is how many containers may still nest in it. -/
def ofJson? (room : Nat) (j : Json) : Option ReportEntry := do
  let fields ← j.fields? ["path", "result", "duration_ms", "status"]
  return { path := ← fields.required "path" Json.text?
           verdict := ← fields.required "result" (Verdict.ofJson? (room - 1))
           durationMillis := ← fields.required "duration_ms" Json.count?
           status := ← fields.defaulted "status" [] (Json.list? Json.text?) }

end ReportEntry

namespace Report

def toJson (r : Report) : Json :=
  ofMembers [("total", ofNat r.counts.total), ("passed", ofNat r.counts.passed),
    ("failed", ofNat r.counts.failed), ("errored", ofNat r.counts.errored),
    ("crashed", ofNat r.counts.crashed), ("timeout", ofNat r.counts.timeout),
    ("skipped", ofNat r.counts.skipped), ("entries", .array (r.entries.map ReportEntry.toJson))]

def ofJson? (j : Json) : Option Report := do
  let fields ← j.fields? ["total", "passed", "failed", "errored", "crashed", "timeout", "skipped",
    "entries"]
  return { counts :=
             { total := ← fields.required "total" Json.count?
               passed := ← fields.required "passed" Json.count?
               failed := ← fields.required "failed" Json.count?
               errored := ← fields.required "errored" Json.count?
               crashed := ← fields.required "crashed" Json.count?
               timeout := ← fields.required "timeout" Json.count?
               skipped := ← fields.required "skipped" Json.count? }
           entries := ← fields.required "entries"
             (Json.list? (ReportEntry.ofJson? (Json.depthLimit - 2))) }

/-- The report as JSON text over several lines. -/
def toText (r : Report) : String := r.toJson.pretty

def ofText? (text : String) : Option Report := (Json.parse? text.toList).bind ofJson?

end Report

end EngineTrials
