import EngineTrials.Decimal.Fixed
import EngineTrials.Report.Json

/-! Reports for people: a summary, the summary with every problem, and one line for each fixture. -/

namespace EngineTrials

/-- The form of a report. -/
inductive ReportFormat
  | text
  | json
  | lines
  deriving DecidableEq, Repr

/-- A format cannot be read from this text. -/
structure UnknownFormat where
  text : String
  deriving DecidableEq, Repr

def UnknownFormat.message (u : UnknownFormat) : String :=
  "unknown report format '" ++ u.text ++ "' (expected text, json or lines)"

/-- The format that a text names, in whatever case of ASCII letters. -/
def ReportFormat.ofText (text : String) : Except UnknownFormat ReportFormat :=
  let lower := String.ofList (text.toList.map Char.toLower)
  if lower = "text" then .ok .text
  else if lower = "json" then .ok .json
  else if lower = "lines" then .ok .lines
  else .error ⟨lower⟩

namespace Report

def summary? (r : Report) : Option String :=
  r.effectivePassRate?.map fun effective =>
    let c := r.counts
    "Fixture Results:\n" ++
      "Total: " ++ toString c.total ++ "\n" ++
      "Passed: " ++ toString c.passed ++ " (" ++ Decimal.fixed r.passRate 1 ++ "%)\n" ++
      "Failed: " ++ toString c.failed ++ "\n" ++
      "Errored: " ++ toString c.errored ++ "\n" ++
      "Crashed: " ++ toString c.crashed ++ " (" ++ toString c.timeout ++ " timeout)\n" ++
      "Skipped: " ++ toString c.skipped ++ "\n" ++
      "Effective Pass Rate: " ++ Decimal.fixed effective 1 ++ "%"

/-- A problem with its reason and its status messages. -/
def problemText (e : ReportEntry) : String :=
  "  - " ++ e.path ++ " [" ++ e.verdict.label ++ "]\n    " ++ e.verdict.detail ++ "\n" ++
    String.join (e.status.map fun message => "    status: " ++ message ++ "\n")

def detailedSummary? (r : Report) : Option String :=
  r.summary?.map fun summary =>
    match r.problems with
    | [] => summary
    | problems => summary ++ "\n\nProblems:\n" ++ String.join (problems.map problemText)

/-- The line of an entry; line feeds in its detail become spaces. -/
def line (e : ReportEntry) : String :=
  let detail := String.ofList (e.verdict.detail.toList.map fun c => if c = '\n' then ' ' else c)
  let start := e.verdict.label ++ " " ++ e.path
  if detail.isEmpty then start ++ "\n" else start ++ ": " ++ detail ++ "\n"

def toLines (r : Report) : String := String.join (r.entries.map line)

/-- The report in a format; only the text form can fail. -/
def render? (r : Report) : ReportFormat → Option String
  | .text => r.detailedSummary?
  | .json => some r.toText
  | .lines => some r.toLines

end Report

end EngineTrials
