import EngineTrials.Json.Numeral
import EngineTrials.Verdict.Basic

/-! Reports: the verdicts of a run in its order, with a count of each kind. A report that was read
from a text may hold counts that do not fit its entries; its counts are numbers of 64 bits, so
adding to one of them can fail. -/

namespace EngineTrials

/-- The verdict on one fixture of a run. -/
structure ReportEntry where
  path : String
  verdict : Verdict
  durationMillis : Nat := 0
  /-- The status messages of a fixture that did not pass. -/
  status : List String := []
  deriving DecidableEq, Repr

/-- How many verdicts there are of each kind. -/
structure Counts where
  total : Nat := 0
  passed : Nat := 0
  failed : Nat := 0
  errored : Nat := 0
  crashed : Nat := 0
  /-- The crashes that were timeouts. -/
  timeout : Nat := 0
  skipped : Nat := 0
  deriving DecidableEq, Repr

namespace Counts

def zero : Counts := {}

def add (c : Counts) (v : Verdict) : Counts :=
  { total := c.total + 1
    passed := c.passed + v.isPass.toNat
    failed := c.failed + v.isFail.toNat
    errored := c.errored + v.isError.toNat
    crashed := c.crashed + v.isCrash.toNat
    timeout := c.timeout + v.isTimeout.toNat
    skipped := c.skipped + v.isSkip.toNat }

def toList (c : Counts) : List Nat :=
  [c.total, c.passed, c.failed, c.errored, c.crashed, c.timeout, c.skipped]

/-- Whether every count is a number of 64 bits. -/
def fits (c : Counts) : Bool := c.toList.all (· ≤ Json.maxCount)

end Counts

/-- A report. -/
structure Report where
  counts : Counts
  entries : List ReportEntry
  deriving DecidableEq, Repr

namespace Report

def empty : Report := ⟨.zero, []⟩

def ofEntries (entries : List ReportEntry) : Report :=
  ⟨(entries.map ReportEntry.verdict).foldl Counts.add .zero, entries⟩

/-- The report with one more entry, unless a count gets too large. -/
def add? (r : Report) (e : ReportEntry) : Option Report :=
  let counts := r.counts.add e.verdict
  if counts.fits then some ⟨counts, r.entries ++ [e]⟩ else none

/-- The report with the entries of another one, unless a count gets too large. -/
def merge? (r other : Report) : Option Report := other.entries.foldlM add? r

def combine (reports : List Report) : Report := ofEntries (reports.flatMap Report.entries)

/-- The entries that neither passed nor were skipped. -/
def problems (r : Report) : List ReportEntry := r.entries.filter fun e => e.verdict.isProblem

def isSuccess (r : Report) : Bool :=
  r.counts.failed == 0 && r.counts.errored == 0 && r.counts.crashed == 0

/-- A part of a whole in percent; nothing of nothing is none. -/
def percentage (part whole : Nat) : Float :=
  if whole = 0 then 0.0 else Float.ofNat part / Float.ofNat whole * 100.0

def passRate (r : Report) : Float := percentage r.counts.passed r.counts.total

/-- The passes among the fixtures that were not skipped, in percent; there is none if more were
skipped than there are. -/
def effectivePassRate? (r : Report) : Option Float :=
  if r.counts.total < r.counts.skipped then none
  else some (percentage r.counts.passed (r.counts.total - r.counts.skipped))

end Report

end EngineTrials
