import EngineTrials.Report.Basic

/-! Reports that grow: by one entry, by the entries of another report, or by their own. Whatever the
counts of what is merged, a report that starts empty holds the entries added in their order, and its
counts are the numbers of its entries of each kind. -/

namespace EngineTrials

theorem toNat_eq_ite (b : Bool) : b.toNat = if b = true then 1 else 0 := by
  cases b <;> rfl

namespace Verdict

/-- A verdict is of one of five kinds. -/
theorem sum_kinds (v : Verdict) :
    v.isPass.toNat + v.isFail.toNat + v.isError.toNat + v.isCrash.toNat + v.isSkip.toNat = 1 := by
  cases v <;> rfl

theorem isCrash_of_isTimeout {v : Verdict} (h : v.isTimeout = true) : v.isCrash = true := by
  unfold isTimeout at h
  split at h
  · rfl
  · simp at h

theorem isProblem_iff (v : Verdict) :
    v.isProblem = true ↔ v.isFail = true ∨ v.isError = true ∨ v.isCrash = true := by
  cases v <;> simp [isProblem, isPass, isSkip, isFail, isError, isCrash]

end Verdict

namespace Counts

theorem foldl_add (c : Counts) (verdicts : List Verdict) :
    verdicts.foldl add c =
      { total := c.total + verdicts.length
        passed := c.passed + verdicts.countP Verdict.isPass
        failed := c.failed + verdicts.countP Verdict.isFail
        errored := c.errored + verdicts.countP Verdict.isError
        crashed := c.crashed + verdicts.countP Verdict.isCrash
        timeout := c.timeout + verdicts.countP Verdict.isTimeout
        skipped := c.skipped + verdicts.countP Verdict.isSkip } := by
  induction verdicts generalizing c with
  | nil => rfl
  | cons v rest ih =>
    rw [List.foldl_cons, ih]
    simp only [add, List.countP_cons, List.length_cons, toNat_eq_ite, mk.injEq]
    omega

theorem fits_iff (c : Counts) : c.fits = true ↔ ∀ n ∈ c.toList, n ≤ Json.maxCount := by
  simp [fits]

theorem fits_of_fits_foldl {c : Counts} {verdicts : List Verdict}
    (h : (verdicts.foldl add c).fits = true) : c.fits = true := by
  rw [foldl_add, fits_iff] at h
  rw [fits_iff]
  simp only [toList, List.forall_mem_cons] at h ⊢
  exact ⟨by omega, by omega, by omega, by omega, by omega, by omega, by omega, by simp⟩

end Counts

/-- What a report can grow by. -/
inductive ReportStep
  | add (e : ReportEntry)
  /-- An entry of no duration and without status messages. -/
  | addVerdict (path : String) (verdict : Verdict)
  /-- The entries of another report, whatever its counts are. -/
  | merge (other : Report)
  /-- The entries that the report holds already. -/
  | mergeSelf

/-- The entries that a step adds to those held. -/
def ReportStep.entries (held : List ReportEntry) : ReportStep → List ReportEntry
  | .add e => [e]
  | .addVerdict path verdict => [{ path, verdict }]
  | .merge other => other.entries
  | .mergeSelf => held

/-- The entries that steps add, one step after the other, to those held. -/
def ReportStep.added (held : List ReportEntry) : List ReportStep → List ReportEntry
  | [] => []
  | step :: rest => step.entries held ++ added (held ++ step.entries held) rest

namespace Report

open ReportStep (added)

/-- The report after a step, unless a count gets too large. -/
def step? (r : Report) : ReportStep → Option Report
  | .add e => r.add? e
  | .addVerdict path verdict => r.add? { path, verdict }
  | .merge other => r.merge? other
  | .mergeSelf => r.merge? r

def run? (r : Report) (steps : List ReportStep) : Option Report := steps.foldlM step? r

/-- The report with more entries, counted one by one. -/
def extend (r : Report) (entries : List ReportEntry) : Report :=
  ⟨(entries.map ReportEntry.verdict).foldl Counts.add r.counts, r.entries ++ entries⟩

theorem extend_nil (r : Report) : r.extend [] = r := by simp [extend]

theorem extend_append (r : Report) (first second : List ReportEntry) :
    r.extend (first ++ second) = (r.extend first).extend second := by
  simp [extend]

theorem counts_extend (r : Report) (entries : List ReportEntry) :
    (r.extend entries).counts =
      { total := r.counts.total + entries.length
        passed := r.counts.passed + entries.countP fun e => e.verdict.isPass
        failed := r.counts.failed + entries.countP fun e => e.verdict.isFail
        errored := r.counts.errored + entries.countP fun e => e.verdict.isError
        crashed := r.counts.crashed + entries.countP fun e => e.verdict.isCrash
        timeout := r.counts.timeout + entries.countP fun e => e.verdict.isTimeout
        skipped := r.counts.skipped + entries.countP fun e => e.verdict.isSkip } := by
  simp only [extend, Counts.foldl_add, List.countP_map, List.length_map, Function.comp_def]

theorem empty_extend (entries : List ReportEntry) : empty.extend entries = ofEntries entries := by
  simp [extend, empty, ofEntries]

/-- The report `r'` is `r` with more entries, and its counts have room for all of them. -/
def Extends (r : Report) (entries : List ReportEntry) (r' : Report) : Prop :=
  (r.extend entries).counts.fits = true ∧ r' = r.extend entries

variable {r r' : Report}

theorem Extends.fits {entries : List ReportEntry} (h : r.Extends entries r') :
    r'.counts.fits = true := by
  rw [h.2]
  exact h.1

theorem extends_nil (hfits : r.counts.fits = true) : r.Extends [] r' ↔ r = r' := by
  simp [Extends, extend_nil, hfits, eq_comm]

/-- A report that has room for entries has had room for the first of them. -/
theorem extends_append {first second : List ReportEntry} :
    r.Extends (first ++ second) r' ↔ ∃ middle, r.Extends first middle ∧ middle.Extends second r' := by
  simp only [Extends, extend_append]
  constructor
  · intro h
    have hmiddle : (r.extend first).counts.fits = true := Counts.fits_of_fits_foldl h.1
    exact ⟨_, ⟨hmiddle, rfl⟩, h⟩
  · rintro ⟨_, ⟨-, rfl⟩, h⟩
    exact h

theorem add?_eq_some_iff {e : ReportEntry} : r.add? e = some r' ↔ r.Extends [e] r' := by
  have hadd : r.add? e =
      if (r.extend [e]).counts.fits = true then some (r.extend [e]) else none := rfl
  rw [hadd, Option.ite_none_right_eq_some, Option.some_inj]
  exact and_congr_right' eq_comm

/-- Entries added one by one all get in exactly if the counts have room for all of them. -/
theorem foldlM_add?_eq_some_iff (hfits : r.counts.fits = true) {entries : List ReportEntry} :
    entries.foldlM add? r = some r' ↔ r.Extends entries r' := by
  induction entries generalizing r with
  | nil => exact Option.some_inj.trans (extends_nil hfits).symm
  | cons e rest ih =>
    rw [List.foldlM_cons, Option.bind_eq_bind, Option.bind_eq_some_iff, ← List.singleton_append,
      extends_append]
    refine exists_congr fun middle => ?_
    rw [add?_eq_some_iff]
    exact and_congr_right fun hmiddle => ih hmiddle.fits

theorem step?_eq_some_iff (hfits : r.counts.fits = true) {step : ReportStep} :
    r.step? step = some r' ↔ r.Extends (step.entries r.entries) r' := by
  cases step with
  | add e => exact add?_eq_some_iff
  | addVerdict path verdict => exact add?_eq_some_iff
  | merge other => exact foldlM_add?_eq_some_iff hfits
  | mergeSelf => exact foldlM_add?_eq_some_iff hfits

/-- Steps succeed exactly if the counts have room for all that the steps add. -/
theorem run?_eq_some_iff (hfits : r.counts.fits = true) {steps : List ReportStep} :
    r.run? steps = some r' ↔ r.Extends (added r.entries steps) r' := by
  induction steps generalizing r with
  | nil => exact Option.some_inj.trans (extends_nil hfits).symm
  | cons step rest ih =>
    rw [run?, List.foldlM_cons, Option.bind_eq_bind, Option.bind_eq_some_iff, added, extends_append]
    refine exists_congr fun middle => ?_
    rw [step?_eq_some_iff hfits]
    refine and_congr_right fun hmiddle => ?_
    -- the next steps add to what this step leaves
    have hheld : middle.entries = r.entries ++ step.entries r.entries := by rw [hmiddle.2, extend]
    rw [← hheld]
    exact ih hmiddle.fits

/-- The counts of a report are the numbers of its entries of each kind. -/
structure Tallied (r : Report) : Prop where
  total : r.counts.total = r.entries.length
  passed : r.counts.passed = r.entries.countP fun e => e.verdict.isPass
  failed : r.counts.failed = r.entries.countP fun e => e.verdict.isFail
  errored : r.counts.errored = r.entries.countP fun e => e.verdict.isError
  crashed : r.counts.crashed = r.entries.countP fun e => e.verdict.isCrash
  timeout : r.counts.timeout = r.entries.countP fun e => e.verdict.isTimeout
  skipped : r.counts.skipped = r.entries.countP fun e => e.verdict.isSkip

theorem tallied_ofEntries (entries : List ReportEntry) : (ofEntries entries).Tallied := by
  have hcounts : empty.counts = {} := rfl
  have hentries : (empty.extend entries).entries = entries := List.nil_append entries
  rw [← empty_extend]
  constructor <;> simp [counts_extend, hcounts, hentries]

theorem sum_countP_kinds (entries : List ReportEntry) :
    (entries.countP fun e => e.verdict.isPass) + (entries.countP fun e => e.verdict.isFail) +
      (entries.countP fun e => e.verdict.isError) + (entries.countP fun e => e.verdict.isCrash) +
      (entries.countP fun e => e.verdict.isSkip) = entries.length := by
  induction entries with
  | nil => rfl
  | cons e rest ih =>
    have hkinds := e.verdict.sum_kinds
    simp only [toNat_eq_ite] at hkinds
    simp only [List.countP_cons, List.length_cons]
    omega

namespace Tallied

theorem total_eq (h : r.Tallied) : r.counts.total =
    r.counts.passed + r.counts.failed + r.counts.errored + r.counts.crashed + r.counts.skipped := by
  rw [h.total, h.passed, h.failed, h.errored, h.crashed, h.skipped, sum_countP_kinds]

theorem timeout_le (h : r.Tallied) : r.counts.timeout ≤ r.counts.crashed := by
  rw [h.timeout, h.crashed]
  exact List.countP_mono_left fun e _ => Verdict.isCrash_of_isTimeout

theorem fits_iff (h : r.Tallied) :
    r.counts.fits = true ↔ r.entries.length ≤ Json.maxCount := by
  have htotal := h.total_eq
  have htimeout := h.timeout_le
  rw [Counts.fits_iff, ← h.total]
  simp only [Counts.toList, List.forall_mem_cons]
  constructor
  · exact fun hall => hall.1
  · intro hle
    exact ⟨by omega, by omega, by omega, by omega, by omega, by omega, by omega, by simp⟩

theorem isSuccess_iff (h : r.Tallied) : r.isSuccess = true ↔ r.problems = [] := by
  simp only [isSuccess, Bool.and_eq_true, beq_iff_eq, h.failed, h.errored, h.crashed,
    List.countP_eq_zero, problems, List.filter_eq_nil_iff, Verdict.isProblem_iff]
  constructor
  · rintro ⟨⟨hfail, herror⟩, hcrash⟩ e he
    exact not_or_intro (hfail e he) (not_or_intro (herror e he) (hcrash e he))
  · intro hnone
    exact ⟨⟨fun e he hfail => hnone e he (.inl hfail),
      fun e he herror => hnone e he (.inr (.inl herror))⟩,
      fun e he hcrash => hnone e he (.inr (.inr hcrash))⟩

end Tallied

/-- The report records entries: it holds them in their order, counts them by kind, and is a success
exactly if none of them is a problem. -/
structure Records (r : Report) (entries : List ReportEntry) : Prop where
  entries_eq : r.entries = entries
  tallied : r.Tallied
  total_eq : r.counts.total =
    r.counts.passed + r.counts.failed + r.counts.errored + r.counts.crashed + r.counts.skipped
  timeout_le : r.counts.timeout ≤ r.counts.crashed
  isSuccess_iff : r.isSuccess = true ↔ r.problems = []

theorem records_ofEntries (entries : List ReportEntry) : (ofEntries entries).Records entries :=
  have h := tallied_ofEntries entries
  ⟨rfl, h, h.total_eq, h.timeout_le, h.isSuccess_iff⟩

theorem run?_empty {steps : List ReportStep} (h : (added [] steps).length ≤ Json.maxCount) :
    empty.run? steps = some (ofEntries (added [] steps)) := by
  refine (run?_eq_some_iff rfl).2 ?_
  rw [Extends, empty_extend]
  exact ⟨(tallied_ofEntries _).fits_iff.2 h, rfl⟩

theorem added_merge (reports : List Report) (held : List ReportEntry) :
    added held (reports.map .merge) = reports.flatMap entries := by
  induction reports generalizing held with
  | nil => rfl
  | cons r rest ih => rw [List.map_cons, added, ih, ReportStep.entries, List.flatMap_cons]

/-- Combining reports is merging them one after the other. -/
theorem foldlM_merge? {reports : List Report}
    (h : (reports.flatMap entries).length ≤ Json.maxCount) :
    reports.foldlM merge? empty = some (combine reports) := by
  rw [← added_merge reports []] at h
  have hrun := run?_empty h
  rw [run?, List.foldlM_map, added_merge] at hrun
  exact hrun

/-- A report that grows from the empty one by steps, and a combination of reports, record the
entries added, as long as their number can be counted. -/
theorem run?_records :
    (∀ steps, (added [] steps).length ≤ Json.maxCount →
      ∃ r, empty.run? steps = some r ∧ r.Records (added [] steps)) ∧
    ∀ reports : List Report, (reports.flatMap entries).length ≤ Json.maxCount →
      reports.foldlM merge? empty = some (combine reports) ∧
        (combine reports).Records (reports.flatMap entries) :=
  ⟨fun _ hsteps => ⟨_, run?_empty hsteps, records_ofEntries _⟩,
    fun _ hreports => ⟨foldlM_merge? hreports, records_ofEntries _⟩⟩

/-- A report whose counts do not fit its entries. -/
def strayReport : Report where
  counts := { total := 1, failed := 7, timeout := 9, skipped := Json.maxCount }
  entries := [⟨"a.js", .passed, 3, []⟩, ⟨"b.js", .crashed (.timeout 5), 5, ["late"]⟩]

def straySteps : List ReportStep :=
  [.merge strayReport, .addVerdict "c.js" (.skipped "slow"), .mergeSelf]

theorem run?_records_strayReport :
    (added [] straySteps).length ≤ Json.maxCount ∧
      (∃ r, empty.run? straySteps = some r ∧ r.Records (added [] straySteps)) ∧
      (combine [strayReport, strayReport]).Records (strayReport.entries ++ strayReport.entries) := by
  have hsteps : (added [] straySteps).length ≤ Json.maxCount := by decide
  have hreports : ([strayReport, strayReport].flatMap entries).length ≤ Json.maxCount := by decide
  exact ⟨hsteps, run?_records.1 straySteps hsteps, (run?_records.2 _ hreports).2⟩

end Report

end EngineTrials
