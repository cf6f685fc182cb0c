import EngineTrials.Report.Render
import EngineTrials.Proofs.Report.Tally

/-! When a report can be summed up. The rates are taken of the fixtures that were not skipped, so
there have to be as many fixtures as were skipped. The counts of a report that was read are numbers
of 64 bits, but nothing else is asked of them: they need not fit its entries or one another. -/

namespace EngineTrials

theorem Json.le_of_count? {j : Json} {n : Nat} (h : j.count? = some n) : n ≤ maxCount := by
  cases j with
  | number numeral =>
    simp only [count?, countOfNumeral?, Option.ite_none_right_eq_some, Option.some.injEq] at h
    obtain ⟨⟨-, -, hle⟩, rfl⟩ := h
    exact hle
  | _ => simp [count?] at h

theorem Json.Fields.le_of_required {fields : Json.Fields} {name : String} {n : Nat}
    (h : fields.required name Json.count? = some n) : n ≤ Json.maxCount := by
  obtain ⟨j, -, hj⟩ := Option.bind_eq_some_iff.1 h
  exact Json.le_of_count? hj

namespace Report

open ReportStep (added)

variable {r : Report} {text : String}

/-- The counts of a report that was read fit in 64 bits. -/
theorem fits_of_ofText? (h : ofText? text = some r) : r.counts.fits = true := by
  obtain ⟨j, -, hj⟩ := Option.bind_eq_some_iff.1 h
  simp only [ofJson?, Option.bind_eq_bind, Option.bind_eq_some_iff, Option.pure_def,
    Option.some.injEq] at hj
  obtain ⟨fields, -, total, htotal, passed, hpassed, failed, hfailed, errored, herrored, crashed,
    hcrashed, timeout, htimeout, skipped, hskipped, entries, -, rfl⟩ := hj
  rw [Counts.fits_iff]
  simp only [Counts.toList, List.forall_mem_cons, List.not_mem_nil, false_imp_iff, implies_true,
    and_true]
  open Json.Fields in
  exact ⟨le_of_required htotal, le_of_required hpassed, le_of_required hfailed,
    le_of_required herrored, le_of_required hcrashed, le_of_required htimeout,
    le_of_required hskipped⟩

/-- Every way to sum the report up has a result. -/
structure SumsUp (r : Report) : Prop where
  effectivePassRate : r.effectivePassRate?.isSome = true
  summary : r.summary?.isSome = true
  detailedSummary : r.detailedSummary?.isSome = true
  render : ∀ format, (r.render? format).isSome = true

theorem effectivePassRate?_isSome_iff (r : Report) :
    r.effectivePassRate?.isSome = true ↔ r.counts.skipped ≤ r.counts.total := by
  rw [effectivePassRate?]
  split
  · simpa
  · simpa using Nat.le_of_not_lt ‹_›

theorem sumsUp_iff (r : Report) : r.SumsUp ↔ r.counts.skipped ≤ r.counts.total := by
  rw [← effectivePassRate?_isSome_iff]
  refine ⟨SumsUp.effectivePassRate, fun h => ?_⟩
  have hsummary : r.summary?.isSome = true := by rwa [summary?, Option.isSome_map]
  have hdetailed : r.detailedSummary?.isSome = true := by rwa [detailedSummary?, Option.isSome_map]
  refine ⟨h, hsummary, hdetailed, fun format => ?_⟩
  cases format with
  | text => exact hdetailed
  | json => rfl
  | lines => rfl

/-- Steps on a report that was read all succeed and leave a report that can be summed up in every
way exactly if every count has room for the entries added and, with them, no more are skipped than
there are. -/
theorem exists_run?_sumsUp_iff (h : ofText? text = some r) (steps : List ReportStep) :
    (∃ r', r.run? steps = some r' ∧ r'.SumsUp) ↔
      (r.extend (added r.entries steps)).counts.fits = true ∧
        r.counts.skipped + (added r.entries steps).countP (fun e => e.verdict.isSkip) ≤
          r.counts.total + (added r.entries steps).length := by
  have hsums := sumsUp_iff (r.extend (added r.entries steps))
  rw [counts_extend] at hsums
  simp only [run?_eq_some_iff (fits_of_ofText? h)]
  constructor
  · rintro ⟨r', ⟨hfits, rfl⟩, hr'⟩
    exact ⟨hfits, hsums.1 hr'⟩
  · rintro ⟨hfits, hle⟩
    exact ⟨_, ⟨hfits, rfl⟩, hsums.2 hle⟩

/-- The text of a report with two fixtures skipped out of one. -/
def skippedText : String :=
  "\x7b\"total\": 1, \"passed\": 1, \"failed\": 0, \"errored\": 0, \"crashed\": 0, " ++
    "\"timeout\": 0, \"skipped\": 2, \"entries\": []\x7d"

def skippedReport : Report := ⟨{ total := 1, passed := 1, skipped := 2 }, []⟩

theorem ofText?_skippedText : ofText? skippedText = some skippedReport := by decide +kernel

/-- With one more entry, there are as many fixtures as are skipped. -/
theorem exists_run?_sumsUp_skippedText :
    ofText? skippedText = some skippedReport ∧
      ∃ r, skippedReport.run? [.addVerdict "a.js" .passed] = some r ∧ r.SumsUp :=
  ⟨ofText?_skippedText, (exists_run?_sumsUp_iff ofText?_skippedText _).2 (by decide)⟩

/-- A text can be read as a report that has no effective pass rate and cannot be summed up. -/
theorem not_sumsUp_skippedText : ∃ r, ofText? skippedText = some r ∧ r.effectivePassRate? = none ∧
    r.summary? = none ∧ r.detailedSummary? = none ∧ r.render? .text = none :=
  ⟨skippedReport, ofText?_skippedText, rfl, rfl, rfl, rfl⟩

end Report

end EngineTrials
