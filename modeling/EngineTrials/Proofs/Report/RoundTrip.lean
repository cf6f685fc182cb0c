import EngineTrials.Report.Json
import EngineTrials.Proofs.Verdict.RoundTrip

/-! A report is read back from its text. Its numbers are of 64 bits; beyond that nothing is asked of
its counts, which need not fit its entries, nor of its entries and their texts. -/

namespace EngineTrials

open Json (ofString ofNat ofMembers)

namespace ReportEntry

/-- The numbers in an entry are of 64 bits. -/
structure Fits (e : ReportEntry) : Prop where
  verdict : e.verdict.Fits
  duration : e.durationMillis ≤ Json.maxCount

def members (e : ReportEntry) : List (String × Json) :=
  [("path", ofString e.path), ("result", e.verdict.toJson),
    ("duration_ms", ofNat e.durationMillis)] ++
    if e.status = [] then [] else [("status", Json.ofStrings e.status)]

theorem toJson_eq (e : ReportEntry) : e.toJson = ofMembers e.members := rfl

theorem nodup_members (e : ReportEntry) : (e.members.map Prod.fst).Nodup := by
  by_cases hstatus : e.status = []
  · simp [members, hstatus]
  · simp [members, hstatus]

theorem ofJson?_toJson {e : ReportEntry} (h : e.Fits) (room : Nat) :
    ofJson? (room + 5) e.toJson = some e := by
  obtain ⟨fields, hfields, -, hget⟩ :=
    Json.fields?_ofMembers ["path", "result", "duration_ms", "status"] e.nodup_members
  have hstatus : fields.defaulted "status" [] (Json.list? Json.text?) = some e.status := by
    rw [Json.Fields.defaulted, hget "status" (by simp)]
    by_cases hnone : e.status = []
    · simp [members, hnone, List.lookup_cons]
    · simp [members, hnone, List.lookup_cons, Json.list?_ofStrings]
  rw [ofJson?, toJson_eq, hfields]
  simp [Json.Fields.required, hget, members, List.lookup_cons, hstatus,
    Verdict.ofJson?_toJson h.verdict, Json.count?_ofNat h.duration]

@[simp] theorem spellable_toJson (e : ReportEntry) : e.toJson.Spellable := by
  apply Json.spellable_ofMembers
  by_cases hstatus : e.status = []
  · simp [hstatus]
  · simp [hstatus]

end ReportEntry

namespace Report

/-- The numbers in a report are of 64 bits. -/
structure Fits (r : Report) : Prop where
  counts : r.counts.fits = true
  entries : ∀ e ∈ r.entries, e.Fits

def members (r : Report) : List (String × Json) :=
  [("total", ofNat r.counts.total), ("passed", ofNat r.counts.passed),
    ("failed", ofNat r.counts.failed), ("errored", ofNat r.counts.errored),
    ("crashed", ofNat r.counts.crashed), ("timeout", ofNat r.counts.timeout),
    ("skipped", ofNat r.counts.skipped), ("entries", .array (r.entries.map ReportEntry.toJson))]

theorem toJson_eq (r : Report) : r.toJson = ofMembers r.members := rfl

theorem ofJson?_toJson {r : Report} (h : r.Fits) : ofJson? r.toJson = some r := by
  have hnodup : (r.members.map Prod.fst).Nodup := by simp [members]
  obtain ⟨fields, hfields, -, hget⟩ := Json.fields?_ofMembers
    ["total", "passed", "failed", "errored", "crashed", "timeout", "skipped", "entries"] hnodup
  have hcounts : ∀ n ∈ r.counts.toList, Json.count? (ofNat n) = some n := fun n hn =>
    Json.count?_ofNat (by simpa using List.all_eq_true.1 h.counts n hn)
  have hentries : Json.list? (ReportEntry.ofJson? (Json.depthLimit - 2))
      (.array (r.entries.map ReportEntry.toJson)) = some r.entries :=
    Json.list?_map fun e he => ReportEntry.ofJson?_toJson (h.entries e he) 120
  simp only [Counts.toList, List.forall_mem_cons] at hcounts
  rw [ofJson?, toJson_eq, hfields]
  simp [Json.Fields.required, hget, members, List.lookup_cons, hentries, hcounts]

theorem spellable_toJson (r : Report) : r.toJson.Spellable := by
  have hentries : Json.Spellable (.array (r.entries.map ReportEntry.toJson)) := by
    apply Json.Spellable.array
    intro item hitem
    obtain ⟨e, -, rfl⟩ := List.mem_map.1 hitem
    exact e.spellable_toJson
  apply Json.spellable_ofMembers
  simp [hentries]

/-- The text of a report is read as the report. -/
theorem ofText?_toText {r : Report} (h : r.Fits) : ofText? r.toText = some r := by
  rw [ofText?, toText, Json.parse?_pretty r.spellable_toJson]
  exact ofJson?_toJson h

/-- A report with a verdict of each kind and the largest numbers, whose texts hold quotes, control
characters, separators and characters beyond the basic plane. -/
def mixedReport : Report where
  counts :=
    { total := Json.maxCount, passed := 1, failed := 2, errored := 5, crashed := 2, timeout := 0
      skipped := Json.maxCount }
  entries :=
    [ { path := "a\"b\\.js", verdict := .passed },
      { path := "", verdict := .skipped "\u2028\u2029\x00\x1f", status := [""] },
      { path := "c.js", durationMillis := Json.maxCount, status := ["\t", "😀"]
        verdict := .failed (.mismatch ⟨"assertEq", "1", "2\r\n", some "null"⟩ Json.maxCount) },
      { path := "d.js", verdict := .failed (.noSentinel "[object]") },
      { path := "e.js", verdict := .errored (.uncaught ⟨"E", "m", none, some ⟨"lib/e.js"⟩⟩) },
      { path := "f.js", verdict := .errored (.uncaught ⟨"", "", some "at f", none⟩) },
      { path := "g.js", verdict := .errored (.load (.missingDependency "x" ⟨"../x"⟩ ⟨"g.js"⟩)) },
      { path := "h.js", verdict := .errored (.load (.cyclicLoad [⟨"h.js"⟩, ⟨"h.js"⟩])) },
      { path := "i.js", verdict := .errored (.load (.unreadable ⟨"i.js"⟩ "denied")) },
      { path := "j.js", verdict := .crashed (.timeout Json.maxCount) },
      { path := "k.js", verdict := .crashed (.abnormal "signal 11") } ]

theorem ofText?_toText_mixedReport :
    mixedReport.Fits ∧ ofText? mixedReport.toText = some mixedReport := by
  have hentries : ∀ e ∈ mixedReport.entries, e.Fits := by
    intro e he
    simp only [mixedReport, List.mem_cons, List.not_mem_nil, or_false] at he
    obtain rfl | rfl | rfl | rfl | rfl | rfl | rfl | rfl | rfl | rfl | rfl := he
    all_goals exact ⟨by simp [Verdict.Fits, Failure.Fits, Crash.Fits], by simp⟩
  have hfits : mixedReport.Fits := ⟨by decide, hentries⟩
  exact ⟨hfits, ofText?_toText hfits⟩

end Report

end EngineTrials
