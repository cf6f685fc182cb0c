import EngineTrials.Engine.Transcript
import EngineTrials.Verdict.Grade

/-! The verdict on what an engine printed. The transcript of lines is put together from those of the
single lines, so of all lines only the records of mismatches and endings decide. `Judged` says in
which case a verdict is given, without the transcript. -/

namespace EngineTrials

namespace Record

/-- The mismatch that a record reports. -/
def mismatch? : Record → Option Mismatch
  | .assertion mismatch => some mismatch
  | _ => none

/-- The message of a status record. -/
def status? : Record → Option String
  | .status message => some message
  | _ => none

/-- The message of a trace record. -/
def trace? : Record → Option String
  | .trace message => some message
  | _ => none

/-- The ending that a record reports. -/
def ending? : Record → Option Ending
  | .completed value => some (.completed value)
  | .threw exception => some (.threw exception)
  | _ => none

/-- A record that has a say in whether a fixture passes. -/
def Decides (r : Record) : Prop := r.mismatch? ≠ none ∨ r.ending? ≠ none

end Record

namespace Log

/-- A log followed by another one. -/
def append (a b : Log) : Log :=
  { mismatches := a.mismatches ++ b.mismatches
    status := a.status ++ b.status
    trace := a.trace ++ b.trace
    output := a.output ++ b.output
    stderr := a.stderr ++ b.stderr }

theorem append_empty (a : Log) : a.append {} = a := by simp [append]

theorem append_assoc (a b c : Log) : (a.append b).append c = a.append (b.append c) := by
  simp [append]

end Log

namespace Transcript

variable {marker : String} {lines : List (Stream × String)} {exit : Exit} {required expected : Bool}

/-- A transcript followed by another one; the later ending counts. -/
def append (a b : Transcript) : Transcript := ⟨a.log.append b.log, b.ending.or a.ending⟩

theorem append_start (t : Transcript) : t.append start = t := by
  simp [append, start, Log.append_empty]

theorem append_assoc (a b c : Transcript) : (a.append b).append c = a.append (b.append c) := by
  simp [append, Log.append_assoc, Option.or_assoc]

/-- A line adds what it says by itself. -/
theorem accept_eq_append (marker : String) (t : Transcript) (line : Stream × String) :
    accept marker t line = t.append (accept marker start line) := by
  obtain ⟨stream, text⟩ := line
  cases stream with
  | stderr => simp [accept, append, Log.append, start]
  | stdout =>
    cases hread : OutputLine.read marker text with
    | plain => simp [accept, hread, append, Log.append, start]
    | malformed payload => simp [accept, hread, append, Log.append, start]
    | record r => cases r <;> simp [accept, hread, record, append, Log.append, start]

theorem foldl_accept (t : Transcript) (lines : List (Stream × String)) :
    lines.foldl (accept marker) t = t.append (collect marker lines) := by
  induction lines generalizing t with
  | nil => exact t.append_start.symm
  | cons line rest ih =>
    rw [collect, List.foldl_cons, List.foldl_cons, ih, ih (accept marker start line),
      accept_eq_append marker t, append_assoc]

/-- The transcript of lines and further lines is that of the ones followed by that of the others. -/
theorem collect_append (marker : String) (a b : List (Stream × String)) :
    collect marker (a ++ b) = (collect marker a).append (collect marker b) := by
  rw [collect, List.foldl_append, foldl_accept]
  rfl

theorem collect_cons (marker : String) (line : Stream × String) (rest : List (Stream × String)) :
    collect marker (line :: rest) = (accept marker start line).append (collect marker rest) :=
  foldl_accept _ rest

/-- The record that a line spells; a line of the error output spells none. -/
def record? (marker : String) : Stream × String → Option Record
  | (.stderr, _) => none
  | (.stdout, line) =>
    match OutputLine.read marker line with
    | .record r => some r
    | _ => none

/-- The mismatches that lines report, in their order. -/
def mismatches (marker : String) (lines : List (Stream × String)) : List Mismatch :=
  lines.filterMap fun line => (record? marker line).bind Record.mismatch?

/-- The endings that lines report, in their order. -/
def endings (marker : String) (lines : List (Stream × String)) : List Ending :=
  lines.filterMap fun line => (record? marker line).bind Record.ending?

/-- The lines of the error output. -/
def stderrLines (lines : List (Stream × String)) : List String :=
  (lines.filter fun line => line.1 = .stderr).map Prod.snd

/-- What a line says of mismatches, of the ending and on the error output. -/
theorem accept_start (marker : String) (line : Stream × String) :
    (accept marker start line).log.mismatches = mismatches marker [line] ∧
      (accept marker start line).ending = (record? marker line).bind Record.ending? ∧
        (accept marker start line).log.stderr = stderrLines [line] := by
  obtain ⟨stream, text⟩ := line
  cases stream with
  | stderr => exact ⟨rfl, rfl, rfl⟩
  | stdout =>
    cases hread : OutputLine.read marker text with
    | plain => simp [accept, hread, start, record?, mismatches, stderrLines]
    | malformed payload => simp [accept, hread, start, record?, mismatches, stderrLines]
    | record r =>
      cases r <;> simp [accept, hread, record, start, record?, mismatches, stderrLines,
        Record.mismatch?, Record.ending?]

theorem mismatches_collect (marker : String) (lines : List (Stream × String)) :
    (collect marker lines).log.mismatches = mismatches marker lines := by
  induction lines with
  | nil => rfl
  | cons line rest ih =>
    rw [collect_cons]
    change (accept marker start line).log.mismatches ++ _ = _
    rw [(accept_start marker line).1, ih, mismatches, mismatches, mismatches,
      ← List.filterMap_append, List.singleton_append]

theorem stderr_collect (marker : String) (lines : List (Stream × String)) :
    (collect marker lines).log.stderr = stderrLines lines := by
  induction lines with
  | nil => rfl
  | cons line rest ih =>
    rw [collect_cons]
    change (accept marker start line).log.stderr ++ _ = _
    rw [(accept_start marker line).2.2, ih, stderrLines, stderrLines, stderrLines,
      ← List.map_append, ← List.filter_append, List.singleton_append]

/-- Of the endings the last one counts. -/
theorem ending_collect (marker : String) (lines : List (Stream × String)) :
    (collect marker lines).ending = (endings marker lines).getLast? := by
  induction lines with
  | nil => rfl
  | cons line rest ih =>
    rw [collect_cons]
    change (collect marker rest).ending.or (accept marker start line).ending = _
    rw [(accept_start marker line).2.1, ih]
    cases hending : (record? marker line).bind Record.ending? with
    | none => simp [endings, hending]
    | some ending =>
      have hcons : endings marker (line :: rest) = ending :: endings marker rest :=
        List.filterMap_cons_some hending
      rw [hcons, List.getLast?_cons]
      cases (endings marker rest).getLast? <;> rfl

/-- The verdict on a run that printed lines and ended in some way, in each case that can occur;
`required` and `expected` say who wants the success sentinel. -/
inductive Judged (marker : String) (lines : List (Stream × String)) (exit : Exit)
    (required expected : Bool) : Verdict → Prop
  | timedOut {limit} (hexit : exit = .timedOut limit) :
    Judged marker lines exit required expected (.crashed (.timeout (limit / 1000 % UInt64.size)))
  /-- No line reports an ending. -/
  | silent (hexit : ∀ limit, exit ≠ .timedOut limit) (hending : endings marker lines = []) :
    Judged marker lines exit required expected
      (.crashed (.abnormal (crashReason exit (stderrLines lines))))
  | mismatch {first more} (hexit : ∀ limit, exit ≠ .timedOut limit)
    (hending : endings marker lines ≠ []) (hmismatches : mismatches marker lines = first :: more) :
    Judged marker lines exit required expected (.failed (.mismatch first (more.length + 1)))
  | threw {exception} (hexit : ∀ limit, exit ≠ .timedOut limit)
    (hmismatches : mismatches marker lines = [])
    (hending : (endings marker lines).getLast? = some (.threw exception)) :
    Judged marker lines exit required expected (.errored (.uncaught exception))
  | noSentinel {value} (hexit : ∀ limit, exit ≠ .timedOut limit)
    (hmismatches : mismatches marker lines = [])
    (hending : (endings marker lines).getLast? = some (.completed value))
    (hwanted : required = true ∨ expected = true)
    (hvalue : ¬ (value.kind = "string" ∧ value.display = "success")) :
    Judged marker lines exit required expected (.failed (.noSentinel value.message))
  | passed {value} (hexit : ∀ limit, exit ≠ .timedOut limit)
    (hmismatches : mismatches marker lines = [])
    (hending : (endings marker lines).getLast? = some (.completed value))
    (hvalue : required = true ∨ expected = true →
      value.kind = "string" ∧ value.display = "success") :
    Judged marker lines exit required expected .passed

theorem Completion.isSuccess_iff {value : Completion} :
    value.isSuccess = true ↔ value.kind = "string" ∧ value.display = "success" := by
  simp [Completion.isSuccess, successSentinel]

theorem finish_of_not_timedOut {t : Transcript} (hexit : ∀ limit, exit ≠ .timedOut limit) :
    t.finish exit =
      ⟨t.ending.getD (.crashed (crashReason exit t.log.stderr)), t.log⟩ := by
  cases exit with
  | timedOut limit => exact absurd rfl (hexit limit)
  | code n => cases h : t.ending <;> simp [finish, h]
  | signal n dumped => cases h : t.ending <;> simp [finish, h]

/-- Records report how a script ended, and no more. -/
theorem completed_or_threw {ending : Ending} (h : ending ∈ endings marker lines) :
    (∃ value, ending = .completed value) ∨ ∃ exception, ending = .threw exception := by
  obtain ⟨line, -, hline⟩ := List.mem_filterMap.1 h
  obtain ⟨r, -, hr⟩ := Option.bind_eq_some_iff.1 hline
  cases r with
  | completed value => exact .inl ⟨value, (Option.some.inj hr).symm⟩
  | threw exception => exact .inr ⟨exception, (Option.some.inj hr).symm⟩
  | _ => simp [Record.ending?] at hr

/-- In each case the verdict is the one given. -/
theorem grade_of_judged {v : Verdict} (h : Judged marker lines exit required expected v) :
    grade ((collect marker lines).finish exit) (required || expected) = v := by
  cases h with
  | timedOut hexit =>
    subst hexit
    rfl
  | silent hexit hending =>
    rw [finish_of_not_timedOut hexit, ending_collect, hending, stderr_collect]
    rfl
  | @mismatch first more hexit hending hmismatches =>
    rw [finish_of_not_timedOut hexit, ending_collect]
    rw [List.getLast?_eq_some_getLast hending]
    obtain ⟨value, h⟩ | ⟨exception, h⟩ := completed_or_threw (List.getLast_mem hending)
    · simp [grade, h, mismatches_collect, hmismatches]
    · simp [grade, h, mismatches_collect, hmismatches]
  | threw hexit hmismatches hending =>
    rw [finish_of_not_timedOut hexit, ending_collect, hending]
    simp [grade, mismatches_collect, hmismatches]
  | noSentinel hexit hmismatches hending hwanted hvalue =>
    rw [finish_of_not_timedOut hexit, ending_collect, hending]
    rw [← Completion.isSuccess_iff] at hvalue
    simp [grade, mismatches_collect, hmismatches, hwanted, hvalue]
  | passed hexit hmismatches hending hvalue =>
    rw [finish_of_not_timedOut hexit, ending_collect, hending]
    rw [← Completion.isSuccess_iff] at hvalue
    simpa [grade, mismatches_collect, hmismatches] using hvalue

/-- One of the cases occurs. -/
theorem exists_judged (marker : String) (lines : List (Stream × String)) (exit : Exit)
    (required expected : Bool) : ∃ v, Judged marker lines exit required expected v := by
  by_cases hexit : ∃ limit, exit = .timedOut limit
  · obtain ⟨limit, hexit⟩ := hexit
    exact ⟨_, .timedOut hexit⟩
  rw [not_exists] at hexit
  by_cases hending : endings marker lines = []
  · exact ⟨_, .silent hexit hending⟩
  have hlast := List.getLast?_eq_some_getLast hending
  cases hmismatches : mismatches marker lines with
  | cons first more => exact ⟨_, .mismatch hexit hending hmismatches⟩
  | nil =>
    obtain ⟨value, h⟩ | ⟨exception, h⟩ := completed_or_threw (List.getLast_mem hending)
    · rw [h] at hlast
      by_cases hvalue : value.kind = "string" ∧ value.display = "success"
      · exact ⟨_, .passed hexit hmismatches hlast fun _ => hvalue⟩
      · by_cases hwanted : required = true ∨ expected = true
        · exact ⟨_, .noSentinel hexit hmismatches hlast hwanted hvalue⟩
        · exact ⟨_, .passed hexit hmismatches hlast fun h => absurd h hwanted⟩
    · rw [h] at hlast
      exact ⟨_, .threw hexit hmismatches hlast⟩

/-- Whether a fixture passes depends on the mismatches and the endings alone. -/
theorem Judged.passed_of_eq {others : List (Stream × String)}
    (h : Judged marker lines exit required expected .passed)
    (hmismatches : mismatches marker others = mismatches marker lines)
    (hendings : endings marker others = endings marker lines) :
    Judged marker others exit required expected .passed := by
  cases h with
  | passed hexit hnone hlast hvalue =>
    exact .passed hexit (hmismatches.trans hnone) (hendings ▸ hlast) hvalue

/-- A line without a say adds no mismatch and no ending. -/
theorem mismatches_endings_insert (before after : List (Stream × String))
    {line : Stream × String} (hline : ∀ r, record? marker line = some r → ¬ r.Decides) :
    mismatches marker (before ++ line :: after) = mismatches marker (before ++ after) ∧
      endings marker (before ++ line :: after) = endings marker (before ++ after) := by
  have hnone : (record? marker line).bind Record.mismatch? = none ∧
      (record? marker line).bind Record.ending? = none := by
    cases hrecord : record? marker line with
    | none => exact ⟨rfl, rfl⟩
    | some r => simpa [Record.Decides] using hline r hrecord
  simp [mismatches, endings, hnone.1, hnone.2]

/-- The verdict on a run that printed lines and ended in some way. -/
def verdict (marker : String) (lines : List (Stream × String)) (exit : Exit)
    (required expected : Bool) : Verdict :=
  grade ((collect marker lines).finish exit) (required || expected)

theorem verdict_eq_iff_judged {v : Verdict} :
    verdict marker lines exit required expected = v ↔
      Judged marker lines exit required expected v := by
  constructor
  · rintro rfl
    obtain ⟨v, h⟩ := exists_judged marker lines exit required expected
    rwa [verdict, grade_of_judged h]
  · exact grade_of_judged

/-- The verdict is the one of the case that occurs, and a line that is no record of a mismatch or an
ending, wherever it stands, has no say in whether the fixture passes. -/
theorem verdict_by_records (marker : String) (lines : List (Stream × String)) (exit : Exit)
    (required expected : Bool) :
    (∀ v, verdict marker lines exit required expected = v ↔
        Judged marker lines exit required expected v) ∧
      ∀ before line after, lines = before ++ line :: after →
        (∀ r, record? marker line = some r → ¬ r.Decides) →
          (verdict marker lines exit required expected = .passed ↔
            verdict marker (before ++ after) exit required expected = .passed) := by
  refine ⟨fun _ => verdict_eq_iff_judged, ?_⟩
  rintro before line after rfl hline
  obtain ⟨hmismatches, hendings⟩ := mismatches_endings_insert before after hline
  rw [verdict_eq_iff_judged, verdict_eq_iff_judged]
  exact ⟨fun h => h.passed_of_eq hmismatches.symm hendings.symm,
    fun h => h.passed_of_eq hmismatches hendings⟩

/-- A status record. -/
def statusLine : Stream × String :=
  (.stdout, "@\x7b\"event\":\"status\",\"message\":\"at work\"\x7d")

/-- The record of a script that completes with success. -/
def successLine : Stream × String :=
  (.stdout, "@\x7b\"event\":\"completed\",\"type\":\"string\",\"value\":\"success\"\x7d")

/-- The success counts, with the status before it and without it. -/
theorem verdict_by_records_status :
    (∀ r, record? "@" statusLine = some r → ¬ r.Decides) ∧
      verdict "@" [statusLine, successLine] (.code 0) false true = .passed ∧
        verdict "@" [successLine] (.code 0) false true = .passed := by
  have hline : ∀ r, record? "@" statusLine = some r → ¬ r.Decides := by
    intro r hr
    have hstatus : record? "@" statusLine = some (.status "at work") := by
      decide +kernel
    obtain rfl : Record.status "at work" = r := Option.some.inj (hstatus.symm.trans hr)
    simp [Record.Decides, Record.mismatch?, Record.ending?]
  have hmismatches : mismatches "@" [statusLine, successLine] = [] := by decide +kernel
  have hending : (endings "@" [statusLine, successLine]).getLast? =
      some (.completed ⟨"string", "success"⟩) := by decide +kernel
  obtain ⟨hjudged, hinsert⟩ :=
    verdict_by_records "@" [statusLine, successLine] (.code 0) false true
  have hpassed : verdict "@" [statusLine, successLine] (.code 0) false true = .passed :=
    (hjudged _).2 (.passed nofun hmismatches hending fun _ => ⟨rfl, rfl⟩)
  exact ⟨hline, hpassed, (hinsert [] statusLine [successLine] rfl hline).1 hpassed⟩

end Transcript

end EngineTrials
