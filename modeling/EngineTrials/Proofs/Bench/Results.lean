import EngineTrials.Proofs.Bench.Assembly
import EngineTrials.Proofs.Bench.Records
import Mathlib.Data.List.Forall2

/-! The results of a suite: one for each entry point wanted, script by script, whatever the engine
answers. A result is settled by the first record with its name alone. How often the engine is asked
is read off the same run with an engine that keeps a log. -/

namespace EngineTrials

/-! Records. -/

/-- The record is the first one of its name on the lines. -/
def FirstRecord (name : String) (lines : List String) (record : BenchRecord) : Prop :=
  record.name = name ∧ ∃ before line after, lines = before ++ line :: after ∧
    BenchRecord.IsOn line record ∧
      ∀ earlier ∈ before, ∀ other, BenchRecord.IsOn earlier other → other.name ≠ name

/-- The records of a name on lines, in order. -/
inductive RecordsOf (name : String) : List String → List BenchRecord → Prop
  | nil : RecordsOf name [] []
  | record {line : String} {lines : List String} {r : BenchRecord} {records : List BenchRecord} :
      BenchRecord.IsOn line r → r.name = name → RecordsOf name lines records →
      RecordsOf name (line :: lines) (r :: records)
  | other {line : String} {lines : List String} {records : List BenchRecord} :
      (∀ r, BenchRecord.IsOn line r → r.name ≠ name) → RecordsOf name lines records →
      RecordsOf name (line :: lines) records

/-- The records of a name that are read from lines, in order. -/
def recordsOf (name : String) (lines : List String) : List BenchRecord :=
  (lines.filterMap BenchRecord.ofLine?).filter (·.name == name)

section

variable {name line : String} {lines : List String} {record : BenchRecord}

theorem find?_eq_head?_recordsOf (name : String) (lines : List String) :
    (lines.filterMap BenchRecord.ofLine?).find? (·.name == name) =
      (recordsOf name lines).head? :=
  List.head?_filter.symm

theorem recordsOf_cons_of_eq (h : BenchRecord.IsOn line record) (hname : record.name = name) :
    recordsOf name (line :: lines) = record :: recordsOf name lines := by
  simp [recordsOf, BenchRecord.ofLine?_eq_some_iff.2 h, hname]

theorem recordsOf_cons_of_ne (h : ∀ other, BenchRecord.IsOn line other → other.name ≠ name) :
    recordsOf name (line :: lines) = recordsOf name lines := by
  unfold recordsOf
  cases hline : BenchRecord.ofLine? line with
  | none => rw [List.filterMap_cons_none hline]
  | some other =>
    have hne : other.name ≠ name := h other (BenchRecord.ofLine?_eq_some_iff.1 hline)
    rw [List.filterMap_cons_some hline, List.filter_cons, if_neg (by simpa using hne)]

theorem RecordsOf.eq {records : List BenchRecord} (h : RecordsOf name lines records) :
    recordsOf name lines = records := by
  induction h with
  | nil => rfl
  | record hline hname _ ih => rw [recordsOf_cons_of_eq hline hname, ih]
  | other hline _ ih => rw [recordsOf_cons_of_ne hline, ih]

theorem FirstRecord.head? (h : FirstRecord name lines record) :
    (recordsOf name lines).head? = some record := by
  obtain ⟨hname, before, line, after, rfl, hline, hbefore⟩ := h
  induction before with
  | nil => rw [List.nil_append, recordsOf_cons_of_eq hline hname, List.head?_cons]
  | cons first rest ih =>
    rw [List.forall_mem_cons] at hbefore
    rw [List.cons_append, recordsOf_cons_of_ne hbefore.1]
    exact ih hbefore.2

theorem firstRecord_of_head? (h : (recordsOf name lines).head? = some record) :
    FirstRecord name lines record := by
  induction lines with
  | nil => simp [recordsOf] at h
  | cons line rest ih =>
    by_cases hother : ∀ other, BenchRecord.IsOn line other → other.name ≠ name
    · rw [recordsOf_cons_of_ne hother] at h
      obtain ⟨hname, before, found, after, rfl, hfound, hbefore⟩ := ih h
      exact ⟨hname, line :: before, found, after, rfl, hfound,
        List.forall_mem_cons.2 ⟨hother, hbefore⟩⟩
    · push Not at hother
      obtain ⟨first, hline, hname⟩ := hother
      rw [recordsOf_cons_of_eq hline hname, List.head?_cons] at h
      obtain rfl := Option.some.inj h
      exact ⟨hname, [], line, rest, rfl, hline, List.forall_mem_nil _⟩

theorem head?_recordsOf_eq_some_iff :
    (recordsOf name lines).head? = some record ↔ FirstRecord name lines record :=
  ⟨firstRecord_of_head?, FirstRecord.head?⟩

end

/-! The result of a name. -/

/-- A record of calls that were timed to the end. -/
structure BenchRecord.IsComplete (record : BenchRecord) : Prop where
  error : record.error = none
  iterations : record.iterations.isSome = true
  millis : record.totalMillis.isSome = true

namespace BenchResult

theorem name_ofRecord (record : BenchRecord) (script : String) :
    (ofRecord record script).name = record.name := by
  unfold ofRecord
  split <;> rfl

theorem script_ofRecord (record : BenchRecord) (script : String) :
    (ofRecord record script).script = script := by
  unfold ofRecord
  split <;> rfl

theorem success_ofRecord_iff (record : BenchRecord) (script : String) :
    (ofRecord record script).success = true ↔ record.IsComplete := by
  unfold ofRecord
  split
  · rename_i hrecord
    refine iff_of_false (by simp [failed, success]) fun h => ?_
    simp [h.error] at hrecord
  · rename_i herror hiterations hmillis
    exact iff_of_true rfl ⟨herror, by simp [hiterations], by simp [hmillis]⟩
  · rename_i hincomplete
    refine iff_of_false (by simp [failed, success]) fun h => ?_
    obtain ⟨iterations, hiterations⟩ := Option.isSome_iff_exists.1 h.iterations
    obtain ⟨millis, hmillis⟩ := Option.isSome_iff_exists.1 h.millis
    exact hincomplete iterations millis hiterations hmillis

end BenchResult

namespace BenchOptions

/-- The result of one entry point, from the first record of its name if there is one. -/
def resultOf (script : String) (outcome : Outcome) (name : String) : BenchResult :=
  match (recordsOf name outcome.log.output).head? with
  | some record => .ofRecord record script
  | none => .failed name script (unreported outcome.ending)

theorem resultsOf_eq_map (names : List String) (script : String) (outcome : Outcome) :
    resultsOf names script outcome = names.map (resultOf script outcome) := by
  rw [resultsOf]
  refine List.map_congr_left fun name _ => ?_
  cases hfirst : (recordsOf name outcome.log.output).head? with
  | none => simp only [resultOf, find?_eq_head?_recordsOf, hfirst]
  | some record => simp only [resultOf, find?_eq_head?_recordsOf, hfirst]

variable {script name : String} {outcome : Outcome}

theorem name_resultOf : (resultOf script outcome name).name = name := by
  unfold resultOf
  split
  · rename_i record hrecord
    rw [BenchResult.name_ofRecord]
    exact (firstRecord_of_head? hrecord).1
  · rfl

theorem script_resultOf : (resultOf script outcome name).script = script := by
  unfold resultOf
  split
  · exact BenchResult.script_ofRecord ..
  · rfl

theorem success_resultOf_iff : (resultOf script outcome name).success = true ↔
    ∃ record, FirstRecord name outcome.log.output record ∧ record.IsComplete := by
  simp only [← head?_recordsOf_eq_some_iff]
  unfold resultOf
  split
  · rename_i record hrecord
    rw [BenchResult.success_ofRecord_iff]
    constructor
    · intro hcomplete
      exact ⟨record, hrecord, hcomplete⟩
    · rintro ⟨record', hrecord', hcomplete⟩
      obtain rfl := Option.some.inj (hrecord.symm.trans hrecord')
      exact hcomplete
  · rename_i hnone
    refine iff_of_false (by simp [BenchResult.failed, BenchResult.success]) ?_
    rintro ⟨record, hrecord, -⟩
    simp [hnone] at hrecord

end BenchOptions

/-! Running a script. -/

namespace BenchOptions

variable {o : BenchOptions} {fs : FileSystem}

/-- Whether the filter lets a name through. -/
def retains (o : BenchOptions) (name : String) : Bool :=
  o.filter.all fun filter => filter.pattern.selects name

theorem selected_eq_filter (script : BenchScript) :
    o.selected script = script.entryPoints.filter o.retains := by
  unfold selected retains
  cases o.filter with
  | none => simp
  | some filter => rfl

/-- What the engine is asked for a script: nothing for one with no entry point wanted or that cannot
be put together, and one execution for any other. -/
inductive Asks (o : BenchOptions) (fs : FileSystem) (script : BenchScript) : List Execution → Prop
  | idle : o.selected script = [] → Asks o fs script []
  | unloadable {fault : LoadFault} :
      o.assemble fs script (o.selected script) = .error fault → Asks o fs script []
  | once {loaded : LoadedScript} : o.selected script ≠ [] →
      o.assemble fs script (o.selected script) = .ok loaded →
      Asks o fs script [⟨loaded, false, o.timeoutMillis⟩]

theorem execution?_of_idle {script : BenchScript} (h : o.selected script = []) :
    o.execution? fs script = .ok none := by
  rw [execution?, h]

theorem execution?_of_selected {script : BenchScript} (h : o.selected script ≠ []) :
    o.execution? fs script = (o.assemble fs script (o.selected script)).map fun loaded =>
      some ⟨loaded, false, o.timeoutMillis⟩ := by
  unfold execution?
  split
  · rename_i hidle
    exact absurd hidle h
  · rfl

/-- What came of a script: the executions that the engine was asked for and the results. -/
structure Reports (o : BenchOptions) (fs : FileSystem) (engine : Engine) (script : BenchScript)
    (executions : List Execution) (results : List BenchResult) : Prop where
  asks : o.Asks fs script executions
  names : results.map BenchResult.name = o.selected script
  script : ∀ r ∈ results, r.script = script.name
  /-- A success is an execution whose output has a complete record first among those of the
  name. -/
  success : ∀ r ∈ results, r.success = true ↔ ∃ execution ∈ executions, ∃ outcome record,
    engine.execute execution = .outcome outcome ∧
      FirstRecord r.name outcome.log.output record ∧ record.IsComplete

theorem reports_failed {engine : Engine} {script : BenchScript} {executions : List Execution}
    (hasks : o.Asks fs script executions)
    (hno : ∀ execution ∈ executions, ∀ outcome, engine.execute execution ≠ .outcome outcome)
    (error : String) : o.Reports fs engine script executions
      ((o.selected script).map fun name => .failed name script.name error) where
  asks := hasks
  names := by simp [Function.comp_def, BenchResult.failed]
  script := by simp [BenchResult.failed]
  success := by
    intro r hr
    obtain ⟨name, -, rfl⟩ := List.mem_map.1 hr
    refine iff_of_false (by simp [BenchResult.failed, BenchResult.success]) ?_
    rintro ⟨execution, hmem, outcome, record, houtcome, -⟩
    exact hno execution hmem outcome houtcome

theorem reports_resultsOf {engine : Engine} {script : BenchScript} {execution : Execution}
    {outcome : Outcome} (hasks : o.Asks fs script [execution])
    (houtcome : engine.execute execution = .outcome outcome) :
    o.Reports fs engine script [execution]
      (resultsOf (o.selected script) script.name outcome) := by
  rw [resultsOf_eq_map]
  refine ⟨hasks, ?_, ?_, ?_⟩
  · simp [Function.comp_def, name_resultOf]
  · simp [script_resultOf]
  · intro r hr
    obtain ⟨name, -, rfl⟩ := List.mem_map.1 hr
    simp [success_resultOf_iff, name_resultOf, houtcome]

/-! The run of a suite. -/

/-- The engine, with the executions that it is asked for kept in order. -/
def logged (engine : Engine) (x : Execution) : StateM (List Execution) Response := do
  modify (· ++ [x])
  return engine.execute x

theorem runSuite?_cons (o : BenchOptions) (fs : FileSystem) (engine : Engine)
    (script : BenchScript) (rest : List BenchScript) :
    o.runSuite? fs engine ⟨script :: rest⟩ =
      match o.suiteResults? script (o.runScript (m := Id) fs engine.execute script).run with
      | none => none
      | some results => (o.runSuite? fs engine ⟨rest⟩).map (results ++ ·) := rfl

section

variable {engine : Engine} {script : BenchScript} {execution : Execution}

theorem runScript_id_of_some (h : o.execution? fs script = .ok (some execution)) :
    (o.runScript (m := Id) fs engine.execute script).run =
      o.ofResponse script (engine.execute execution) := by
  rw [runScript, h]
  rfl

theorem runScript_logged_of_some (h : o.execution? fs script = .ok (some execution))
    (log : List Execution) : (o.runScript fs (logged engine) script).run log =
      pure (o.ofResponse script (engine.execute execution), log ++ [execution]) := by
  rw [runScript, h]
  rfl

/-- What a script asks the engine for and what it comes to. -/
theorem exists_reports (hengine : ∀ x, engine.execute x ≠ .panicked) (script : BenchScript) :
    ∃ executions results,
      o.suiteResults? script (o.runScript (m := Id) fs engine.execute script).run = some results ∧
      (∀ log, (o.runScript fs (logged engine) script).run log =
        pure ((o.runScript (m := Id) fs engine.execute script).run, log ++ executions)) ∧
      o.Reports fs engine script executions results := by
  by_cases hidle : o.selected script = []
  · simp only [runScript, execution?_of_idle hidle]
    exact ⟨[], [], rfl, fun log => by simp, .idle hidle, by simp [hidle], by simp, by simp⟩
  cases hassemble : o.assemble fs script (o.selected script) with
  | error fault =>
    simp only [runScript, execution?_of_selected hidle, hassemble, Except.map]
    exact ⟨[], _, rfl, fun log => by simp,
      reports_failed (.unloadable hassemble) (by simp) fault.message⟩
  | ok loaded =>
    have hasks : o.Asks fs script [⟨loaded, false, o.timeoutMillis⟩] := .once hidle hassemble
    have hexecution : o.execution? fs script = .ok (some ⟨loaded, false, o.timeoutMillis⟩) := by
      rw [execution?_of_selected hidle, hassemble]
      rfl
    rw [runScript_id_of_some hexecution]
    cases hresponse : engine.execute ⟨loaded, false, o.timeoutMillis⟩ with
    | outcome outcome =>
      refine ⟨_, _, rfl, fun log => ?_, reports_resultsOf hasks hresponse⟩
      rw [runScript_logged_of_some hexecution, hresponse]
    | fault f =>
      refine ⟨_, _, rfl, fun log => ?_, reports_failed hasks (by simp [hresponse]) f.message⟩
      rw [runScript_logged_of_some hexecution, hresponse]
    | panicked => exact absurd hresponse (hengine _)

end

/-- What the scripts of a suite ask the engine for and what they come to, one after the other. -/
theorem exists_allReports {engine : Engine} (hengine : ∀ x, engine.execute x ≠ .panicked)
    (scripts : List BenchScript) : ∃ reports : List (List Execution × List BenchResult),
      List.Forall₂ (fun script r => o.Reports fs engine script r.1 r.2) scripts reports ∧
      o.runSuite? fs engine ⟨scripts⟩ = some (reports.flatMap Prod.snd) ∧
      ∀ log, (o.runScripts fs (logged engine) scripts).run log =
        pure (some (reports.flatMap Prod.snd), log ++ reports.flatMap Prod.fst) := by
  induction scripts with
  | nil => exact ⟨[], .nil, rfl, fun log => by simp [runScripts]⟩
  | cons script rest ih =>
    obtain ⟨executions, results, hresults, hlog, hreports⟩ := exists_reports hengine script
    obtain ⟨reports, hall, hsuite, hlogs⟩ := ih
    refine ⟨(executions, results) :: reports, .cons hreports hall, ?_, fun log => ?_⟩
    · rw [runSuite?_cons, hresults, hsuite]
      rfl
    · simp [runScripts, hlog, hresults, hlogs]

/-! What a result does not depend on. -/

/-- Two responses do not differ for a name: they are the same fault, or outcomes that end alike and
have the same records of the name, whatever stands between them. -/
inductive SameFor (name : String) : Response → Response → Prop
  | outcome {a b : Outcome} {records : List BenchRecord} : a.ending = b.ending →
      RecordsOf name a.log.output records → RecordsOf name b.log.output records →
      SameFor name (.outcome a) (.outcome b)
  | fault (f : EngineFault) : SameFor name (.fault f) (.fault f)

/-- Two results of one name, which are the same if it is the name given. -/
def Settled (name : String) (r r' : BenchResult) : Prop :=
  r.name = r'.name ∧ (r.name = name → r = r')

theorem Settled.refl (name : String) (r : BenchResult) : Settled name r r := ⟨rfl, fun _ => rfl⟩

theorem SameFor.settled {name : String} {a b : Response} (h : SameFor name a b)
    (script : BenchScript) : ∃ results results',
      o.suiteResults? script (o.ofResponse script a) = some results ∧
      o.suiteResults? script (o.ofResponse script b) = some results' ∧
        List.Forall₂ (Settled name) results results' := by
  cases h with
  | fault f =>
    exact ⟨_, _, rfl, rfl, List.forall₂_same.2 fun r _ => .refl name r⟩
  | outcome hending ha hb =>
    refine ⟨_, _, rfl, rfl, ?_⟩
    rw [resultsOf_eq_map, resultsOf_eq_map, List.forall₂_map_left_iff, List.forall₂_map_right_iff,
      List.forall₂_same]
    intro other _
    refine ⟨by rw [name_resultOf, name_resultOf], fun hname => ?_⟩
    obtain rfl : other = name := by rwa [name_resultOf] at hname
    rw [resultOf, resultOf, hending, ha.eq, hb.eq]

theorem settled_runScript {engine engine' : Engine} {name : String}
    (hsame : ∀ x, SameFor name (engine.execute x) (engine'.execute x)) (script : BenchScript) :
    ∃ results results',
      o.suiteResults? script (o.runScript (m := Id) fs engine.execute script).run = some results ∧
      o.suiteResults? script (o.runScript (m := Id) fs engine'.execute script).run = some results' ∧
        List.Forall₂ (Settled name) results results' := by
  unfold runScript
  cases o.execution? fs script with
  | error fault => exact ⟨_, _, rfl, rfl, List.forall₂_same.2 fun r _ => .refl name r⟩
  | ok execution =>
    cases execution with
    | none => exact ⟨[], [], rfl, rfl, .nil⟩
    | some execution => exact (hsame execution).settled script

theorem settled_runSuite? {engine engine' : Engine} {name : String}
    (hsame : ∀ x, SameFor name (engine.execute x) (engine'.execute x))
    (scripts : List BenchScript) :
    ∃ results results', o.runSuite? fs engine ⟨scripts⟩ = some results ∧
      o.runSuite? fs engine' ⟨scripts⟩ = some results' ∧
        List.Forall₂ (Settled name) results results' := by
  induction scripts with
  | nil => exact ⟨[], [], rfl, rfl, .nil⟩
  | cons script rest ih =>
    obtain ⟨first, first', hfirst, hfirst', hsettled⟩ :=
      @settled_runScript o fs _ _ _ hsame script
    obtain ⟨more, more', hmore, hmore', hrest⟩ := ih
    refine ⟨first ++ more, first' ++ more', ?_, ?_, List.rel_append hsettled hrest⟩
    · rw [runSuite?_cons, hfirst, hmore]
      rfl
    · rw [runSuite?_cons, hfirst', hmore']
      rfl

theorem names_reports {engine : Engine} {scripts : List BenchScript}
    {reports : List (List Execution × List BenchResult)}
    (h : List.Forall₂ (fun script r => o.Reports fs engine script r.1 r.2) scripts reports) :
    (reports.flatMap Prod.snd).map BenchResult.name =
      scripts.flatMap fun script => script.entryPoints.filter o.retains := by
  induction h with
  | nil => rfl
  | cons hreports _ ih =>
    rw [List.flatMap_cons, List.flatMap_cons, List.map_append, ih, hreports.names,
      selected_eq_filter]

/-- What a run of a suite comes to, script by script. -/
structure SuiteReports (o : BenchOptions) (fs : FileSystem) (engine : Engine) (suite : BenchSuite)
    (reports : List (List Execution × List BenchResult)) : Prop where
  each : List.Forall₂ (fun script r => o.Reports fs engine script r.1 r.2) suite.scripts reports
  results : o.runSuite? fs engine suite = some (reports.flatMap Prod.snd)
  names : (reports.flatMap Prod.snd).map BenchResult.name =
    suite.scripts.flatMap fun script => script.entryPoints.filter o.retains
  /-- The same run with an engine that keeps a log. -/
  log : (o.runScripts fs (logged engine) suite.scripts).run [] =
    pure (some (reports.flatMap Prod.snd), reports.flatMap Prod.fst)
  /-- No line but those with records of a name has a part in its result. -/
  settled : ∀ name engine', (∀ x, SameFor name (engine.execute x) (engine'.execute x)) →
    ∃ results', o.runSuite? fs engine' suite = some results' ∧
      List.Forall₂ (Settled name) (reports.flatMap Prod.snd) results'

/-- A suite has a result for each entry point wanted, in order, and each script asks the engine for
at most one execution. A result follows from the first record of its name, and a line is a record's
exactly if the object on it tells the record. -/
theorem runSuite?_reports {engine : Engine} (hengine : ∀ x, engine.execute x ≠ .panicked)
    (suite : BenchSuite) : (∃ reports, o.SuiteReports fs engine suite reports) ∧
      ∀ line members, BenchRecord.HoldsObject line members → ∀ r : BenchRecord,
        BenchRecord.IsOn line r ↔ r.Told fun name => Json.valuesNamed name members := by
  obtain ⟨reports, hall, hsuite, hlog⟩ := exists_allReports hengine suite.scripts
  refine ⟨⟨reports, hall, hsuite, names_reports hall, hlog [], fun name engine' hsame => ?_⟩,
    fun line members hline r => hline.isOn_iff⟩
  obtain ⟨results, results', hresults, hresults', hsettled⟩ :=
    settled_runSuite? hsame suite.scripts
  obtain rfl := Option.some.inj (hsuite.symm.trans hresults)
  exact ⟨results', hresults', hsettled⟩

/-- An output with a record of another name, a line that breaks off and records that come twice. -/
def timedLines : List String :=
  ["warming up", "@@bench \x7b\"name\":\"testOther\",\"iterations\":1,\"total_ms\":0.5\x7d",
    "@@bench \x7b\"name\":",
    "@@bench \x7b\"name\":\"testAdd\",\"iterations\":10,\"total_ms\":2.5\x7d",
    "@@bench \x7b\"name\":\"testAdd\",\"error\":\"late\"\x7d",
    "@@bench \x7b\"name\":\"testSlow\",\"error\":\"slow\"\x7d",
    "@@bench \x7b\"name\":\"testSlow\",\"iterations\":10,\"total_ms\":2.5\x7d"]

def timedEngine : Engine where
  name := "timed"
  supports _ := false
  execute _ := .outcome ⟨.completed .undefined, { output := timedLines }⟩

def timedSource : String := "function testAdd() \x7b\x7d\nfunction testSlow() \x7b\x7d"

def timedFiles : FileSystem := ⟨[("bench.js", .ofText timedSource)], ⟨[]⟩⟩

/-- A script that is there and one that is not. -/
def timedSuite : BenchSuite :=
  ⟨[⟨⟨"bench.js"⟩, ["testAdd", "testSlow"]⟩, ⟨⟨"gone.js"⟩, ["testAdd"]⟩]⟩

theorem assemble_timed (names : List String) :
    assemble {} timedFiles ⟨⟨"bench.js"⟩, names⟩ names =
      .ok ⟨[⟨⟨"bench.js"⟩, timedSource⟩], [benchDriver names {}]⟩ := by
  have hsource : timedFiles.textAt ⟨["bench.js"]⟩ = .ok timedSource := by decide +kernel
  have hload : (loader {}).load timedFiles ⟨"bench.js"⟩ =
      .ok (.ofSegments [⟨⟨"bench.js"⟩, timedSource⟩]) :=
    Loader.load_of_noDirectives rfl (by rfl) hsource (by decide +kernel)
  exact assemble_eq_ok_iff.2 ⟨[], _, rfl, hload, rfl⟩

theorem assemble_gone {names : List String} {loaded : LoadedScript} :
    assemble {} timedFiles ⟨⟨"gone.js"⟩, names⟩ names ≠ .ok loaded := by
  intro h
  obtain ⟨-, own, -, hown, -⟩ := assemble_eq_ok_iff.1 h
  obtain ⟨key, -, hkey, -⟩ := Loader.load_spec rfl hown
  have hmissing : timedFiles.locate ⟨"gone.js"⟩ = .error .missing := by rfl
  rw [hmissing] at hkey
  contradiction

theorem firstRecord_timedLines {name : String} :
    (∃ record, FirstRecord name timedLines record ∧ record.IsComplete) ↔
      ((recordsOf name timedLines).head?.any fun r =>
        r.error.isNone && r.iterations.isSome && r.totalMillis.isSome) = true := by
  simp only [← head?_recordsOf_eq_some_iff]
  cases (recordsOf name timedLines).head? with
  | none => simp
  | some record =>
    simp only [Option.some.injEq, exists_eq_left', Option.any_some, Bool.and_eq_true,
      Option.isNone_iff_eq_none]
    exact ⟨fun h => ⟨⟨h.error, h.iterations⟩, h.millis⟩, fun h => ⟨h.1.1, h.1.2, h.2⟩⟩

/-- A success by the first record of its name, a failure by an error in the first, and a failure
for want of a script; the engine is asked once. -/
theorem runSuite?_reports_timedSuite : (∀ x, timedEngine.execute x ≠ .panicked) ∧
    ∃ loaded results,
      (runScripts {} timedFiles (logged timedEngine) timedSuite.scripts).run [] =
        pure (some results, [⟨loaded, false, 60000⟩]) ∧
      results.map (fun r => (r.name, r.success)) =
        [("testAdd", true), ("testSlow", false), ("testAdd", false)] := by
  have hengine : ∀ x, timedEngine.execute x ≠ .panicked := by simp [timedEngine]
  obtain ⟨⟨reports, h⟩, -⟩ := @runSuite?_reports {} timedFiles timedEngine hengine timedSuite
  obtain ⟨⟨asked, here⟩, rest, hhere, hrest, rfl⟩ := List.forall₂_cons_left_iff.1 h.each
  obtain ⟨⟨unasked, gone⟩, _, hgone, hnil, rfl⟩ := List.forall₂_cons_left_iff.1 hrest
  cases hnil
  have hasked : asked = [⟨⟨[⟨⟨"bench.js"⟩, timedSource⟩],
      [benchDriver ["testAdd", "testSlow"] {}]⟩, false, 60000⟩] := by
    cases hhere.asks with
    | idle hidle => contradiction
    | unloadable hfault => exact absurd ((assemble_timed _).symm.trans hfault) (by simp)
    | once _ hloaded =>
      obtain rfl := Except.ok.inj ((assemble_timed _).symm.trans hloaded)
      rfl
  have hunasked : unasked = [] := by
    cases hgone.asks with
    | idle => rfl
    | unloadable => rfl
    | once _ hloaded => exact absurd hloaded assemble_gone
  subst hasked hunasked
  have hsuccess : ∀ r ∈ here, r.success = true ↔ ((recordsOf r.name timedLines).head?.any fun r =>
      r.error.isNone && r.iterations.isSome && r.totalMillis.isSome) = true := by
    intro r hr
    rw [hhere.success r hr, ← firstRecord_timedLines]
    simp [timedEngine]
  have hfailure : ∀ r ∈ gone, r.success = false := by
    intro r hr
    rw [Bool.eq_false_iff, ne_eq, hgone.success r hr]
    simp
  obtain ⟨add, slows, rfl, hadd, hslows⟩ := List.map_eq_cons_iff.1 hhere.names
  obtain ⟨slow, _, rfl, hslow, hnone⟩ := List.map_eq_cons_iff.1 hslows
  obtain rfl := List.map_eq_nil_iff.1 hnone
  obtain ⟨lost, _, rfl, hlost, hnone⟩ := List.map_eq_cons_iff.1 hgone.names
  obtain rfl := List.map_eq_nil_iff.1 hnone
  have hfast : add.success = true := by
    rw [hsuccess add (by simp), hadd]
    decide +kernel
  have hlate : slow.success = false := by
    rw [Bool.eq_false_iff, ne_eq, hsuccess slow (by simp), hslow]
    decide +kernel
  have hgoneFails : lost.success = false := hfailure lost (by simp)
  refine ⟨hengine, _, _, h.log, ?_⟩
  simp [hadd, hslow, hlost, hfast, hlate, hgoneFails]

end BenchOptions

end EngineTrials
