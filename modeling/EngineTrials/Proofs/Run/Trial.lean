import EngineTrials.Proofs.Fixture.Capabilities
import EngineTrials.Proofs.Load.Segments
import EngineTrials.Proofs.Run.Pool
import EngineTrials.Proofs.SkipList.Reading

/-! What a fixture comes to. `ComesTo` lists the ways in their order of precedence: the skip list,
the reading of the file, the capabilities, the loading, and at last the engine. From it is read off
when the engine is asked, what each verdict of a run stands for, and that no fixture has a part in
the verdict on another one. -/

namespace EngineTrials

/-- A verdict that is given without the engine. -/
def Verdict.Unasked (v : Verdict) : Prop :=
  (∃ reason, v = .skipped reason) ∨ ∃ fault, v = .errored (.load fault)

theorem not_unasked_grade (o : Outcome) (sentinel : Bool) : ¬ (grade o sentinel).Unasked := by
  unfold grade
  split
  · simp [Verdict.Unasked]
  · simp [Verdict.Unasked]
  · simp [Verdict.Unasked]
  · simp [Verdict.Unasked]
  · split <;> simp [Verdict.Unasked]

/-- The trial with another time. -/
def Trial.lasting (t : Trial) (durationMillis : Nat) : Trial :=
  { t with entry := { t.entry with durationMillis } }

theorem Response.not_unasked_judge (response : Response) (engine : String) (sentinel : Bool) :
    ¬ (response.judge engine sentinel).1.Unasked := by
  cases response with
  | outcome o => exact not_unasked_grade o sentinel
  | fault f => simp [judge, Verdict.Unasked]
  | panicked => simp [judge, Verdict.Unasked]

theorem Response.not_unasked_of_judge {response : Response} {engine : String} {sentinel : Bool}
    {verdict : Verdict} {status : List String}
    (h : response.judge engine sentinel = (verdict, status)) : ¬ verdict.Unasked := by
  have hverdict := response.not_unasked_judge engine sentinel
  rwa [h] at hverdict

namespace Runner

/-- A gate with its marker in the source asks for a capability that the engine does not have. -/
def Lacks (r : Runner) (engine : Engine) (source capability : String) : Prop :=
  engine.supports capability = false ∧
    ∃ gate ∈ r.settings.gates, gate.marker.toList <:+: source.toList ∧ gate.capability = capability

theorem mem_missingCapabilities {r : Runner} {engine : Engine} {f : Fixture} {capability : String} :
    capability ∈ r.missingCapabilities engine f ↔ r.Lacks engine f.source capability := by
  unfold missingCapabilities Lacks
  rw [List.mem_filter, Fixture.mem_requiredCapabilities, and_comm, Bool.not_eq_true']

theorem missingCapabilities_eq_nil {r : Runner} {engine : Engine} {f : Fixture}
    (h : ∀ gate ∈ r.settings.gates, ¬ gate.marker.toList <:+: f.source.toList) :
    r.missingCapabilities engine f = [] := by
  refine List.eq_nil_iff_forall_not_mem.2 fun capability hmem => ?_
  obtain ⟨-, gate, hgate, hmarked, -⟩ := mem_missingCapabilities.1 hmem
  exact h gate hgate hmarked

theorem pairwise_missingCapabilities (r : Runner) (engine : Engine) (f : Fixture) :
    (r.missingCapabilities engine f).Pairwise (· < ·) :=
  (f.pairwise_requiredCapabilities r.settings.gates).filter _

def execution (r : Runner) (script : LoadedScript) : Execution :=
  ⟨script, r.settings.trace, r.settings.timeoutMillis⟩

/-- The verdict on a fixture, the status messages kept for it and what the engine is asked. -/
inductive ComesTo (r : Runner) (fs : FileSystem) (engine : Engine) (found : Found) :
    Verdict → List String → List Execution → Prop
  | listed {e : SkipEntry} : r.skipList.First found.relative e →
      ComesTo r fs engine found (.skipped ("skip list: " ++ e.reason.getD e.glob.pattern)) [] []
  | unreadable {fault : FileFault} : ¬ r.skipList.Selects found.relative →
      fs.readText found.path = .error fault →
      ComesTo r fs engine found
        (.errored (.load (.unreadable found.path fault.message))) [] []
  | lacking {source : String} {names : List String} : ¬ r.skipList.Selects found.relative →
      fs.readText found.path = .ok source → names ≠ [] → names.Pairwise (· < ·) →
      (∀ capability, capability ∈ names ↔ r.Lacks engine source capability) →
      ComesTo r fs engine found
        (.skipped ("requires engine capability: " ++ Text.join ", " names)) [] []
  | unloadable {source : String} {fault : LoadFault} : ¬ r.skipList.Selects found.relative →
      fs.readText found.path = .ok source → (∀ capability, ¬ r.Lacks engine source capability) →
      r.loader.loadFixture fs ⟨found.path, source⟩ = .error fault →
      ComesTo r fs engine found (.errored (.load fault)) [] []
  | executed {source : String} {script : LoadedScript} {verdict : Verdict}
      {status : List String} : ¬ r.skipList.Selects found.relative →
      fs.readText found.path = .ok source → (∀ capability, ¬ r.Lacks engine source capability) →
      r.loader.loadFixture fs ⟨found.path, source⟩ = .ok script →
      (engine.execute (r.execution script)).judge engine.name
        (r.wantsSentinel ⟨found.path, source⟩) = (verdict, status) →
      ComesTo r fs engine found verdict (if verdict.isPass then [] else status)
        [r.execution script]

theorem runFixture_comesTo (r : Runner) (fs : FileSystem) (engine : Engine) (found : Found) :
    r.ComesTo fs engine found (r.runFixture fs engine found).entry.verdict
      (r.runFixture fs engine found).entry.status (r.runFixture fs engine found).executions := by
  by_cases hselects : r.skipList.Selects found.relative
  · obtain ⟨e, hfirst⟩ := SkipList.exists_first_of_selects hselects
    simp only [runFixture, prepare, hfirst.reasonFor?, Found.entry, ite_self]
    exact .listed hfirst
  have hreason := SkipList.reasonFor?_eq_none hselects
  cases hread : fs.readText found.path with
  | error fault =>
    simp only [runFixture, prepare, hreason, Loader.readFixture, hread, Found.entry, ite_self]
    exact .unreadable hselects hread
  | ok source =>
    cases hmissing : r.missingCapabilities engine ⟨found.path, source⟩ with
    | cons name rest =>
      simp only [runFixture, prepare, hreason, Loader.readFixture, hread, hmissing, Found.entry,
        ite_self]
      refine .lacking hselects hread (List.cons_ne_nil name rest) ?_ fun capability => ?_
      · exact hmissing ▸ r.pairwise_missingCapabilities engine ⟨found.path, source⟩
      · rw [← hmissing, mem_missingCapabilities]
    | nil =>
      have hhas : ∀ capability, ¬ r.Lacks engine source capability := by
        intro capability hlacks
        have hmem := mem_missingCapabilities (f := ⟨found.path, source⟩).2 hlacks
        rw [hmissing] at hmem
        exact List.not_mem_nil hmem
      cases hload : r.loader.loadFixture fs ⟨found.path, source⟩ with
      | error fault =>
        simp only [runFixture, prepare, hreason, Loader.readFixture, hread, hmissing, hload,
          Found.entry, ite_self]
        exact .unloadable hselects hread hhas hload
      | ok script =>
        simp only [runFixture, prepare, hreason, Loader.readFixture, hread, hmissing, hload,
          Found.entry]
        exact .executed hselects hread hhas hload rfl

/-- The two texts that a skip can start with differ in their first characters. -/
theorem skipText_ne (a b : String) : "skip list: " ++ a ≠ "requires engine capability: " ++ b := by
  intro h
  have hhead := congrArg (fun s : String => s.toList.head?) h
  rw [String.toList_append, String.toList_append] at hhead
  simp at hhead

namespace ComesTo

variable {r : Runner} {fs : FileSystem} {engine : Engine} {found : Found} {verdict : Verdict}
  {status : List String} {executions : List Execution} {source : String}

/-- The engine is asked once, for the fixture put together, or the verdict is given without it. -/
theorem asked (h : r.ComesTo fs engine found verdict status executions) :
    (verdict.Unasked ∧ executions = []) ∨
      ¬ verdict.Unasked ∧ ∃ source script, fs.readText found.path = .ok source ∧
        r.loader.loadFixture fs ⟨found.path, source⟩ = .ok script ∧
          executions = [r.execution script] := by
  cases h with
  | listed => exact .inl ⟨.inl ⟨_, rfl⟩, rfl⟩
  | unreadable => exact .inl ⟨.inr ⟨_, rfl⟩, rfl⟩
  | lacking => exact .inl ⟨.inl ⟨_, rfl⟩, rfl⟩
  | unloadable => exact .inl ⟨.inr ⟨_, rfl⟩, rfl⟩
  | executed _ hread _ hload hjudge =>
    exact .inr ⟨Response.not_unasked_of_judge hjudge, _, _, hread, hload, rfl⟩

theorem listed_iff (h : r.ComesTo fs engine found verdict status executions) :
    (∃ text, verdict = .skipped ("skip list: " ++ text)) ↔
      r.skipList.Selects found.relative := by
  cases h with
  | listed hfirst => exact ⟨fun _ => hfirst.selects, fun _ => ⟨_, rfl⟩⟩
  | unreadable hlist => simp [hlist]
  | lacking hlist => simp [hlist, (skipText_ne _ _).symm]
  | unloadable hlist => simp [hlist]
  | executed hlist _ _ _ hjudge =>
    refine iff_of_false ?_ hlist
    rintro ⟨text, rfl⟩
    exact Response.not_unasked_of_judge hjudge (.inl ⟨_, rfl⟩)

theorem eq_of_first (h : r.ComesTo fs engine found verdict status executions) {e : SkipEntry}
    (he : r.skipList.First found.relative e) :
    verdict = .skipped ("skip list: " ++ e.reason.getD e.glob.pattern) := by
  cases h with
  | listed hfirst => rw [hfirst.unique he]
  | unreadable hlist => exact absurd he.selects hlist
  | lacking hlist => exact absurd he.selects hlist
  | unloadable hlist => exact absurd he.selects hlist
  | executed hlist => exact absurd he.selects hlist

theorem eq_of_unreadable (h : r.ComesTo fs engine found verdict status executions)
    (hlist : ¬ r.skipList.Selects found.relative) {fault : FileFault}
    (hread : fs.readText found.path = .error fault) :
    verdict = .errored (.load (.unreadable found.path fault.message)) := by
  cases h with
  | listed hfirst => exact absurd hfirst.selects hlist
  | unreadable _ hread' =>
    obtain rfl := Except.error.inj (hread.symm.trans hread')
    rfl
  | lacking _ hread' => simp [hread] at hread'
  | unloadable _ hread' => simp [hread] at hread'
  | executed _ hread' => simp [hread] at hread'

/-- A fixture that can be read is skipped for the capabilities that the engine lacks; if it lacks
none, the fixture is put together. -/
theorem of_readable (h : r.ComesTo fs engine found verdict status executions)
    (hlist : ¬ r.skipList.Selects found.relative) (hread : fs.readText found.path = .ok source) :
    (∃ names, verdict = .skipped ("requires engine capability: " ++ Text.join ", " names) ∧
      names ≠ [] ∧ names.Pairwise (· < ·) ∧
        ∀ capability, capability ∈ names ↔ r.Lacks engine source capability) ∨
      (∀ capability, ¬ r.Lacks engine source capability) ∧
        ((∃ fault, verdict = .errored (.load fault) ∧
          r.loader.loadFixture fs ⟨found.path, source⟩ = .error fault) ∨
          ¬ verdict.Unasked ∧ ∃ script,
            r.loader.loadFixture fs ⟨found.path, source⟩ = .ok script) := by
  cases h with
  | listed hfirst => exact absurd hfirst.selects hlist
  | unreadable _ hread' => simp [hread] at hread'
  | lacking _ hread' hne hsorted hmem =>
    obtain rfl := Except.ok.inj (hread.symm.trans hread')
    exact .inl ⟨_, rfl, hne, hsorted, hmem⟩
  | unloadable _ hread' hhas hload =>
    obtain rfl := Except.ok.inj (hread.symm.trans hread')
    exact .inr ⟨hhas, .inl ⟨_, rfl, hload⟩⟩
  | executed _ hread' hhas hload hjudge =>
    obtain rfl := Except.ok.inj (hread.symm.trans hread')
    exact .inr ⟨hhas, .inr ⟨Response.not_unasked_of_judge hjudge, _, hload⟩⟩

theorem lacking_iff (h : r.ComesTo fs engine found verdict status executions)
    (hlist : ¬ r.skipList.Selects found.relative) (hread : fs.readText found.path = .ok source) :
    (∃ text, verdict = .skipped ("requires engine capability: " ++ text)) ↔
      ∃ capability, r.Lacks engine source capability := by
  rcases h.of_readable hlist hread with ⟨names, rfl, hne, -, hmem⟩ | ⟨hhas, hloaded⟩
  · obtain ⟨name, hname⟩ := List.exists_mem_of_ne_nil names hne
    exact ⟨fun _ => ⟨name, (hmem name).1 hname⟩, fun _ => ⟨_, rfl⟩⟩
  · refine iff_of_false ?_ (not_exists.2 hhas)
    rintro ⟨text, rfl⟩
    rcases hloaded with ⟨fault, hfault, -⟩ | ⟨hasked, -⟩
    · simp at hfault
    · exact hasked (.inl ⟨_, rfl⟩)

theorem exists_names (h : r.ComesTo fs engine found verdict status executions)
    (hlist : ¬ r.skipList.Selects found.relative) (hread : fs.readText found.path = .ok source)
    (hlacks : ∃ capability, r.Lacks engine source capability) :
    ∃ names, verdict = .skipped ("requires engine capability: " ++ Text.join ", " names) ∧
      names.Pairwise (· < ·) ∧
        ∀ capability, capability ∈ names ↔ r.Lacks engine source capability := by
  rcases h.of_readable hlist hread with ⟨names, hverdict, -, hsorted, hmem⟩ | ⟨hhas, -⟩
  · exact ⟨names, hverdict, hsorted, hmem⟩
  · exact absurd hlacks (not_exists.2 hhas)

/-- A fixture that the engine has the capabilities for has a load error exactly if it cannot be put
together. -/
theorem unloadable_iff (h : r.ComesTo fs engine found verdict status executions)
    (hlist : ¬ r.skipList.Selects found.relative) (hread : fs.readText found.path = .ok source)
    (hhas : ∀ capability, ¬ r.Lacks engine source capability) (fault : LoadFault) :
    verdict = .errored (.load fault) ↔
      r.loader.loadFixture fs ⟨found.path, source⟩ = .error fault := by
  rcases h.of_readable hlist hread with ⟨names, -, hne, -, hmem⟩ | ⟨-, hloaded⟩
  · obtain ⟨name, hname⟩ := List.exists_mem_of_ne_nil names hne
    exact absurd ((hmem name).1 hname) (hhas name)
  · rcases hloaded with ⟨fault', rfl, hload⟩ | ⟨hasked, script, hload⟩
    · simp [hload]
    · refine iff_of_false (fun hverdict => hasked (.inr ⟨fault, hverdict⟩)) ?_
      simp [hload]

/-- What the response to the one execution makes of the verdict and the status messages. -/
theorem judged (h : r.ComesTo fs engine found verdict status executions)
    {execution : Execution} (hmem : execution ∈ executions) :
    ∃ source status', fs.readText found.path = .ok source ∧
      (engine.execute execution).judge engine.name (r.wantsSentinel ⟨found.path, source⟩) =
        (verdict, status') ∧
      status = if verdict.isPass then [] else status' := by
  cases h with
  | listed => simp at hmem
  | unreadable => simp at hmem
  | lacking => simp at hmem
  | unloadable => simp at hmem
  | executed _ hread _ _ hjudge =>
    obtain rfl := List.mem_singleton.1 hmem
    exact ⟨_, _, hread, hjudge, rfl⟩

end ComesTo

/-- A fixture that nothing is in the way of and that loads nothing is judged by the engine's answer
to its source. -/
theorem runFixture_of_alone {r : Runner} {fs : FileSystem} {engine : Engine} {found : Found}
    {key : Location} {source : String} (hskip : r.skipList = .empty)
    (hkey : fs.locate found.path = .ok key) (hsource : fs.textAt key = .ok source)
    (hgates : ∀ gate ∈ r.settings.gates, ¬ gate.marker.toList <:+: source.toList)
    (hhelpers : r.loader.implicitIncludesFor fs found.path = [])
    (hnone : loadDirectives source = []) :
    r.runFixture fs engine found =
      let execution := r.execution (.ofSegments [⟨found.path, source⟩])
      let judged := (engine.execute execution).judge engine.name
        (r.wantsSentinel ⟨found.path, source⟩)
      ⟨found.entry (millisOf (engine.elapsedMicros found.path)) judged.1 judged.2,
        [execution]⟩ := by
  have hread := FileSystem.readText_eq_ok.2 ⟨key, hkey, hsource⟩
  have hlisted : r.skipList.reasonFor? found.relative = none := by
    rw [hskip]
    rfl
  have hmissing : r.missingCapabilities engine ⟨found.path, source⟩ = [] :=
    missingCapabilities_eq_nil hgates
  simp only [runFixture, prepare, hlisted, Loader.readFixture, hread, hmissing,
    Loader.loadFixture_of_alone hkey hhelpers hnone, execution]

/-- Another engine that answers alike where the engine is asked for a fixture makes no difference
to its trial but for the time. -/
theorem runFixture_congr {r : Runner} {fs : FileSystem} {engine other : Engine} {found : Found}
    (hname : other.name = engine.name) (hsupports : other.supports = engine.supports)
    (hexecute : ∀ execution ∈ (r.runFixture fs engine found).executions,
      other.execute execution = engine.execute execution) :
    r.runFixture fs other found =
      (r.runFixture fs engine found).lasting (millisOf (other.elapsedMicros found.path)) := by
  have hprepare : r.prepare fs other found = r.prepare fs engine found := by
    simp only [prepare, missingCapabilities, hsupports]
  unfold runFixture at hexecute ⊢
  rw [hprepare]
  cases hprepared : r.prepare fs engine found with
  | settled verdict => rfl
  | ready fixture execution =>
    simp only [hprepared, List.mem_singleton, forall_eq] at hexecute
    simp only [hexecute, hname]
    rfl

/-- What decides the trial of a fixture. -/
structure Decides (r : Runner) (fs : FileSystem) (engine : Engine) (found : Found) (t : Trial) :
    Prop where
  path : t.entry.path = found.path.text
  /-- The engine is not asked for a skip or a load error. -/
  unasked : t.entry.verdict.Unasked → t.executions = []
  /-- It is asked once for any other verdict, to execute the fixture put together. -/
  asked : ¬ t.entry.verdict.Unasked → ∃ source script, fs.readText found.path = .ok source ∧
    r.loader.loadFixture fs ⟨found.path, source⟩ = .ok script ∧
      t.executions = [r.execution script]
  listed : (∃ text, t.entry.verdict = .skipped ("skip list: " ++ text)) ↔
    r.skipList.Selects found.relative
  reason : ∀ e, r.skipList.First found.relative e →
    t.entry.verdict = .skipped ("skip list: " ++ e.reason.getD e.glob.pattern)
  unreadable : ¬ r.skipList.Selects found.relative → ∀ fault,
    fs.readText found.path = .error fault →
      t.entry.verdict = .errored (.load (.unreadable found.path fault.message))
  lacking : ¬ r.skipList.Selects found.relative → ∀ source, fs.readText found.path = .ok source →
    ((∃ text, t.entry.verdict = .skipped ("requires engine capability: " ++ text)) ↔
      ∃ capability, r.Lacks engine source capability)
  capabilities : ¬ r.skipList.Selects found.relative → ∀ source,
    fs.readText found.path = .ok source → (∃ capability, r.Lacks engine source capability) →
      ∃ names,
        t.entry.verdict = .skipped ("requires engine capability: " ++ Text.join ", " names) ∧
          names.Pairwise (· < ·) ∧
            ∀ capability, capability ∈ names ↔ r.Lacks engine source capability
  unloadable : ¬ r.skipList.Selects found.relative → ∀ source,
    fs.readText found.path = .ok source → (∀ capability, ¬ r.Lacks engine source capability) →
      ∀ fault, t.entry.verdict = .errored (.load fault) ↔
        r.loader.loadFixture fs ⟨found.path, source⟩ = .error fault
  /-- Status messages are kept only of an outcome that is no pass. -/
  status : t.entry.status ≠ [] → ∃ execution ∈ t.executions, ∃ o,
    engine.execute execution = .outcome o ∧ t.entry.status = o.log.status ∧
      t.entry.verdict ≠ .passed
  outcome : ∀ execution ∈ t.executions, ∀ o, engine.execute execution = .outcome o →
    ∃ source, fs.readText found.path = .ok source ∧
      t.entry.verdict = grade o (r.wantsSentinel ⟨found.path, source⟩)
  fault : ∀ execution ∈ t.executions, ∀ f, engine.execute execution = .fault f →
    t.entry.verdict = .crashed (.abnormal ("engine error: " ++ f.message))
  panicked : ∀ execution ∈ t.executions, engine.execute execution = .panicked →
    t.entry.verdict =
      .crashed (.abnormal ("engine adapter '" ++ engine.name ++ "' panicked"))
  /-- Only the time of the trial may differ, whatever the engine answers for other fixtures. -/
  alone : ∀ other : Engine, other.name = engine.name → other.supports = engine.supports →
    (∀ execution ∈ t.executions, other.execute execution = engine.execute execution) →
      r.runFixture fs other found = t.lasting (millisOf (other.elapsedMicros found.path))

theorem ComesTo.exists_outcome_of_status {r : Runner} {fs : FileSystem} {engine : Engine}
    {found : Found} {verdict : Verdict} {status : List String} {executions : List Execution}
    (h : r.ComesTo fs engine found verdict status executions) (hstatus : status ≠ []) :
    ∃ execution ∈ executions, ∃ o, engine.execute execution = .outcome o ∧
      status = o.log.status ∧ verdict ≠ .passed := by
  cases h with
  | @executed source script verdict status _ _ _ _ hjudge =>
    refine ⟨_, List.mem_singleton_self _, ?_⟩
    cases hresponse : engine.execute (r.execution script) with
    | outcome o =>
      simp only [hresponse, Response.judge, Prod.mk.injEq] at hjudge
      obtain ⟨-, rfl⟩ := hjudge
      cases verdict with
      | passed => simp [Verdict.isPass] at hstatus
      | _ => exact ⟨o, rfl, by simp [Verdict.isPass], by simp⟩
    | fault f =>
      simp only [hresponse, Response.judge, Prod.mk.injEq] at hjudge
      simp [← hjudge.2] at hstatus
    | panicked =>
      simp only [hresponse, Response.judge, Prod.mk.injEq] at hjudge
      simp [← hjudge.2] at hstatus
  | _ => simp at hstatus

theorem runFixture_decides (r : Runner) (fs : FileSystem) (engine : Engine) (found : Found) :
    r.Decides fs engine found (r.runFixture fs engine found) := by
  have h := r.runFixture_comesTo fs engine found
  have hpath : (r.runFixture fs engine found).entry.path = found.path.text := by
    unfold runFixture
    split <;> rfl
  exact
    { path := hpath
      unasked := fun hunasked => by
        rcases h.asked with ⟨-, hnone⟩ | ⟨hasked, -⟩
        · exact hnone
        · exact absurd hunasked hasked
      asked := fun hasked => by
        rcases h.asked with ⟨hunasked, -⟩ | ⟨-, hexecuted⟩
        · exact absurd hunasked hasked
        · exact hexecuted
      listed := h.listed_iff
      reason := fun e he => h.eq_of_first he
      unreadable := fun hlist fault hread => h.eq_of_unreadable hlist hread
      lacking := fun hlist source hread => h.lacking_iff hlist hread
      capabilities := fun hlist source hread => h.exists_names hlist hread
      unloadable := fun hlist source hread hhas => h.unloadable_iff hlist hread hhas
      status := h.exists_outcome_of_status
      outcome := fun execution hmem o ho => by
        obtain ⟨source, status, hread, hjudge, -⟩ := h.judged hmem
        rw [ho] at hjudge
        exact ⟨source, hread, (congrArg Prod.fst hjudge).symm⟩
      fault := fun execution hmem f hf => by
        obtain ⟨source, status, -, hjudge, -⟩ := h.judged hmem
        rw [hf] at hjudge
        exact (congrArg Prod.fst hjudge).symm
      panicked := fun execution hmem hpanicked => by
        obtain ⟨source, status, -, hjudge, -⟩ := h.judged hmem
        rw [hpanicked] at hjudge
        exact (congrArg Prod.fst hjudge).symm
      alone := fun other hname hsupports hexecute => runFixture_congr hname hsupports hexecute }

/-- In a run, one fixture after the other or several at a time, each fixture gets the trial that
the skip list, its file, the engine's capabilities and the engine's answer to it decide, and the
engine is asked nothing else. -/
theorem runAll_decides (r : Runner) (fs : FileSystem) (engine : Engine) (fixtures : List Found) :
    List.Forall₂ (r.Decides fs engine) fixtures (r.runAll fs engine fixtures).trials ∧
      (r.runAll fs engine fixtures).executions.Perm
        ((r.runAll fs engine fixtures).trials.flatMap Trial.executions) := by
  refine ⟨?_, r.executions_runAll_perm fs engine fixtures⟩
  rw [trials_runAll, List.forall₂_map_right_iff, List.forall₂_same]
  exact fun found _ => r.runFixture_decides fs engine found

end Runner

end EngineTrials
