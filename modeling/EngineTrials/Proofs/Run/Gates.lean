import EngineTrials.Proofs.Run.Trial
import Mathlib.Data.List.Sort

/-! The gates of a run. A fixture is skipped for the capabilities that its gates ask for and the
engine does not have, and the reason names each of them once. What is named is decided by which
gates there are: neither their order nor a gate that stands twice makes a difference to a trial. -/

namespace EngineTrials

/-- Gates that are the same but for order and repetition ask for the same capabilities. -/
theorem Fixture.requiredCapabilities_congr (f : Fixture) {gates others : List Gate}
    (h : ∀ gate, gate ∈ others ↔ gate ∈ gates) :
    f.requiredCapabilities others = f.requiredCapabilities gates := by
  refine (f.pairwise_requiredCapabilities others).eq_of_mem_iff
    (f.pairwise_requiredCapabilities gates) fun capability => ?_
  simp only [mem_requiredCapabilities, h]

theorem Verdict.isSkip_iff {v : Verdict} : v.isSkip = true ↔ ∃ reason, v = .skipped reason := by
  cases v <;> simp [isSkip]

namespace Runner

/-- The runner with other gates. -/
def withGates (r : Runner) (gates : List Gate) : Runner :=
  { r with settings := { r.settings with gates } }

/-- A gate with its marker in the source keeps the engine out. -/
def Bars (engine : Engine) (source : String) (gate : Gate) : Prop :=
  gate.marker.toList <:+: source.toList ∧ engine.supports gate.capability = false

variable {r : Runner} {fs : FileSystem} {engine : Engine} {found : Found} {source : String}

theorem lacks_iff {capability : String} :
    r.Lacks engine source capability ↔
      ∃ gate ∈ r.settings.gates, Bars engine source gate ∧ gate.capability = capability := by
  constructor
  · rintro ⟨hlacks, gate, hgate, hmarker, rfl⟩
    exact ⟨gate, hgate, ⟨hmarker, hlacks⟩, rfl⟩
  · rintro ⟨gate, hgate, ⟨hmarker, hlacks⟩, rfl⟩
    exact ⟨hlacks, gate, hgate, hmarker, rfl⟩

/-- A trial reads nothing of the gates but the capabilities that they ask for. -/
theorem runFixture_withGates (fs : FileSystem) (engine : Engine) (found : Found)
    {gates : List Gate} (h : ∀ gate, gate ∈ gates ↔ gate ∈ r.settings.gates) :
    (r.withGates gates).runFixture fs engine found = r.runFixture fs engine found := by
  have hmissing : (r.withGates gates).missingCapabilities engine = r.missingCapabilities engine := by
    funext f
    rw [missingCapabilities, missingCapabilities, withGates, f.requiredCapabilities_congr h]
  have hprepare : (r.withGates gates).prepare fs engine found = r.prepare fs engine found := by
    rw [prepare, prepare, hmissing]
    rfl
  rw [runFixture, runFixture, hprepare]
  rfl

/-- What the gates decide of the trial of a fixture with a source. -/
structure DecidedByGates (r : Runner) (fs : FileSystem) (engine : Engine) (found : Found)
    (source : String) (t : Trial) : Prop where
  isSkip_iff : t.entry.verdict.isSkip = true ↔ ∃ gate ∈ r.settings.gates, Bars engine source gate
  /-- The reason for a skip names the capabilities of the gates that keep the engine out. -/
  reason : t.entry.verdict.isSkip = true → ∃ names,
    t.entry.verdict = .skipped ("requires engine capability: " ++ Text.join ", " names) ∧
      names.Pairwise (· < ·) ∧
        ∀ capability, capability ∈ names ↔
          ∃ gate ∈ r.settings.gates, Bars engine source gate ∧ gate.capability = capability
  /-- Gates in another order, or with repetitions, decide the same. -/
  same : ∀ gates : List Gate, (∀ gate, gate ∈ gates ↔ gate ∈ r.settings.gates) →
    (r.withGates gates).runFixture fs engine found = t

theorem ComesTo.isSkip_iff {verdict : Verdict} {status : List String} {executions : List Execution}
    (h : r.ComesTo fs engine found verdict status executions)
    (hlist : ¬ r.skipList.Selects found.relative) (hread : fs.readText found.path = .ok source) :
    verdict.isSkip = true ↔ ∃ gate ∈ r.settings.gates, Bars engine source gate := by
  have hlacking : (∃ capability, r.Lacks engine source capability) ↔
      ∃ gate ∈ r.settings.gates, Bars engine source gate := by
    simp only [lacks_iff]
    constructor
    · rintro ⟨_, gate, hgate, hbars, -⟩
      exact ⟨gate, hgate, hbars⟩
    · rintro ⟨gate, hgate, hbars⟩
      exact ⟨_, gate, hgate, hbars, rfl⟩
  rw [← hlacking]
  rcases h.of_readable hlist hread with ⟨names, rfl, hne, -, hmem⟩ | ⟨hhas, hloaded⟩
  · obtain ⟨name, hname⟩ := List.exists_mem_of_ne_nil names hne
    exact iff_of_true rfl ⟨name, (hmem name).1 hname⟩
  · refine iff_of_false (fun hskip => ?_) (not_exists.2 hhas)
    obtain ⟨reason, rfl⟩ := Verdict.isSkip_iff.1 hskip
    rcases hloaded with ⟨fault, hfault, -⟩ | ⟨hasked, -⟩
    · simp at hfault
    · exact hasked (.inl ⟨reason, rfl⟩)

/-- A fixture that can be read and is not on the skip list is skipped exactly if a gate keeps the
engine out, for the capabilities of all gates that do, each once and in order. -/
theorem runFixture_decidedByGates (hlist : ¬ r.skipList.Selects found.relative)
    (hread : fs.readText found.path = .ok source) :
    r.DecidedByGates fs engine found source (r.runFixture fs engine found) := by
  have hcomes := r.runFixture_comesTo fs engine found
  have hiff := hcomes.isSkip_iff hlist hread
  refine ⟨hiff, fun hskip => ?_, fun gates => runFixture_withGates fs engine found⟩
  obtain ⟨gate, hgate, hbars⟩ := hiff.1 hskip
  obtain ⟨names, hverdict, hsorted, hmem⟩ :=
    hcomes.exists_names hlist hread ⟨_, lacks_iff.2 ⟨gate, hgate, hbars, rfl⟩⟩
  exact ⟨names, hverdict, hsorted, fun capability => (hmem capability).trans lacks_iff⟩

/-- A run with two gates for one capability. -/
def gatedRunner : Runner :=
  ⟨{ gates := [⟨"maps", "Map"⟩, ⟨"async", "await"⟩, ⟨"maps", "Map("⟩, ⟨"modules", "import"⟩] },
    none, [], .empty⟩

def gatedFiles : FileSystem := ⟨[("t.js", .ofText "new Map(await 1)")], ⟨[]⟩⟩

def gatedFixture : Found := ⟨⟨"t.js"⟩, ⟨"/t.js"⟩⟩

/-- Each capability that is missing is named once, whichever gates ask for it. -/
theorem runFixture_decidedByGates_gatedFixture :
    ¬ gatedRunner.skipList.Selects gatedFixture.relative ∧
      gatedFiles.readText gatedFixture.path = .ok "new Map(await 1)" ∧
        gatedRunner.DecidedByGates gatedFiles (.scripted "bare" [] []) gatedFixture
          "new Map(await 1)"
          (gatedRunner.runFixture gatedFiles (.scripted "bare" [] []) gatedFixture) := by
  have hlist : ¬ gatedRunner.skipList.Selects gatedFixture.relative := by
    rintro ⟨e, he, -⟩
    exact List.not_mem_nil he
  have hread : gatedFiles.readText gatedFixture.path = .ok "new Map(await 1)" := by decide +kernel
  exact ⟨hlist, hread, runFixture_decidedByGates hlist hread⟩

example : gatedRunner.missingCapabilities (.scripted "bare" ["modules"] [])
    ⟨⟨"t.js"⟩, "new Map(await 1)"⟩ = ["async", "maps"] := by cbv

end Runner

end EngineTrials
