import EngineTrials.Proofs.Load.Order
import EngineTrials.Proofs.Load.Trail
import Mathlib.Data.Set.Card

/-! How long loading takes. Whatever the files hold, a run ends; it nests no deeper than there are
files that the fixture needs, and enters each of them once at most, and the fixture once more. A run
never nests into a file that is being loaded, and what it has entered and left is included, so what
it enters is new: `Fresh` is kept from directive to directive. -/

namespace EngineTrials

namespace Loader

variable {loader : Loader} {fs : FileSystem} {path origin : Path} {chain keys later : List Location}
  {directives : List LoadDirective} {key : Location} {source : String} {p middle : Progress}
  {log : List Entered} {outcome : Except LoadFault Progress}

/-- The files that a fixture and its helper files lead to. -/
def neededFiles (loader : Loader) (fs : FileSystem) (path : Path) : Set Location :=
  {key | loader.Needs fs path key ∧ (fs.bytesAt key).isOk = true}

theorem finite_neededFiles (loader : Loader) (fs : FileSystem) (path : Path) :
    (loader.neededFiles fs path).Finite :=
  fs.files.finite_toSet.subset fun _ hkey => FileSystem.mem_files_of_bytesAt hkey.2

theorem length_le_ncard (hnodup : keys.Nodup)
    (hkeys : ∀ key ∈ keys, key ∈ loader.neededFiles fs path) :
    keys.length ≤ (loader.neededFiles fs path).ncard := by
  calc keys.length = keys.toFinset.card := (List.toFinset_card_of_nodup hnodup).symm
    _ = (keys.toFinset : Set Location).ncard := (Set.ncard_coe_finset _).symm
    _ ≤ (loader.neededFiles fs path).ncard :=
      Set.ncard_le_ncard (fun key hkey => hkeys key (by simpa using hkey))
        (loader.finite_neededFiles fs path)

theorem Trail.mem_neededFiles (h : loader.Trail fs path chain) (hkey : key ∈ chain) :
    key ∈ loader.neededFiles fs path := by
  obtain ⟨source, hsource⟩ := h.texts key hkey
  exact ⟨h.needs hkey, FileSystem.bytesAt_isOk_of_textAt hsource⟩

/-- What is entered below the files of `chain` is new, each file once, and if the run succeeds it is
what has been included. -/
structure Fresh (chain : List Location) (p : Progress) (outcome : Except LoadFault Progress)
    (keys : List Location) : Prop where
  nodup : keys.Nodup
  not_pending : ∀ key ∈ keys, key ∉ chain
  not_included : ∀ key ∈ keys, key ∉ p.included
  grows : ∀ q, outcome = .ok q → q.included.Perm (keys ++ p.included)

namespace Fresh

theorem done (chain : List Location) (p : Progress) : Fresh chain p (.ok p) [] where
  nodup := .nil
  not_pending := List.forall_mem_nil _
  not_included := List.forall_mem_nil _
  grows := by rintro q ⟨⟩; exact .refl _

theorem failed (chain : List Location) (p : Progress) (fault : LoadFault) :
    Fresh chain p (.error fault) [] where
  nodup := .nil
  not_pending := List.forall_mem_nil _
  not_included := List.forall_mem_nil _
  grows := nofun

theorem kept (h : Fresh chain p (.ok middle) keys) : p.included ⊆ middle.included :=
  fun _ hkey => (h.grows middle rfl).mem_iff.2 (List.mem_append_right _ hkey)

theorem added (h : Fresh chain p (.ok middle) keys) : keys ⊆ middle.included :=
  fun _ hkey => (h.grows middle rfl).mem_iff.2 (List.mem_append_left _ hkey)

/-- What includes a file has grown by it. -/
theorem emit_grows {segment : Segment} (h : Fresh chain p outcome keys) {q : Progress}
    (hq : outcome.map (·.emit key segment) = .ok q) :
    q.included.Perm (key :: keys ++ p.included) := by
  cases outcome with
  | error fault => simp [Except.map] at hq
  | ok below =>
    obtain rfl := Except.ok.inj hq
    exact (h.grows below rfl).cons key

/-- A new file is entered, and then what it asks for. -/
theorem enter (h : Fresh (chain ++ [key]) p outcome keys) (segment : Segment) (hchain : key ∉ chain)
    (hnew : key ∉ p.included) :
    Fresh chain p (outcome.map (·.emit key segment)) (key :: keys) where
  nodup := List.nodup_cons.2 ⟨fun hmem => h.not_pending key hmem (by simp), h.nodup⟩
  not_pending := List.forall_mem_cons.2
    ⟨hchain, fun k hk hpending => h.not_pending k hk (List.mem_append_left _ hpending)⟩
  not_included := List.forall_mem_cons.2 ⟨hnew, h.not_included⟩
  grows := fun _ hq => h.emit_grows hq

/-- What comes later is new to what has been included before. -/
theorem append (h : Fresh chain p (.ok middle) keys) (hlater : Fresh chain middle outcome later) :
    Fresh chain p outcome (keys ++ later) where
  nodup := List.nodup_append.2 ⟨h.nodup, hlater.nodup, fun a ha b hb => by
    rintro rfl
    exact hlater.not_included a hb (h.added ha)⟩
  not_pending := List.forall_mem_append.2 ⟨h.not_pending, hlater.not_pending⟩
  not_included := List.forall_mem_append.2 ⟨h.not_included,
    fun k hk hold => hlater.not_included k hk (h.kept hold)⟩
  grows := by
    intro q hq
    have hgrown := (hlater.grows q hq).trans ((h.grows middle rfl).append_left later)
    rw [← List.append_assoc] at hgrown
    exact hgrown.trans (List.perm_append_comm.append_right _)

end Fresh

theorem RunsAll.fresh (h : RunsAll loader fs chain origin directives p log outcome) :
    Fresh chain p outcome (log.map Entered.key) := by
  induction h with
  | done chain origin p => exact .done chain p
  | missing => exact .failed ..
  | unlocated => exact .failed ..
  | cyclic => exact .failed ..
  | known _ _ _ _ _ ih => exact ih
  | unreadable => exact .failed ..
  | stops _ _ hchain hnew _ _ ih => exact ih.enter default hchain hnew
  | enter _ _ hchain hnew _ _ _ ih1 ih2 =>
    rw [List.map_cons, List.map_append, ← List.cons_append]
    exact (ih1.enter _ hchain hnew).append ih2

theorem Runs.fresh (h : Runs loader fs [] path key source p log outcome)
    (hnew : key ∉ p.included) : Fresh [] p outcome (log.map Entered.key) := by
  obtain ⟨below, result, rfl, rfl, hbelow⟩ := h
  exact hbelow.fresh.enter _ List.not_mem_nil hnew

theorem Runs.grows (h : Runs loader fs [] path key source p log (.ok middle)) :
    middle.included.Perm (log.map Entered.key ++ p.included) := by
  obtain ⟨below, result, rfl, hmiddle, hbelow⟩ := h
  exact hbelow.fresh.emit_grows hmiddle.symm

theorem RunsIncludes.fresh {fixtureKey : Location} {paths : List Path}
    (h : RunsIncludes loader fs fixtureKey paths p log outcome) :
    Fresh [] p outcome (log.map Entered.key) := by
  induction h with
  | done p => exact .done [] p
  | unlocated => exact .failed ..
  | known _ _ _ ih => exact ih
  | unreadable => exact .failed ..
  | stops _ hnew _ hrun => exact hrun.fresh (not_or.1 hnew).2
  | enter _ hnew _ hrun _ ih =>
    rw [List.map_append]
    exact (hrun.fresh (not_or.1 hnew).2).append ih

/-- The files that a run enters are all different, but for the fixture, which may come once more. -/
theorem RunsLoad.exists_once {outcome : Except LoadFault LoadedScript}
    (h : RunsLoad loader fs path log outcome) :
    ∃ (extra : Option Location) (once : List Location), once.Nodup ∧
      (∀ key, extra = some key → fs.locate path = .ok key) ∧
        (log.map Entered.key).Perm (extra.toList ++ once) := by
  cases h with
  | unreadable => exact ⟨none, [], .nil, nofun, .nil⟩
  | unlocated => exact ⟨none, [], .nil, nofun, .nil⟩
  | stops _ _ hhelpers => exact ⟨none, _, hhelpers.fresh.nodup, nofun, .refl _⟩
  | @enter _ key log _ helped _ _ hkey hhelpers hrun =>
    obtain ⟨below, result, rfl, -, hbelow⟩ := hrun
    refine ⟨some key, log.map Entered.key ++ below.map Entered.key, ?_, ?_, ?_⟩
    · refine List.nodup_append.2 ⟨hhelpers.fresh.nodup, hbelow.fresh.nodup, fun a ha b hb => ?_⟩
      rintro rfl
      exact hbelow.fresh.not_included a hb (hhelpers.fresh.added ha)
    · rintro _ ⟨⟩
      exact locate_eq_ok.1 hkey
    · rw [List.map_append, List.map_cons]
      exact List.perm_middle

theorem Assembled.perm_segments (h : Assembled loader fs p) (hkeys : p.included.Perm keys) :
    (p.segments.map fun s => fs.locate s.path).Perm (keys.map .ok) := by
  rw [h.located]
  exact ((List.reverse_perm _).trans hkeys).map _

/-- What a run enters is bounded by the files that the fixture needs. -/
structure Bounded (loader : Loader) (fs : FileSystem) (path : Path) (log : List Entered) :
    Prop where
  /-- Loading nests no deeper than there are files. -/
  depth : ∀ e ∈ log, e.above.length + 1 ≤ (loader.neededFiles fs path).ncard
  /-- Only files that are needed are entered. -/
  needed : ∀ e ∈ log, e.key ∈ loader.neededFiles fs path
  /-- Each is entered once at most, -/
  once : ∀ key, fs.locate path ≠ .ok key → (log.map Entered.key).count key ≤ 1
  /-- and the fixture once more. -/
  twice : ∀ key, (log.map Entered.key).count key ≤ 2
  length : log.length ≤ (loader.neededFiles fs path).ncard + 1

namespace RunsLoad

variable {outcome : Except LoadFault LoadedScript}

theorem depth_le (h : RunsLoad loader fs path log outcome) {e : Entered} (he : e ∈ log) :
    e.above.length + 1 ≤ (loader.neededFiles fs path).ncard := by
  have htrail := h.trail e he
  simpa using length_le_ncard htrail.nodup fun key hkey => htrail.mem_neededFiles hkey

theorem mem_neededFiles (h : RunsLoad loader fs path log outcome) {e : Entered} (he : e ∈ log) :
    e.key ∈ loader.neededFiles fs path :=
  (h.trail e he).mem_neededFiles (List.mem_append_right _ List.mem_cons_self)

theorem count_le_one (h : RunsLoad loader fs path log outcome) (hkey : fs.locate path ≠ .ok key) :
    (log.map Entered.key).count key ≤ 1 := by
  obtain ⟨extra, once, hnodup, hfixture, hperm⟩ := h.exists_once
  have hextra : key ∉ extra.toList := fun hmem => hkey (hfixture key (Option.mem_toList.1 hmem))
  rw [hperm.count_eq, List.count_append, List.count_eq_zero_of_not_mem hextra, Nat.zero_add]
  exact List.nodup_iff_count_le_one.1 hnodup key

theorem count_le_two (h : RunsLoad loader fs path log outcome) (key : Location) :
    (log.map Entered.key).count key ≤ 2 := by
  obtain ⟨extra, once, hnodup, -, hperm⟩ := h.exists_once
  rw [hperm.count_eq, List.count_append]
  have hextra : extra.toList.count key ≤ 1 :=
    List.count_le_length.trans Option.length_toList_le
  have honce : once.count key ≤ 1 := List.nodup_iff_count_le_one.1 hnodup key
  omega

theorem length_le (h : RunsLoad loader fs path log outcome) :
    log.length ≤ (loader.neededFiles fs path).ncard + 1 := by
  obtain ⟨extra, once, hnodup, -, hperm⟩ := h.exists_once
  have honce : once.length ≤ (loader.neededFiles fs path).ncard := by
    refine length_le_ncard hnodup fun key hkey => ?_
    obtain ⟨e, he, rfl⟩ := List.mem_map.1 (hperm.mem_iff.2 (List.mem_append_right _ hkey))
    exact h.mem_neededFiles he
  have hextra : extra.toList.length ≤ 1 := Option.length_toList_le
  have hlength := hperm.length_eq
  rw [List.length_map, List.length_append] at hlength
  omega

/-- A run that succeeds makes a segment of each file that it enters. -/
theorem perm_segments (h : RunsLoad loader fs path log outcome) {script : LoadedScript}
    (hscript : outcome = .ok script) :
    (script.segments.map fun s => fs.locate s.path).Perm (log.map fun e => .ok e.key) := by
  cases h with
  | unreadable => simp at hscript
  | unlocated => simp at hscript
  | stops => simp at hscript
  | @enter source key log later helped result hfixture hkey hhelpers hrun =>
    cases result with
    | error fault => simp [Except.map] at hscript
    | ok q =>
      obtain rfl := Except.ok.inj hscript
      have hlocate := locate_eq_ok.1 hkey
      have hhelped := visitIncludes_eq_ok_iff.1 hhelpers.outcome_eq.symm
      have hvisits := (visits_iff hlocate (textAt_of_readText hfixture hlocate)).1
        hrun.outcome_eq.symm
      have hassembled : Assembled loader fs q := hvisits.assembled (hhelped.assembled .start)
      have hgrown := hrun.grows.trans ((hhelpers.fresh.grows helped rfl).append_left _)
      rw [Progress.start, List.append_nil] at hgrown
      have hfiles := hassembled.perm_segments (hgrown.trans List.perm_append_comm)
      rw [← List.map_append, List.map_map] at hfiles
      simp only [LoadedScript.segments, LoadedScript.ofSegments, List.append_nil]
      exact hfiles

theorem bounded (h : RunsLoad loader fs path log outcome) : loader.Bounded fs path log where
  depth := fun _ he => h.depth_le he
  needed := fun _ he => h.mem_neededFiles he
  once := fun _ hkey => h.count_le_one hkey
  twice := h.count_le_two
  length := h.length_le

end RunsLoad

/-- Loading ends: there is a run, and every run ends with what is loaded, having entered no more
than the files that the fixture needs, the fixture once more among them. What it has entered are the
files of the segments if it succeeds. -/
theorem load_ends (loader : Loader) (fs : FileSystem) (path : Path) :
    (∃ log, RunsLoad loader fs path log (loader.load fs path)) ∧
      ∀ log outcome, RunsLoad loader fs path log outcome →
        outcome = loader.load fs path ∧ loader.Bounded fs path log ∧
          ∀ script, outcome = .ok script →
            (script.segments.map fun s => fs.locate s.path).Perm (log.map fun e => .ok e.key) :=
  ⟨exists_runsLoad loader fs path,
    fun _ _ h => ⟨h.outcome_eq, h.bounded, fun _ hscript => h.perm_segments hscript⟩⟩

/-- What is entered when the helper file loads the fixture. -/
def circleLog : List Entered :=
  [⟨[], ⟨["h.js"]⟩⟩, ⟨[⟨["h.js"]⟩], ⟨["t.js"]⟩⟩, ⟨[], ⟨["t.js"]⟩⟩]

theorem runsLoad_circleFiles :
    ∃ script, RunsLoad rootLoader circleFiles ⟨"/t.js"⟩ circleLog (.ok script) := by
  have hlocH : circleFiles.locate ⟨"/h.js"⟩ = .ok ⟨["h.js"]⟩ := by rfl
  have hlocT : circleFiles.locate (rootLoader.resolve "t.js") = .ok ⟨["t.js"]⟩ := by rfl
  have hH : circleFiles.textAt ⟨["h.js"]⟩ = .ok "load('t.js')" := by decide +kernel
  have hT : circleFiles.textAt ⟨["t.js"]⟩ = .ok "t" := by decide +kernel
  have hasksT : loadDirectives "load('t.js')" = [⟨"t.js", 1⟩] := by decide +kernel
  have hnone : loadDirectives "t" = [] := by decide +kernel
  have hhelpers : rootLoader.implicitIncludesFor circleFiles ⟨"/t.js"⟩ = [⟨"/h.js"⟩] := by rfl
  let withT := Progress.start.emit ⟨["t.js"]⟩ ⟨rootLoader.resolve "t.js", "t"⟩
  let withH := withT.emit ⟨["h.js"]⟩ ⟨⟨"/h.js"⟩, "load('t.js')"⟩
  have hbelow : ∀ chain path p, RunsAll rootLoader circleFiles chain path (loadDirectives "t") p []
      (.ok p) := by
    rw [hnone]
    exact .done
  have hhelper : Runs rootLoader circleFiles [] ⟨"/h.js"⟩ ⟨["h.js"]⟩ "load('t.js')" .start
      [⟨[], ⟨["h.js"]⟩⟩, ⟨[⟨["h.js"]⟩], ⟨["t.js"]⟩⟩] (.ok withH) := by
    refine ⟨⟨[⟨["h.js"]⟩], ⟨["t.js"]⟩⟩ :: ([] ++ []), .ok withT, rfl, rfl, ?_⟩
    rw [hasksT]
    exact .enter (FileSystem.isFile_of_textAt hlocT hT) (locate_eq_ok.2 hlocT) (by decide)
      (by decide) hT (hbelow ..) (.done ..)
  have hfixture : Runs rootLoader circleFiles [] ⟨"/t.js"⟩ ⟨["t.js"]⟩ "t" withH
      [⟨[], ⟨["t.js"]⟩⟩] (.ok (withH.emit ⟨["t.js"]⟩ ⟨⟨"/t.js"⟩, "t"⟩)) :=
    ⟨[], .ok withH, rfl, rfl, hbelow ..⟩
  have hread : circleFiles.readText ⟨"/t.js"⟩ = .ok "t" :=
    FileSystem.readText_eq_ok.2 ⟨_, hlocT, hT⟩
  have hincludes : RunsIncludes rootLoader circleFiles ⟨["t.js"]⟩
      (rootLoader.implicitIncludesFor circleFiles ⟨"/t.js"⟩) .start
      ([⟨[], ⟨["h.js"]⟩⟩, ⟨[⟨["h.js"]⟩], ⟨["t.js"]⟩⟩] ++ []) (.ok withH) := by
    rw [hhelpers]
    exact .enter (locate_eq_ok.2 hlocH) (by decide) (readAt_eq_ok.2 hH) hhelper (.done _)
  exact ⟨_, .enter hread (locate_eq_ok.2 hlocT) hincludes hfixture⟩

/-- A fixture that its helper file loads is entered twice. -/
theorem load_ends_circleFiles : ∃ script,
    RunsLoad rootLoader circleFiles ⟨"/t.js"⟩ circleLog (.ok script) ∧
      .ok script = rootLoader.load circleFiles ⟨"/t.js"⟩ ∧
        rootLoader.Bounded circleFiles ⟨"/t.js"⟩ circleLog := by
  obtain ⟨script, hrun⟩ := runsLoad_circleFiles
  obtain ⟨hload, hbounded, -⟩ := (load_ends rootLoader circleFiles ⟨"/t.js"⟩).2 _ _ hrun
  exact ⟨script, hrun, hload, hbounded⟩

end Loader

end EngineTrials
