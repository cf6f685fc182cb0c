import EngineTrials.Proofs.Load.Graph
import EngineTrials.Run.Basic
import Mathlib.Data.List.Perm.Basic

/-! The workers of a pool in any order of their steps. `Moves` lists what a step can do. Each job is
always in the queue, in a worker's hands or answered, and once only; so when the workers have left,
the slots hold the answers to the jobs in the order of the jobs. Every move brings the end nearer,
which bounds the length of a schedule in which no worker is forgotten. -/

namespace EngineTrials

/-- A bound on the moves that a worker still makes without another job. -/
def Worker.weight {α β : Type} : Worker α β → Nat
  | .idle => 1
  | .holding _ _ => 3
  | .answered _ _ => 2
  | .gone => 0

/-- A bound on the moves that workers still make without another job. -/
def Worker.weights {α β : Type} : List (Worker α β) → Nat
  | [] => 0
  | worker :: rest => worker.weight + weights rest

theorem Worker.weights_append {α β : Type} (before after : List (Worker α β)) :
    weights (before ++ after) = weights before + weights after := by
  induction before with
  | nil => simp [weights]
  | cons worker rest ih => rw [List.cons_append, weights, weights, ih, Nat.add_assoc]

theorem Worker.weights_idle {α β : Type} (count : Nat) :
    weights (List.replicate count (.idle : Worker α β)) = count := by
  induction count with
  | zero => rfl
  | succ count ih => rw [List.replicate_succ, weights, ih, weight, Nat.add_comm]

namespace Pool

variable {α β : Type} {run : α → β} {jobs : List α} {pool next : Pool α β}

theorem mem_numbered {items : List α} {place : Nat} {item : α} :
    (place, item) ∈ numbered items ↔ items[place]? = some item := by
  simp [numbered, List.mem_zipIdx_iff_getElem?]

theorem numbered_map (items : List α) (f : α → β) :
    numbered (items.map f) = (numbered items).map fun item => (item.1, f item.2) := by
  simp [numbered, List.zipIdx_map]

theorem map_snd_numbered (items : List α) : (numbered items).map Prod.snd = items := by
  simp [numbered, Function.comp_def]

/-- The jobs that have not been run: those in the queue and those in the hands of workers. -/
def openJobs (pool : Pool α β) : List (Nat × α) :=
  pool.queue ++ pool.workers.filterMap Worker.job?

/-- Each job is open or answered, and no other; an answer is in the hands of a worker or in its
slot. -/
structure Accounts (run : α → β) (jobs : List α) (pool : Pool α β) : Prop where
  each : (pool.answers ++ pool.openJobs.map fun job => (job.1, run job.2)).Perm
    (numbered (jobs.map run))
  kept : ∀ slot answer, (slot, answer) ∈ pool.answers →
    .answered slot answer ∈ pool.workers ∨ pool.slots[slot]? = some (some answer)
  given : ∀ slot answer, .answered slot answer ∈ pool.workers → (slot, answer) ∈ pool.answers
  slots : pool.slots.length = jobs.length
  left : .gone ∈ pool.workers → pool.queue = []

theorem accounts_start (run : α → β) (workers : Nat) (jobs : List α) :
    Accounts run jobs (start workers jobs) where
  each := by
    have hidle : (List.replicate workers (.idle : Worker α β)).filterMap Worker.job? = [] := by
      simp [List.filterMap_replicate, Worker.job?]
    simp [start, openJobs, hidle, numbered_map]
  kept := by simp [start]
  given := by simp [start]
  slots := by simp [start]
  left := by simp [start]

/-- What one worker can do to a pool: take the next job, leave, run the job in its hands, or store
the answer. -/
inductive Moves (run : α → β) : Pool α β → Pool α β → Prop
  | take {slot job queue before after slots answers} :
    Moves run ⟨(slot, job) :: queue, before ++ .idle :: after, slots, answers⟩
      ⟨queue, before ++ .holding slot job :: after, slots, answers⟩
  | leave {before after slots answers} :
    Moves run ⟨[], before ++ .idle :: after, slots, answers⟩
      ⟨[], before ++ .gone :: after, slots, answers⟩
  | run {slot job queue before after slots answers} :
    Moves run ⟨queue, before ++ .holding slot job :: after, slots, answers⟩
      ⟨queue, before ++ .answered slot (run job) :: after, slots, answers ++ [(slot, run job)]⟩
  | store {slot answer queue before after slots answers} :
    Moves run ⟨queue, before ++ .answered slot answer :: after, slots, answers⟩
      ⟨queue, before ++ .idle :: after, slots.set slot (some answer), answers⟩

/-- A step of a worker that has not left is a move. -/
theorem moves_step (run : α → β) {worker : Nat} {state : Worker α β}
    (hw : pool.workers[worker]? = some state) (hlive : state.isGone = false) :
    Moves run pool (step run pool worker) := by
  obtain ⟨queue, workers, slots, answers⟩ := pool
  obtain ⟨before, after, rfl, rfl⟩ :
      ∃ before after, workers = before ++ state :: after ∧ before.length = worker := by
    obtain ⟨hlt, rfl⟩ := List.getElem?_eq_some_iff.1 hw
    exact ⟨_, _, (List.take_append_drop worker workers).symm.trans
      (congrArg _ (List.getElem_cons_drop hlt).symm), List.length_take_of_le (Nat.le_of_lt hlt)⟩
  have hset : ∀ other : Worker α β,
      (before ++ state :: after).set before.length other = before ++ other :: after := by
    intro other
    rw [List.set_append_right _ _ (Nat.le_refl _), Nat.sub_self, List.set_cons_zero]
  simp only [step, hw, hset]
  cases state with
  | idle =>
    cases queue with
    | nil => exact .leave
    | cons job rest => exact .take
  | holding slot job => exact .run
  | answered slot answer => exact .store
  | gone => simp [Worker.isGone] at hlive

/-- A step of a worker that has left, or is not there, is none. -/
theorem step_eq_self {worker : Nat}
    (hw : ∀ state, pool.workers[worker]? = some state → state.isGone = true) :
    step run pool worker = pool := by
  cases hstate : pool.workers[worker]? with
  | none => simp only [step, hstate]
  | some state =>
    have hgone := hw state hstate
    cases state with
    | gone => simp only [step, hstate]
    | _ => simp [Worker.isGone] at hgone

theorem moves_or_eq (run : α → β) (pool : Pool α β) (worker : Nat) :
    Moves run pool (step run pool worker) ∨ step run pool worker = pool := by
  by_cases h : ∃ state, pool.workers[worker]? = some state ∧ state.isGone = false
  · obtain ⟨state, hw, hlive⟩ := h
    exact .inl (moves_step run hw hlive)
  · exact .inr (step_eq_self fun state hw => by simpa using fun hlive => h ⟨state, hw, hlive⟩)

/-- What every move keeps holds after any schedule. -/
theorem advance_induction {P : Pool α β → Prop}
    (hmove : ∀ {pool next}, Moves run pool next → P pool → P next) (h : P pool)
    (schedule : List Nat) : P (pool.advance run schedule) := by
  induction schedule generalizing pool with
  | nil => exact h
  | cons worker rest ih =>
    refine ih ?_
    obtain hstep | hstep := moves_or_eq run pool worker
    · exact hmove hstep h
    · rw [hstep]
      exact h

/-- An answer is the one to the job of its slot. -/
theorem Accounts.getElem?_eq (h : Accounts run jobs pool) {slot : Nat} {answer : β}
    (ha : (slot, answer) ∈ pool.answers) : (jobs.map run)[slot]? = some answer :=
  mem_numbered.1 (h.each.mem_iff.1 (List.mem_append_left _ ha))

/-- A move keeps the account of the jobs. -/
theorem Moves.accounts (hmove : Moves run pool next) (h : Accounts run jobs pool) :
    Accounts run jobs next := by
  cases hmove with
  | @take slot job queue before after slots answers =>
    have hopen : (openJobs ⟨queue, before ++ .holding slot job :: after, slots, answers⟩).Perm
        (openJobs ⟨(slot, job) :: queue, before ++ .idle :: after, slots, answers⟩) := by
      simp only [openJobs, List.filterMap_append, List.filterMap_cons, Worker.job?]
      rw [← List.append_assoc]
      exact List.perm_middle.trans (by simp)
    exact
      { each := ((hopen.map _).append_left answers).trans h.each
        kept := fun s a ha => by simpa using h.kept s a ha
        given := fun s a ha => h.given s a (by simpa using ha)
        slots := h.slots
        left := fun hgone => by simpa using h.left (by simpa using hgone) }
  | @leave before after slots answers =>
    exact
      { each := by simpa [openJobs, List.filterMap_cons, Worker.job?] using h.each
        kept := fun s a ha => by simpa using h.kept s a ha
        given := fun s a ha => h.given s a (by simpa using ha)
        slots := h.slots
        left := fun _ => rfl }
  | @run slot job queue before after slots answers =>
    have hopen : (openJobs ⟨queue, before ++ .holding slot job :: after, slots, answers⟩).Perm
        ((slot, job) :: openJobs ⟨queue, before ++ .answered slot (run job) :: after, slots,
          answers ++ [(slot, run job)]⟩) := by
      simp only [openJobs, List.filterMap_append, List.filterMap_cons, Worker.job?]
      rw [← List.append_assoc, ← List.append_assoc]
      exact List.perm_middle
    refine
      { each := by simpa using ((hopen.map _).append_left answers).symm.trans h.each
        kept := fun s a ha => ?_
        given := fun s a ha => ?_
        slots := h.slots
        left := fun hgone => h.left (by simpa using hgone) }
    · have hkept := h.kept s a
      simp only [List.mem_append, List.mem_cons, List.not_mem_nil, or_false, Prod.mk.injEq,
        Worker.answered.injEq, reduceCtorEq, false_or] at ha hkept ⊢
      tauto
    · have hgiven := h.given s a
      simp only [List.mem_append, List.mem_cons, List.not_mem_nil, or_false, Prod.mk.injEq,
        Worker.answered.injEq, reduceCtorEq, false_or] at ha hgiven ⊢
      tauto
  | @store slot answer queue before after slots answers =>
    have hanswer := h.given slot answer (by simp)
    refine
      { each := by simpa [openJobs, List.filterMap_cons, Worker.job?] using h.each
        kept := fun s a ha => ?_
        given := fun s a ha => h.given s a ?_
        slots := by simpa using h.slots
        left := fun hgone => h.left (by simpa using hgone) }
    · by_cases hs : slot = s
      · subst hs
        obtain rfl : answer = a :=
          Option.some.inj ((h.getElem?_eq hanswer).symm.trans (h.getElem?_eq ha))
        obtain ⟨hlt, -⟩ := List.getElem?_eq_some_iff.1 (h.getElem?_eq ha)
        rw [List.length_map, ← h.slots] at hlt
        exact .inr (List.getElem?_set_self hlt)
      · have hkept := h.kept s a ha
        simpa [List.getElem?_set_ne hs, Ne.symm hs] using hkept
    · simp only [List.mem_append, List.mem_cons, reduceCtorEq, false_or] at ha ⊢
      tauto

theorem Moves.length_workers (hmove : Moves run pool next) :
    next.workers.length = pool.workers.length := by
  cases hmove <;> simp

/-- After any schedule each job is accounted for. -/
theorem accounts_advance_start (run : α → β) (workers : Nat) (jobs : List α)
    (schedule : List Nat) : Accounts run jobs ((start workers jobs).advance run schedule) :=
  advance_induction Moves.accounts (accounts_start run workers jobs) schedule

theorem length_workers_advance (run : α → β) (pool : Pool α β) (schedule : List Nat) :
    (pool.advance run schedule).workers.length = pool.workers.length :=
  advance_induction (P := fun next => next.workers.length = pool.workers.length)
    (fun hmove h => hmove.length_workers.trans h) rfl schedule

/-- Once the workers have left and the queue is empty, no job is open. -/
theorem openJobs_eq_nil (hdone : pool.isDone = true) (hqueue : pool.queue = []) :
    pool.openJobs = [] := by
  rw [openJobs, hqueue, List.nil_append, List.filterMap_eq_nil_iff]
  intro worker hworker
  have hgone := List.all_eq_true.1 hdone worker hworker
  cases worker with
  | gone => rfl
  | _ => simp [Worker.isGone] at hgone

/-- Once the workers have left, each job has been run once. -/
theorem Accounts.answers_perm (h : Accounts run jobs pool) (hdone : pool.isDone = true)
    (hqueue : pool.queue = []) : pool.answers.Perm (numbered (jobs.map run)) := by
  simpa [openJobs_eq_nil hdone hqueue] using h.each

/-- Once the workers have left, each slot holds the answer to its job. -/
theorem Accounts.slots_eq (h : Accounts run jobs pool) (hdone : pool.isDone = true)
    (hqueue : pool.queue = []) : pool.slots = jobs.map fun job => some (run job) := by
  refine List.ext_getElem (by rw [h.slots, List.length_map]) fun slot hslot hjob => ?_
  rw [List.length_map] at hjob
  have hanswer : (slot, run jobs[slot]) ∈ pool.answers := by
    rw [(h.answers_perm hdone hqueue).mem_iff, mem_numbered]
    simp [hjob]
  obtain hworker | hstored := h.kept _ _ hanswer
  · simpa [Worker.isGone] using List.all_eq_true.1 hdone _ hworker
  · simpa [List.getElem?_eq_getElem hslot] using hstored

/-- A bound on the moves that are left. -/
def remaining (pool : Pool α β) : Nat := 3 * pool.queue.length + Worker.weights pool.workers

theorem Moves.remaining_lt (hmove : Moves run pool next) : next.remaining < pool.remaining := by
  cases hmove
  all_goals
    simp only [remaining, Worker.weights_append, Worker.weights, Worker.weight, List.length_cons]
    omega

theorem remaining_advance_le (run : α → β) (pool : Pool α β) (schedule : List Nat) :
    (pool.advance run schedule).remaining ≤ pool.remaining :=
  advance_induction (P := fun next => next.remaining ≤ pool.remaining)
    (fun hmove h => Nat.le_trans (Nat.le_of_lt hmove.remaining_lt) h) (Nat.le_refl _) schedule

/-- A schedule with a turn of a worker that has not left brings the end nearer. -/
theorem remaining_advance_lt (run : α → β) {schedule : List Nat} {worker : Nat}
    {state : Worker α β} (hw : pool.workers[worker]? = some state) (hlive : state.isGone = false)
    (hturn : worker ∈ schedule) : (pool.advance run schedule).remaining < pool.remaining := by
  induction schedule generalizing pool with
  | nil => simp at hturn
  | cons first rest ih =>
    obtain hmove | heq := moves_or_eq run pool first
    · exact Nat.lt_of_le_of_lt (remaining_advance_le run _ rest) hmove.remaining_lt
    · have hother : worker ≠ first := by
        rintro rfl
        have hmove := (moves_step run hw hlive).remaining_lt
        rw [heq] at hmove
        exact Nat.lt_irrefl _ hmove
      have hrest := ih hw ((List.mem_cons.1 hturn).resolve_left hother)
      rw [advance, List.foldl_cons, heq]
      exact hrest

theorem exists_live (hdone : ¬ pool.isDone = true) :
    ∃ (worker : Nat) (state : Worker α β), pool.workers[worker]? = some state ∧
      state.isGone = false := by
  simp only [isDone, List.all_eq_true, not_forall, Bool.not_eq_true] at hdone
  obtain ⟨state, hstate, hlive⟩ := hdone
  obtain ⟨worker, hw⟩ := List.getElem?_of_mem hstate
  exact ⟨worker, state, hw, hlive⟩

/-- No step brings back a worker that has left. -/
theorem isDone_advance (schedule : List Nat) (hdone : pool.isDone = true) :
    (pool.advance run schedule).isDone = true := by
  refine advance_induction (P := fun pool => pool.isDone = true) (fun hmove h => ?_) hdone schedule
  -- a move takes a worker that has not left
  cases hmove <;> simp [isDone, Worker.isGone] at h

/-- Enough rounds in which no worker is forgotten end with all workers gone. -/
theorem isDone_advance_rounds (run : α → β) {count : Nat} (hcount : pool.remaining ≤ count) :
    (pool.advance run (List.replicate count (List.range pool.workers.length)).flatten).isDone =
      true := by
  induction count generalizing pool with
  | zero =>
    by_contra hdone
    obtain ⟨worker, state, hw, hlive⟩ := exists_live hdone
    have hlt := remaining_advance_lt run hw hlive (List.mem_singleton_self worker)
    exact absurd hcount (Nat.not_le_of_lt (Nat.zero_lt_of_lt hlt))
  | succ count ih =>
    rw [List.replicate_succ, List.flatten_cons, advance, List.foldl_append]
    change ((pool.advance run (List.range pool.workers.length)).advance run _).isDone = true
    by_cases hdone : pool.isDone = true
    · exact isDone_advance _ (isDone_advance _ hdone)
    · obtain ⟨worker, state, hw, hlive⟩ := exists_live hdone
      have hturn : worker ∈ List.range pool.workers.length :=
        List.mem_range.2 (List.getElem?_eq_some_iff.1 hw).1
      have hlt := remaining_advance_lt run hw hlive hturn
      have hle : (pool.advance run (List.range pool.workers.length)).remaining ≤ count := by omega
      have hrest := ih hle
      rwa [length_workers_advance] at hrest

theorem remaining_start (workers : Nat) (jobs : List α) :
    (start workers jobs : Pool α β).remaining = 3 * jobs.length + workers := by
  simp [remaining, start, numbered, Worker.weights_idle]

theorem length_workers_start (workers : Nat) (jobs : List α) :
    (start workers jobs : Pool α β).workers.length = workers := List.length_replicate

/-- Workers that take turns leave in the end, whatever has happened before. -/
theorem isDone_advance_append_rounds (run : α → β) (workers : Nat) (jobs : List α)
    (schedule : List Nat) :
    ((start workers jobs).advance run (schedule ++ rounds workers jobs.length)).isDone = true := by
  have hle := remaining_advance_le run (start workers jobs) schedule
  rw [remaining_start] at hle
  have hrounds := isDone_advance_rounds run hle
  rw [length_workers_advance, length_workers_start] at hrounds
  rw [advance, List.foldl_append]
  exact hrounds

/-- Workers leave only when the queue is empty, if there are any where there are jobs. -/
theorem queue_eq_nil {workers : Nat} {schedule : List Nat} (hworkers : jobs ≠ [] → 0 < workers)
    (hdone : ((start workers jobs).advance run schedule).isDone = true) :
    ((start workers jobs).advance run schedule).queue = [] := by
  have h := accounts_advance_start run workers jobs schedule
  by_cases hjobs : jobs = []
  · subst hjobs
    have hnone := h.each.length_eq
    rw [List.map_nil, numbered, List.zipIdx_nil, List.map_nil, List.length_nil, openJobs,
      List.map_append] at hnone
    simp only [List.length_append, List.length_map, Nat.add_eq_zero_iff,
      List.length_eq_zero_iff] at hnone
    exact hnone.2.1
  · have hlength := length_workers_advance run (start workers jobs) schedule
    rw [length_workers_start] at hlength
    obtain ⟨first, hfirst⟩ := List.exists_mem_of_length_pos (hlength.symm ▸ hworkers hjobs)
    have hgone := List.all_eq_true.1 hdone first hfirst
    cases first with
    | gone => exact h.left hfirst
    | _ => simp [Worker.isGone] at hgone

end Pool

namespace Runner

variable {r : Runner} {fs : FileSystem} {engine : Engine} {fixtures : List Found}
  {schedule : List Nat}

theorem pool_accounts (r : Runner) (fs : FileSystem) (engine : Engine) (fixtures : List Found)
    (schedule : List Nat) :
    Pool.Accounts (r.runFixture fs engine) fixtures (r.pool fs engine fixtures schedule) :=
  Pool.accounts_advance_start _ _ _ _

theorem pool_queue_eq_nil (hjobs : 0 < r.settings.jobs)
    (hdone : (r.pool fs engine fixtures schedule).isDone = true) :
    (r.pool fs engine fixtures schedule).queue = [] := by
  refine Pool.queue_eq_nil (fun hne => ?_) hdone
  have hlength := List.length_pos_of_ne_nil hne
  omega

theorem slots_pool (hjobs : 0 < r.settings.jobs)
    (hdone : (r.pool fs engine fixtures schedule).isDone = true) :
    (r.pool fs engine fixtures schedule).slots =
      fixtures.map fun found => some (r.runFixture fs engine found) :=
  (r.pool_accounts fs engine fixtures schedule).slots_eq hdone (pool_queue_eq_nil hjobs hdone)

theorem answers_pool_perm (hjobs : 0 < r.settings.jobs)
    (hdone : (r.pool fs engine fixtures schedule).isDone = true) :
    (r.pool fs engine fixtures schedule).answers.Perm
      (Pool.numbered (fixtures.map (r.runFixture fs engine))) :=
  (r.pool_accounts fs engine fixtures schedule).answers_perm hdone (pool_queue_eq_nil hjobs hdone)

theorem trials_runOnPool (hjobs : 0 < r.settings.jobs)
    (hdone : (r.pool fs engine fixtures schedule).isDone = true) :
    (r.runOnPool fs engine fixtures schedule).trials = (r.runInTurn fs engine fixtures).trials := by
  simp only [runOnPool, runInTurn, slots_pool hjobs hdone]
  rw [List.zipWith_map_left, List.zipWith_self]
  rfl

theorem executions_runOnPool_perm (hjobs : 0 < r.settings.jobs)
    (hdone : (r.pool fs engine fixtures schedule).isDone = true) :
    (r.runOnPool fs engine fixtures schedule).executions.Perm
      (r.runInTurn fs engine fixtures).executions := by
  have hturns : (r.runInTurn fs engine fixtures).executions =
      (Pool.numbered (fixtures.map (r.runFixture fs engine))).flatMap fun answer =>
        answer.2.executions := by
    conv_lhs => rw [runInTurn, ← Pool.map_snd_numbered (fixtures.map _)]
    exact List.flatMap_map ..
  rw [hturns]
  exact (answers_pool_perm hjobs hdone).flatMap_right _

/-- What the pool has done is what a run in turn does: the same entries in the same order, none of
them for lack of an answer; each fixture has been run once; and the engine has been asked the same,
in some order. -/
structure AgreesInTurn (r : Runner) (fs : FileSystem) (engine : Engine) (fixtures : List Found)
    (schedule : List Nat) : Prop where
  trials : (r.runOnPool fs engine fixtures schedule).trials =
    (r.runInTurn fs engine fixtures).trials
  slots : none ∉ (r.pool fs engine fixtures schedule).slots
  answers : (r.pool fs engine fixtures schedule).answers.Perm
    (Pool.numbered (fixtures.map (r.runFixture fs engine)))
  executions : (r.runOnPool fs engine fixtures schedule).executions.Perm
    (r.runInTurn fs engine fixtures).executions

/-- However the steps of the workers are interleaved, all workers can leave in the end, and once
they have, the pool agrees with a run in turn. -/
theorem runOnPool_agrees (r : Runner) (fs : FileSystem) (engine : Engine) (fixtures : List Found)
    (schedule : List Nat) (hjobs : 2 ≤ r.settings.jobs) :
    (∃ more, (r.pool fs engine fixtures (schedule ++ more)).isDone = true) ∧
      ((r.pool fs engine fixtures schedule).isDone = true →
        r.AgreesInTurn fs engine fixtures schedule) := by
  have hpos : 0 < r.settings.jobs := by omega
  refine ⟨⟨_, Pool.isDone_advance_append_rounds _ _ fixtures schedule⟩, fun hdone => ?_⟩
  exact
    { trials := trials_runOnPool hpos hdone
      slots := by simp [slots_pool hpos hdone]
      answers := answers_pool_perm hpos hdone
      executions := executions_runOnPool_perm hpos hdone }

/-- A runner of two fixtures at a time. -/
def pairRunner : Runner := ⟨{ jobs := 2 }, none, [], .empty⟩

/-- The adapter to this engine gives up on the second of three fixtures. -/
def fallibleEngine : Engine := .scripted "scripted" [] [("boom", .panicked)]

def threeFiles : FileSystem :=
  ⟨[("a.js", .ofText "a"), ("b.js", .ofText "boom"), ("c.js", .ofText "c")], ⟨[]⟩⟩

def threeFixtures : List Found :=
  [⟨⟨"a.js"⟩, ⟨"/a.js"⟩⟩, ⟨⟨"b.js"⟩, ⟨"/b.js"⟩⟩, ⟨⟨"c.js"⟩, ⟨"/c.js"⟩⟩]

/-- The first worker takes the first fixture and is held up until the second worker has done the
others and left. -/
def delayedSchedule : List Nat := [0, 1, 1, 1, 1, 1, 1, 1, 0, 0, 0]

theorem runOnPool_agrees_delayed :
    2 ≤ pairRunner.settings.jobs ∧
      (pairRunner.pool threeFiles fallibleEngine threeFixtures delayedSchedule).isDone = true ∧
        pairRunner.AgreesInTurn threeFiles fallibleEngine threeFixtures delayedSchedule := by
  have hjobs : 2 ≤ pairRunner.settings.jobs := by decide
  have hdone :
      (pairRunner.pool threeFiles fallibleEngine threeFixtures delayedSchedule).isDone = true := by
    rfl
  exact ⟨hjobs, hdone, (runOnPool_agrees pairRunner threeFiles fallibleEngine threeFixtures
    delayedSchedule hjobs).2 hdone⟩

theorem isDone_pool_rounds (r : Runner) (fs : FileSystem) (engine : Engine)
    (fixtures : List Found) :
    (r.pool fs engine fixtures
      (Pool.rounds (min r.settings.jobs fixtures.length) fixtures.length)).isDone = true := by
  have hdone := Pool.isDone_advance_append_rounds (r.runFixture fs engine)
    (min r.settings.jobs fixtures.length) fixtures []
  rwa [List.nil_append] at hdone

/-- How many fixtures run at the same time changes no trial. -/
theorem trials_runAll (r : Runner) (fs : FileSystem) (engine : Engine) (fixtures : List Found) :
    (r.runAll fs engine fixtures).trials = fixtures.map (r.runFixture fs engine) := by
  unfold runAll
  split
  case isTrue h =>
    exact trials_runOnPool (Nat.zero_lt_of_lt h.1) (r.isDone_pool_rounds fs engine fixtures)
  case isFalse => rfl

theorem executions_runAll_perm (r : Runner) (fs : FileSystem) (engine : Engine)
    (fixtures : List Found) :
    (r.runAll fs engine fixtures).executions.Perm
      ((r.runAll fs engine fixtures).trials.flatMap Trial.executions) := by
  rw [trials_runAll]
  unfold runAll
  split
  case isTrue h =>
    exact executions_runOnPool_perm (Nat.zero_lt_of_lt h.1)
      (r.isDone_pool_rounds fs engine fixtures)
  case isFalse => exact .refl _

/-- How many fixtures run at the same time changes no entry of the report. -/
theorem report_runAll (r : Runner) (fs : FileSystem) (engine : Engine) (fixtures : List Found) :
    (r.runAll fs engine fixtures).report = (r.runInTurn fs engine fixtures).report := by
  rw [RunRecord.report, trials_runAll]
  rfl

end Runner

end EngineTrials
