/-! A pool of workers with a shared queue. A worker takes the next job from the queue, later runs it,
and later still puts the answer into the slot of that job; a worker that finds the queue empty
leaves. In which order the workers do so is up to a schedule. -/

namespace EngineTrials

/-- What a worker is about to do. -/
inductive Worker (α β : Type)
  /-- Ask for the next job. -/
  | idle
  /-- Run the job of a slot. -/
  | holding (slot : Nat) (job : α)
  /-- Put the answer into its slot. -/
  | answered (slot : Nat) (answer : β)
  /-- Nothing any more. -/
  | gone

namespace Worker

variable {α β : Type}

def isGone : Worker α β → Bool
  | .gone => true
  | _ => false

/-- The job in hand, with the number of its slot. -/
def job? : Worker α β → Option (Nat × α)
  | .holding slot job => some (slot, job)
  | _ => none

end Worker

/-- The state of a pool. -/
structure Pool (α β : Type) where
  /-- The jobs that no worker has taken, with the numbers of their slots. -/
  queue : List (Nat × α)
  workers : List (Worker α β)
  slots : List (Option β)
  /-- The answers with the numbers of their slots, in the order in which the jobs were run. -/
  answers : List (Nat × β)

namespace Pool

variable {α β : Type}

/-- Items with their places in the list. -/
def numbered (items : List α) : List (Nat × α) := items.zipIdx.map fun item => (item.2, item.1)

def start (workers : Nat) (jobs : List α) : Pool α β :=
  { queue := numbered jobs
    workers := List.replicate workers .idle
    slots := jobs.map fun _ => none
    answers := [] }

/-- The pool after a step of one worker. One that has left, or that is not there, does nothing. -/
def step (run : α → β) (pool : Pool α β) (worker : Nat) : Pool α β :=
  match pool.workers[worker]? with
  | some .idle =>
    match pool.queue with
    | [] => { pool with workers := pool.workers.set worker .gone }
    | (slot, job) :: queue =>
      { pool with queue, workers := pool.workers.set worker (.holding slot job) }
  | some (.holding slot job) =>
    let answer := run job
    { pool with
      workers := pool.workers.set worker (.answered slot answer)
      answers := pool.answers ++ [(slot, answer)] }
  | some (.answered slot answer) =>
    { pool with
      workers := pool.workers.set worker .idle
      slots := pool.slots.set slot (some answer) }
  | some .gone | none => pool

/-- The pool after the steps of a schedule. -/
def advance (run : α → β) (pool : Pool α β) (schedule : List Nat) : Pool α β :=
  schedule.foldl (step run) pool

/-- Whether all workers have left. -/
def isDone (pool : Pool α β) : Bool := pool.workers.all Worker.isGone

/-- A schedule in which the workers take turns. A worker has three turns for each job that it does
and one more to leave, so the turns suffice even if one worker does all jobs. -/
def rounds (workers jobs : Nat) : List Nat :=
  (List.replicate (3 * jobs + workers) (List.range workers)).flatten

end Pool

end EngineTrials
