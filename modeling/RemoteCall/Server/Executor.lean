import RemoteCall.Server.TaskQueue

/-!
# Executors

An executor is a queue and the threads that take tasks off it. Core threads stay until the queue is
closed; further ones are added while every thread is busy and work is waiting, and leave when they
have waited too long.

A thread goes through five stages. It counts as busy from `begin` to `rest`, so a thread that has
taken a task is for a moment not busy yet, and one that has answered is for a moment still busy.
-/

namespace RemoteCall.Server

/-- What a thread is doing. -/
inductive Stage where
  /-- Waiting for a task. -/
  | idle
  /-- Has a task and does not count as busy yet. -/
  | holding (t : Task)
  | running (t : Task)
  /-- Has finished its task and still counts as busy. -/
  | finished
  /-- About to end. -/
  | leaving

namespace Stage

/-- A thread at this stage counts as busy. -/
def isBusy : Stage → Bool
  | running _ | finished => true
  | _ => false

/-- The task that a thread at this stage has and has not finished. -/
def task? : Stage → Option Task
  | holding t | running t => some t
  | _ => none

end Stage

/-- A thread of an executor. -/
structure Worker where
  /-- Waits for tasks as long as the queue is open. -/
  core : Bool
  stage : Stage

/-- The thread waits for a task and need not wait for ever. -/
def Worker.mayTimeOut (w : Worker) : Bool :=
  match w with
  | ⟨false, .idle⟩ => true
  | _ => false

/-- A queue and its threads. -/
structure Executor where
  name : String
  mode : OverflowMode
  minThreads : Nat
  maxThreads : Nat
  /-- How long a thread beyond the core waits for a task, in milliseconds. -/
  keepAliveMs : Nat
  queue : TaskQueue
  /-- The threads that have not ended. -/
  workers : List Worker

namespace Executor

/-- An executor with its core threads waiting. -/
def new (name : String) (execution : Execution) : Executor :=
  { name
    mode := execution.overflow
    minThreads := execution.minThreads
    maxThreads := execution.maxThreads
    keepAliveMs := execution.keepAliveMs
    queue := .new execution.capacity (.ofMode execution.overflow execution.capacity)
    workers := List.replicate execution.minThreads ⟨true, .idle⟩ }

/-- The number of threads. -/
def threads (e : Executor) : Nat :=
  e.workers.length

/-- The number of busy threads. -/
def busy (e : Executor) : Nat :=
  (e.workers.filter fun w => w.stage.isBusy).length

/-- The executor takes nothing more. -/
def isStopping (e : Executor) : Bool :=
  e.queue.closed

/-- Takes nothing more; what is queued is still run. -/
def close (e : Executor) : Executor :=
  { e with queue := e.queue.close }

/-- A thread is to be added: there may be more, all are busy, and work is waiting. -/
def wantsThread (e : Executor) : Bool :=
  e.minThreads < e.maxThreads && e.threads < e.maxThreads && e.threads ≤ e.busy && !e.queue.isEmpty

/-- Adds a thread if one is wanted. -/
def grow (e : Executor) : Executor :=
  if e.wantsThread then { e with workers := e.workers ++ [⟨false, .idle⟩] } else e

/-- Offers a task to the queue. -/
def offer (e : Executor) (t : Task) : Offer × Executor × List GateSignal :=
  let (offer, queue, signals) := e.queue.offer t
  (offer, { e with queue }, signals)

/-- Offers a task; a thread may be added for one that is accepted. -/
def submit (e : Executor) (t : Task) : Offer × Executor × List GateSignal :=
  match e.offer t with
  | (.accepted, e, signals) => (.accepted, e.grow, signals)
  | refused => refused

/-- Takes everything off the queue. -/
def drain (e : Executor) : List Task × Executor × List GateSignal :=
  let (tasks, queue, signals) := e.queue.drain
  (tasks, { e with queue }, signals)

/-! ### Steps of a thread -/

/-- Brings a thread to another stage. -/
def setStage (e : Executor) (i : Nat) (stage : Stage) : Executor :=
  { e with workers := e.workers.modify i fun w => { w with stage } }

/-- The stage of a thread. -/
def stage? (e : Executor) (i : Nat) : Option Stage :=
  e.workers[i]?.map Worker.stage

/-- An idle thread takes the first task; it leaves when the queue is closed and empty. -/
def take (e : Executor) (i : Nat) : Executor × List GateSignal :=
  match e.stage? i with
  | some .idle =>
    match e.queue.take with
    | (.task t, queue, signals) => ({ e with queue }.setStage i (.holding t), signals)
    | (.closed, _, _) => (e.setStage i .leaving, [])
    | (.nothing, _, _) => (e, [])
  | _ => (e, [])

/-- An idle thread beyond the core has waited long enough. -/
def timeOut (e : Executor) (i : Nat) : Executor :=
  if e.workers[i]?.any Worker.mayTimeOut && e.queue.isEmpty then e.setStage i .leaving else e

/-- A thread with a task becomes busy. -/
def begin (e : Executor) (i : Nat) : Executor :=
  match e.stage? i with
  | some (.holding t) => e.setStage i (.running t)
  | _ => e

/-- A running thread finishes its task, which is given. -/
def finish (e : Executor) (i : Nat) : Option Task × Executor :=
  match e.stage? i with
  | some (.running t) => (some t, e.setStage i .finished)
  | _ => (none, e)

/-- A thread that has finished waits again. -/
def rest (e : Executor) (i : Nat) : Executor :=
  match e.stage? i with
  | some .finished => e.setStage i .idle
  | _ => e

/-- A thread that leaves ends. -/
def leave (e : Executor) (i : Nat) : Executor :=
  match e.stage? i with
  | some .leaving => { e with workers := e.workers.eraseIdx i }
  | _ => e

end Executor

end RemoteCall.Server
