import RemoteCall.Server.Dispatch
import RemoteCall.Server.Steps

/-!
# Running a server

The steps of a server in one possible order: `settle` lets the threads of the executors do all they
can without waiting, `wakeNext` lets time pass until a delayed task is due, and `shutdown` stops the
server. What a server answers does not depend on the order, except for the order of the answers.
-/

namespace RemoteCall.Server

/-- What a thread of an executor can do without waiting. -/
def advance? (s : Server) (i : ExecutorIndex) (e : Executor) (w : Nat) : Option Server :=
  match e.stage? w with
  | some .idle => if e.queue.isEmpty && !e.queue.closed then none else some (s.take i w)
  | some (.holding _) => some (s.begin i w)
  | some (.running t) => if s.canFinish t then some (s.finish i w) else none
  | some .finished => some (s.rest i w)
  | some .leaving => some (s.leave i w)
  | none => none

/-- What the first thread that need not wait can do. -/
def advanceFirst? (s : Server) : Option Server :=
  s.executors.zipIdx.findSome? fun (e, i) =>
    (List.range e.threads).findSome? fun w => s.advance? i e w

/-- How many steps a thread at this stage can still make without another task. -/
def Stage.steps : Stage → Nat
  | leaving => 1
  | idle => 2
  | finished => 3
  | running _ => 4
  | holding _ => 5

/-- How many steps the threads of an executor can still make. -/
def Executor.steps (e : Executor) : Nat :=
  e.workers.foldr (fun w n => w.stage.steps + n) (4 * e.queue.size)

/-- Makes at most `fuel` steps of threads. -/
def settleUpTo : (fuel : Nat) → Server → Server
  | 0, s => s
  | fuel + 1, s =>
    match s.advanceFirst? with
    | none => s
    | some s => settleUpTo fuel s

/-- Lets the threads do all they can without waiting. -/
def settle (s : Server) : Server :=
  settleUpTo (s.executors.foldr (fun e n => e.steps + n) 0) s

/-- Lets time pass until the first delayed task is due, and offers it to its executor again. -/
def wakeNext (s : Server) : Server :=
  match s.delayed.nextWake? with
  | none => s
  | some wakeMs => { s with nowMs := max s.nowMs wakeMs }.wake.resubmit.repark.settle

/-- Lets time pass until a condition holds, for at most `fuel` delayed tasks. -/
def waitUpTo (done : Server → Bool) : (fuel : Nat) → Server → Server
  | 0, s => s
  | fuel + 1, s => if done s || s.delayed.size == 0 then s else waitUpTo done fuel s.wakeNext

/-- Lets the threads work, and lets time pass until a condition holds or no task is delayed. -/
def waitUntil (done : Server → Bool) (s : Server) : Server :=
  let s := s.settle
  waitUpTo done (s.delayed.size * (s.delayed.config.maxAttempts + 1)) s

/-- Lets the threads work, and lets time pass until no task is delayed. -/
def runOut (s : Server) : Server :=
  s.waitUntil fun _ => false

/-- Releases the handlers that wait. -/
def release (s : Server) : Server :=
  { s with released := true }.settle

/-- Offers tasks to an executor one after another, letting the threads work in between; gives those
that the executor refused. -/
def submitAll (s : Server) (i : ExecutorIndex) : List Task → List Task × Server
  | [] => ([], s)
  | t :: rest =>
    match s.submit i t with
    | (some (.rejected t), s) =>
      let (refused, s) := s.submitAll i rest
      (t :: refused, s)
    | (_, s) => s.settle.submitAll i rest

/-- Takes the messages queued on all connections, in the order of their requests. -/
def takeAnswers (s : Server) : List Outbound × Server :=
  (Outbound.sorted s.connections.outbox, { s with connections := s.connections.clear })

/-- Lets idle threads beyond the core end until an executor has `count` of them, at most `fuel`. -/
def awaitThreadsUpTo (i : ExecutorIndex) (count : Nat) : (fuel : Nat) → Server → Server
  | 0, s => s
  | fuel + 1, s =>
    match s.executors[i]? with
    | none => s
    | some e =>
      match e.workers.findIdx? Worker.mayTimeOut with
      | none => s
      | some w =>
        if e.threads = count then s else awaitThreadsUpTo i count fuel (s.timeOut i w).settle

/-- Waits until an executor has `count` threads; tells whether it comes to that. -/
def awaitThreads (s : Server) (i : ExecutorIndex) (count : Nat) : Bool × Server :=
  let s := s.settle
  let s := awaitThreadsUpTo i count ((s.executors[i]?.map Executor.threads).getD 0) s
  ((s.executors[i]?.map Executor.threads) == some count, s)

/-- Stops an executor: closes it, lets its threads work, and takes what is left off its queue. -/
def stopExecutor (s : Server) (i : ExecutorIndex) : List Task × Server :=
  let (left, s) := (s.onExecutor i fun e => (e.close, [])).settle.drain i
  (left, s.settle)

/-- Stops the server and gives the number of requests that were refused: those that were delayed and
those that no thread took in time. Nothing happens the second time. -/
def shutdown (s : Server) : Nat × Server :=
  if s.stopping then (0, s)
  else
    let delayed := s.delayed.size
    let (left, s) := s.stop.closeDelayed.closeExecutors.settle.drainAll
    (delayed + left.length, (s.refuseAll left).settle)

end RemoteCall.Server
