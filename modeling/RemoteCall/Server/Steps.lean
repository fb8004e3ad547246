import RemoteCall.Server.Basic

/-!
# What the threads of a server do

The steps of the threads of the executors, of the thread of the delay list, and of a shutdown. Any
two of them can follow each other in either order.
-/

namespace RemoteCall.Server

/-! ### Threads of executors -/

/-- A step of an executor that tells the connections. -/
def onExecutor (s : Server) (i : ExecutorIndex) (step : Executor → Executor × List GateSignal) :
    Server :=
  match s.executors[i]? with
  | none => s
  | some e =>
    let (e, signals) := step e
    (s.setExecutor i e).signalAll signals

/-- The stage of a thread of an executor. -/
def stage? (s : Server) (i : ExecutorIndex) (w : Nat) : Option Stage :=
  s.executors[i]?.bind fun e => e.stage? w

/-- A thread takes a task, or leaves when there will be none. -/
def take (s : Server) (i : ExecutorIndex) (w : Nat) : Server :=
  s.onExecutor i fun e => e.take w

/-- A thread begins its task. -/
def begin (s : Server) (i : ExecutorIndex) (w : Nat) : Server :=
  match s.stage? i w with
  | some (.holding t) =>
    let s := s.onExecutor i fun e => (e.begin w, [])
    if t.method.waits then { s with started := s.started + 1 } else s
  | _ => s

/-- A task can be finished: its handler does not wait, or has been released. -/
def canFinish (s : Server) (t : Task) : Bool :=
  s.released || !t.method.waits

/-- A thread finishes its task, which answers its request. -/
def finish (s : Server) (i : ExecutorIndex) (w : Nat) : Server :=
  match s.stage? i w with
  | some (.running t) =>
    if s.canFinish t then
      ((s.onExecutor i fun e => ((e.finish w).2, [])).onConnection t.connection t.run).record
        (.ran t)
    else s
  | _ => s

/-- A thread that has finished waits again. -/
def rest (s : Server) (i : ExecutorIndex) (w : Nat) : Server :=
  s.onExecutor i fun e => (e.rest w, [])

/-- A thread has waited long enough. -/
def timeOut (s : Server) (i : ExecutorIndex) (w : Nat) : Server :=
  s.onExecutor i fun e => (e.timeOut w, [])

/-- A thread ends. -/
def leave (s : Server) (i : ExecutorIndex) (w : Nat) : Server :=
  s.onExecutor i fun e => (e.leave w, [])

/-! ### The thread of the delay list -/

/-- The thread takes a due task into its hand. -/
def wake (s : Server) : Server :=
  { s with delayed := s.delayed.pop s.nowMs }

/-- The hand is emptied to offer its task again. -/
def emptyHand (s : Server) : Server :=
  { s with delayed.hand := .empty, delayed.resubmits := s.delayed.resubmits + 1 }

/-- Offers a delayed task to its executor, which may refuse it into the hand again. -/
def offerAgain (s : Server) (p : Parked) : Server :=
  match s.submit p.executor p.task with
  | (none, s) | (some .accepted, s) => s.resume p.task.connection
  | (some (.rejected t), s) => { s with delayed.hand := .refused t p.executor }
  | (some (.closed t), s) => (s.refuse t stoppingFault).resume p.task.connection

/-- The thread offers the task in its hand to its executor. -/
def resubmit (s : Server) : Server :=
  match s.delayed.hand with
  | .due p => s.emptyHand.offerAgain p
  | _ => s

/-- The thread parks the refused task in its hand again. -/
def repark (s : Server) : Server :=
  match s.delayed.hand with
  | .refused t i => { s with delayed.hand := .empty }.delay t i
  | _ => s

/-! ### Shutdown -/

/-- Takes no more requests. -/
def stop (s : Server) : Server :=
  { s with stopping := true }

/-- Closes the delay list; gives what was parked. -/
def takeDelayed (s : Server) : List Parked × Server :=
  let (parked, delayed) := s.delayed.close
  (parked, { s with delayed })

/-- Answers a task that was parked, whose connection is read again. -/
def refuseParked (s : Server) (p : Parked) : Server :=
  (s.resume p.task.connection).refuse p.task stoppingFault

/-- Closes the delay list and answers what was parked. -/
def closeDelayed (s : Server) : Server :=
  let (parked, s) := s.takeDelayed
  parked.foldl refuseParked s

/-- Closes every executor. -/
def closeExecutors (s : Server) : Server :=
  { s with groups := s.groups.close }

/-- Takes everything off the queue of an executor. -/
def drain (s : Server) (i : ExecutorIndex) : List Task × Server :=
  match s.executors[i]? with
  | none => ([], s)
  | some e =>
    let (tasks, e, signals) := e.drain
    (tasks, (s.setExecutor i e).signalAll signals)

/-- Takes everything off the queues of the first `n` executors. -/
def drainFirst (s : Server) : (n : Nat) → List Task × Server
  | 0 => ([], s)
  | n + 1 =>
    let (left, s) := s.drainFirst n
    let (tasks, s) := s.drain n
    (left ++ tasks, s)

/-- Takes everything off the queues of all executors. -/
def drainAll (s : Server) : List Task × Server :=
  s.drainFirst s.executors.length

/-- Answers tasks that will not be run. -/
def refuseAll (s : Server) (tasks : List Task) : Server :=
  tasks.foldl (fun s t => s.refuse t stoppingFault) s

end RemoteCall.Server
