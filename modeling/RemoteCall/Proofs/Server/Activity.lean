import RemoteCall.Proofs.Server.Operations

/-!
# Servers at work

Several readers hand over tasks, the threads of the executors run them, the thread of the delay list
offers them again, and one thread may shut the server down, all at the same time. An activity is a
server together with what these threads are in the middle of; a move is one step of one of them, and
the moves of a run follow each other in any order. A move that its thread cannot make now changes
nothing, so every list of moves is a run.

The threads are interrupted wherever the server lets another one in: a reader between the refusal of
a task by a full queue and its delay, the thread of the delay list with a task in its hand, the
shutdown between any two tasks that it answers. A shutdown may begin to take what is left off a
queue at any time after it has closed it, whether its threads have ended or the time for them has
run out.

## Main definitions

* `Activity`, `Activity.step`, `Activity.run` : the states, the moves and the runs.
* `Shutdown.next` : the steps of a shutdown, in their order.
* `ThreadStepped` : what a step of a thread of an executor can do to the server.
-/

namespace RemoteCall.Server

/-! ### Threads of executors -/

/-- A step of a thread of an executor. -/
inductive ThreadStep where
  | take
  | begin
  | finish
  | rest
  | timeOut
  | leave
  deriving DecidableEq, Repr

/-- A thread of an executor makes a step. -/
def thread (s : Server) (i : ExecutorIndex) (w : Nat) : ThreadStep → Server
  | .take => s.take i w
  | .begin => s.begin i w
  | .finish => s.finish i w
  | .rest => s.rest i w
  | .timeOut => s.timeOut i w
  | .leave => s.leave i w

/-- What a step of a thread can do: nothing, a change of its stage that keeps its task, the taking
of a task, or the running of its task. -/
inductive ThreadStepped (s : Server) (i : ExecutorIndex) (w : Nat) : Server → Prop
  | same : ThreadStepped s i w s
  | restage {e e' : Executor} (he : s.executors[i]? = some e) (h : e.Restaged w e')
      (started : Nat) : ThreadStepped s i w { s.setExecutor i e' with started }
  | take {e : Executor} {t : Task} {tasks : List Task} {policy : OverflowPolicy}
      {signals : List GateSignal} (he : s.executors[i]? = some e)
      (hstage : e.stage? w = some .idle) (htasks : e.queue.tasks = t :: tasks)
      (hdequeue : e.queue.policy.onDequeue tasks.length = (policy, signals)) :
      ThreadStepped s i w
        ((s.setExecutor i ({ e with queue := { e.queue with tasks, policy } }.setStage w
          (.holding t))).signalAll signals)
  | finish {e : Executor} {t : Task} (he : s.executors[i]? = some e)
      (hstage : e.stage? w = some (.running t)) :
      ThreadStepped s i w
        (((s.setExecutor i (e.setStage w .finished)).onConnection t.connection t.run).record
          (.ran t))

theorem threadStepped_onExecutor (s : Server) (i : ExecutorIndex) (w : Nat)
    {step : Executor → Executor} (h : ∀ e : Executor, e.Restaged w (step e)) :
    ThreadStepped s i w (s.onExecutor i fun e => (step e, [])) := by
  unfold onExecutor
  split
  · exact .same
  · rename_i e he
    exact .restage he (h e) s.started

theorem stage?_eq_some {s : Server} {i : ExecutorIndex} {w : Nat} {stage : Stage}
    (h : s.stage? i w = some stage) :
    ∃ e, s.executors[i]? = some e ∧ e.stage? w = some stage := by
  rw [Server.stage?, Option.bind_eq_some_iff] at h
  exact h

theorem threadStepped_take (s : Server) (i : ExecutorIndex) (w : Nat) :
    ThreadStepped s i w (s.take i w) := by
  cases he : s.executors[i]? with
  | none =>
    have hsame : s.take i w = s := by simp only [take, onExecutor, he]
    rw [hsame]
    exact .same
  | some e =>
    have htake : s.take i w = (s.setExecutor i (e.take w).1).signalAll (e.take w).2 := by
      simp only [take, onExecutor, he]
    rw [htake]
    rcases e.take_cases w with ⟨t, tasks, policy, signals, hstage, htasks, hdequeue, h⟩ |
      ⟨e', hrestaged, h⟩
    · rw [h]
      exact .take he hstage htasks hdequeue
    · rw [h]
      exact .restage he hrestaged s.started

theorem threadStepped_begin (s : Server) (i : ExecutorIndex) (w : Nat) :
    ThreadStepped s i w (s.begin i w) := by
  unfold begin
  split
  · rename_i t hstage
    obtain ⟨e, he, -⟩ := stage?_eq_some hstage
    have hbegin : (s.onExecutor i fun e => (e.begin w, [])) = s.setExecutor i (e.begin w) := by
      simp only [onExecutor, he]
      rfl
    rw [hbegin]
    dsimp only
    split
    · exact .restage he (e.restaged_begin w) _
    · exact .restage he (e.restaged_begin w) s.started
  · exact .same

/-- A thread that finishes a task answers it and takes down that it ran. -/
theorem finish_eq {s : Server} {i : ExecutorIndex} {w : Nat} {t : Task}
    (hstage : s.stage? i w = some (.running t)) (hcan : s.canFinish t = true) :
    ∃ e, s.executors[i]? = some e ∧ e.stage? w = some (.running t) ∧
      s.finish i w = (((s.setExecutor i (e.setStage w .finished)).onConnection t.connection
        t.run).record (.ran t)) := by
  obtain ⟨e, he, hrunning⟩ := stage?_eq_some hstage
  have hfinish : (s.onExecutor i fun e => ((e.finish w).2, [])) =
      s.setExecutor i (e.setStage w .finished) := by
    simp only [onExecutor, he, Executor.finish, hrunning]
    rfl
  refine ⟨e, he, hrunning, ?_⟩
  rw [finish, hstage]
  dsimp only
  rw [if_pos hcan, hfinish]

theorem threadStepped_finish (s : Server) (i : ExecutorIndex) (w : Nat) :
    ThreadStepped s i w (s.finish i w) := by
  by_cases h : ∃ t, s.stage? i w = some (.running t) ∧ s.canFinish t = true
  · obtain ⟨t, hstage, hcan⟩ := h
    obtain ⟨e, he, hrunning, hfinish⟩ := finish_eq hstage hcan
    rw [hfinish]
    exact .finish he hrunning
  · have hsame : s.finish i w = s := by
      unfold finish
      split
      · rename_i t hstage
        exact if_neg fun hcan => h ⟨t, hstage, hcan⟩
      · rfl
    rw [hsame]
    exact .same

/-- Every step of a thread is one of those of `ThreadStepped`. -/
theorem threadStepped (s : Server) (i : ExecutorIndex) (w : Nat) (step : ThreadStep) :
    ThreadStepped s i w (s.thread i w step) := by
  cases step with
  | take => exact threadStepped_take s i w
  | begin => exact threadStepped_begin s i w
  | finish => exact threadStepped_finish s i w
  | rest => exact threadStepped_onExecutor s i w fun e => Executor.restaged_rest e w
  | timeOut => exact threadStepped_onExecutor s i w fun e => Executor.restaged_timeOut e w
  | leave => exact threadStepped_onExecutor s i w fun e => Executor.restaged_leave e w

/-! ### The thread of the delay list -/

/-- A step of the thread of the delay list. -/
inductive DelayStep where
  | wake
  | resubmit
  | repark
  deriving DecidableEq, Repr

/-- The thread of the delay list makes a step. -/
def delayThread (s : Server) : DelayStep → Server
  | .wake => s.wake
  | .resubmit => s.resubmit
  | .repark => s.repark

/-! ### Shutdown -/

/-- How far the shutdown of a server has come, and the tasks that it has not answered yet. -/
inductive Shutdown where
  | notBegun
  /-- The server takes no more requests. -/
  | begun
  /-- The delay list is closed; these tasks were parked. -/
  | answering (parked : List Parked)
  /-- The executors are closed; these tasks were left in the queues before `next`. -/
  | draining (next : ExecutorIndex) (left : List Task)
  /-- Nothing is left in the queues. -/
  | refusing (left : List Task)
  | returned

/-- The next step of a shutdown. It answers what was parked when the thread of the delay list has
emptied its hand and ended. -/
def Shutdown.next (s : Server) : Shutdown → Shutdown × Server
  | notBegun => (begun, s.stop)
  | begun =>
    let (parked, s) := s.takeDelayed
    (answering parked, s)
  | answering parked =>
    match s.delayed.hand, parked with
    | .empty, p :: parked => (answering parked, s.refuseParked p)
    | .empty, [] => (draining 0 [], s.closeExecutors)
    | _, _ => (answering parked, s)
  | draining i left =>
    if i < s.executors.length then
      let (tasks, s) := s.drain i
      (draining (i + 1) (left ++ tasks), s)
    else (refusing left, s)
  | refusing (t :: left) => (refusing left, s.refuse t stoppingFault)
  | refusing [] => (returned, s)
  | returned => (returned, s)

/-! ### Activities -/

/-- The task that a reader has to hand over. -/
def Handing.task : Handing → Task
  | offered t _ => t
  | refused t _ => t

/-- The executor that the task is for. -/
def Handing.executor : Handing → ExecutorIndex
  | offered _ i => i
  | refused _ i => i

/-- A server and what its threads are in the middle of. -/
structure Activity where
  server : Server
  /-- What readers have to hand over. -/
  readers : List Handing
  shutdown : Shutdown
  /-- The tasks that were made so far, in order. -/
  arrivals : List Task

/-- One step of one thread, or something that happens to the server from outside. -/
inductive Move where
  /-- A reader takes in a frame. -/
  | receive (c : ConnectionId) (frame : Frame)
  /-- The reader at this place goes on to hand over its task. -/
  | handOver (k : Nat)
  | thread (i : ExecutorIndex) (w : Nat) (step : ThreadStep)
  | delayThread (step : DelayStep)
  | shutdown
  /-- Time passes. -/
  | elapse (ms : Nat)
  /-- The handlers that wait may go on. -/
  | release
  /-- A connection is written to, closed or changed in another way. -/
  | connection (c : ConnectionId) (change : Connection → Connection)
  /-- A connection is added. -/
  | connect (c : Connection)

namespace Activity

/-- A server that has nothing to do. -/
def start (registry : Registry) (config : DelayConfig) (connections : Connections) : Activity :=
  { server := .new registry config connections
    readers := []
    shutdown := .notBegun
    arrivals := [] }

/-- Makes a move. -/
def step (a : Activity) : Move → Activity
  | .receive c frame =>
    match a.server.receive c frame with
    | (none, server) => { a with server }
    | (some h, server) =>
      { a with server, readers := a.readers ++ [h], arrivals := a.arrivals ++ [h.task] }
  | .handOver k =>
    match a.readers[k]? with
    | none => a
    | some h =>
      match a.server.handOver h with
      | (none, server) => { a with server, readers := a.readers.eraseIdx k }
      | (some h, server) => { a with server, readers := a.readers.set k h }
  | .thread i w step => { a with server := a.server.thread i w step }
  | .delayThread step => { a with server := a.server.delayThread step }
  | .shutdown =>
    let (shutdown, server) := a.shutdown.next a.server
    { a with shutdown, server }
  | .elapse ms => { a with server.nowMs := a.server.nowMs + ms }
  | .release => { a with server.released := true }
  | .connection c change => { a with server := a.server.onConnection c change }
  | .connect c => { a with server.connections := a.server.connections ++ [c] }

/-- Makes moves one after another. -/
def run (a : Activity) (moves : List Move) : Activity :=
  moves.foldl step a

theorem run_append (a : Activity) (moves moves' : List Move) :
    a.run (moves ++ moves') = (a.run moves).run moves' :=
  List.foldl_append

/-- A property that every move preserves holds after every run. -/
theorem run_induction {P : Activity → Prop} (hstep : ∀ a, P a → ∀ m, P (a.step m))
    {a : Activity} (ha : P a) (moves : List Move) : P (a.run moves) := by
  induction moves generalizing a with
  | nil => exact ha
  | cons m moves ih => exact ih (hstep a ha m)

/-- What is left to hand over was refused by a full queue, and is delayed next. -/
theorem eq_refused_of_handOver {s s' : Server} {h h' : Handing}
    (hs : s.handOver h = (some h', s')) : ∃ t i, h' = .refused t i := by
  cases h with
  | offered t i =>
    unfold handOver at hs
    dsimp only at hs
    split at hs
    · cases hs
    · cases hs
    · cases hs
      exact ⟨_, _, rfl⟩
    · cases hs
  | refused t i => cases hs

/-- A reader takes a frame in and hands its task over without interruption, in at most two moves. -/
def dispatch (a : Activity) (c : ConnectionId) (frame : Frame) : Activity :=
  a.run [.receive c frame, .handOver a.readers.length, .handOver a.readers.length]

/-- Dispatching a frame is a run, which leaves the other readers where they are. -/
theorem dispatch_eq (a : Activity) (c : ConnectionId) (frame : Frame) :
    (a.dispatch c frame).server = a.server.dispatch c frame ∧
      (a.dispatch c frame).readers = a.readers := by
  have herase (h : Handing) : (a.readers ++ [h]).eraseIdx a.readers.length = a.readers := by
    rw [List.eraseIdx_append_of_length_le (Nat.le_refl _), Nat.sub_self]
    exact List.append_nil _
  simp only [dispatch, run, List.foldl_cons, List.foldl_nil, Server.dispatch]
  rcases hreceive : a.server.receive c frame with ⟨_ | handing, s₁⟩
  · simp [step, hreceive]
  · rcases hfirst : s₁.handOver handing with ⟨_ | handing', s₂⟩
    · simp [step, hreceive, hfirst, herase]
    · obtain ⟨t, i, rfl⟩ := eq_refused_of_handOver hfirst
      have hsecond : s₂.handOver (.refused t i) = (none, s₂.delay t i) := rfl
      simp [step, hreceive, hfirst, hsecond, herase]

end Activity

end RemoteCall.Server
