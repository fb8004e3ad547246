import RemoteCall.Proofs.Server.Growth
import RemoteCall.Proofs.Server.WaterMarks

/-!
# The order in which queues hand out tasks

A queue asks its overflow policy before it takes a task, but what it has taken it hands out in the
order in which it took it, one task at a time or all that is left at once, and it neither loses nor
invents one. A task that it refuses is given back, and nothing has changed then.

An executor hands the tasks of its queue to its threads. One thread has one task at a time, so it
runs the tasks of an executor of its own in the order in which they were accepted. When the executor
is shut down, what no thread has taken by then is what comes back.

## Main definitions

* `Conveyor` : a queue, what it has accepted and what it has handed out.
* `TaskQueue.Offered`, `TaskQueue.Taken` : what an offer and a taking come to.

## Main results

* `Conveyor.InOrder.step` : every offer, taking, drain and closing of a queue keeps the order.
* `Crew.begun_prefix` : a single thread has one task at a time.
* `Crew.InOrder.drained` : what a shutdown takes off the queue is all that ever comes back.
* `tasks_keep_order` : order, conservation and bound, of queues and of executors.
-/

namespace RemoteCall.Server

/-! ### What queues answer -/

namespace TaskQueue

/-- What an offer to the queue comes to, under a mode and a capacity. A closed queue gives the task
back; so does an open one in the delay mode whose length has reached the capacity, which counts as
one if it is zero; and every other one puts it behind what it holds. -/
def Offered (q : TaskQueue) (mode : OverflowMode) (capacity : Nat) (t : Task) :
    Offer × TaskQueue × List GateSignal → Prop
  | (.closed u, q', signals) => q.closed = true ∧ u = t ∧ q' = q ∧ signals = []
  | (.rejected u, q', signals) =>
    q.closed = false ∧ mode = .delay ∧ q.size = max capacity 1 ∧ u = t ∧ q' = q ∧ signals = []
  | (.accepted, q', _) =>
    q.closed = false ∧ (mode = .delay → q.size < max capacity 1) ∧ q'.tasks = q.tasks ++ [t] ∧
      q'.closed = false

/-- What a taking off the queue comes to: the first task, as long as there is one, and otherwise
nothing, or the news that the queue is closed. -/
def Taken (q : TaskQueue) : Take × TaskQueue × List GateSignal → Prop
  | (.task t, q', _) => q.tasks = t :: q'.tasks ∧ q'.closed = q.closed
  | (.nothing, q', signals) => q.tasks = [] ∧ q.closed = false ∧ q' = q ∧ signals = []
  | (.closed, q', signals) => q.tasks = [] ∧ q.closed = true ∧ q' = q ∧ signals = []

/-- A taking gives the first task, or there is none. -/
theorem take_cases (q : TaskQueue) :
    (∃ t tasks policy signals, q.tasks = t :: tasks ∧
      q.policy.onDequeue tasks.length = (policy, signals) ∧
      q.take = (.task t, { q with tasks, policy }, signals)) ∨
      (q.tasks = [] ∧ q.closed = true ∧ q.take = (.closed, q, [])) ∨
      (q.tasks = [] ∧ q.closed = false ∧ q.take = (.nothing, q, [])) := by
  cases htasks : q.tasks with
  | nil =>
    cases hclosed : q.closed with
    | true => exact Or.inr (Or.inl ⟨rfl, rfl, by simp [take, htasks, hclosed]⟩)
    | false => exact Or.inr (Or.inr ⟨rfl, rfl, by simp [take, htasks, hclosed]⟩)
  | cons t tasks =>
    rcases hdequeue : q.policy.onDequeue tasks.length with ⟨policy, signals⟩
    exact Or.inl ⟨t, tasks, policy, signals, rfl, hdequeue, by simp [take, htasks, hdequeue]⟩

theorem taken_take (q : TaskQueue) : q.Taken q.take := by
  rcases q.take_cases with ⟨t, tasks, policy, signals, htasks, -, h⟩ | ⟨htasks, hclosed, h⟩ |
    ⟨htasks, hclosed, h⟩ <;> rw [h]
  · exact ⟨htasks, rfl⟩
  · exact ⟨htasks, hclosed, rfl, rfl⟩
  · exact ⟨htasks, hclosed, rfl, rfl⟩

end TaskQueue

/-! ### Queues -/

/-- A queue with all that went in and came out. -/
structure Conveyor where
  queue : TaskQueue
  /-- The tasks that were accepted, in order. -/
  accepted : List Task
  /-- The tasks that were handed out, in order. -/
  handed : List Task

namespace Conveyor

/-- An empty queue of a mode. -/
def start (mode : OverflowMode) (capacity : Nat) : Conveyor :=
  { queue := .new capacity (.ofMode mode capacity), accepted := [], handed := [] }

/-- Makes a move. -/
def step (c : Conveyor) : QueueMove → Conveyor
  | .offer t =>
    match c.queue.offer t with
    | (.accepted, queue, _) => { c with queue, accepted := c.accepted ++ [t] }
    | (_, queue, _) => { c with queue }
  | .take =>
    match c.queue.take with
    | (.task t, queue, _) => { c with queue, handed := c.handed ++ [t] }
    | (_, queue, _) => { c with queue }
  | .drain =>
    let (tasks, queue, _) := c.queue.drain
    { c with queue, handed := c.handed ++ tasks }
  | .close => { c with queue := c.queue.close }

/-- Makes moves one after another. -/
def run (c : Conveyor) (moves : List QueueMove) : Conveyor :=
  moves.foldl step c

/-- The policy is that of the mode, and a queue that delays is no longer than its capacity. -/
def Bounded (mode : OverflowMode) (capacity : Nat) (q : TaskQueue) : Prop :=
  match mode with
  | .delay => q.policy = .delay (max capacity 1) ∧ q.size ≤ max capacity 1
  | .waterMark => ∃ denied, q.policy = .waterMark (.ofCapacity capacity) denied

/-- What was handed out and then what is queued are what was accepted; the queue is bounded. -/
structure InOrder (mode : OverflowMode) (capacity : Nat) (c : Conveyor) : Prop where
  order : c.handed ++ c.queue.tasks = c.accepted
  bounded : Bounded mode capacity c.queue

variable {mode : OverflowMode} {capacity : Nat} {c : Conveyor}

/-- A delay policy refuses a task when the queue is full, and is the same afterwards. -/
theorem onEnqueue_delay_iff {queued : Nat} (id : ConnectionId) :
    ((OverflowPolicy.delay capacity).onEnqueue queued id).1 = .reject ↔ capacity ≤ queued := by
  by_cases hfull : capacity ≤ queued <;> simp [OverflowPolicy.onEnqueue, hfull]

/-- An offer comes to one of three things, and the queue is bounded afterwards. -/
theorem Bounded.offered {q : TaskQueue} (h : Bounded mode capacity q) (t : Task) :
    q.Offered mode capacity t (q.offer t) ∧ Bounded mode capacity (q.offer t).2.1 := by
  rcases q.offer_cases t with ⟨hclosed, hoffer⟩ | ⟨hopen, hreject, hoffer⟩ |
    ⟨policy, signals, hopen, haccept, hoffer⟩ <;> rw [hoffer]
  · exact ⟨⟨hclosed, rfl, rfl, rfl⟩, h⟩
  · cases mode with
    | delay =>
      obtain ⟨hpolicy, hbound⟩ := h
      rw [hpolicy, onEnqueue_delay_iff] at hreject
      exact ⟨⟨hopen, rfl, Nat.le_antisymm hbound hreject, rfl, rfl, rfl⟩, hpolicy, hbound⟩
    | waterMark =>
      obtain ⟨denied, hpolicy⟩ := h
      obtain ⟨_, hdelay⟩ := OverflowPolicy.eq_delay_of_reject hreject
      rw [hpolicy] at hdelay
      cases hdelay
  · cases mode with
    | delay =>
      obtain ⟨hpolicy, hbound⟩ := h
      rw [hpolicy] at haccept
      have hroom : q.size < max capacity 1 := by
        refine Nat.lt_of_not_le fun hfull => ?_
        have hreject := (onEnqueue_delay_iff t.connection).mpr hfull
        rw [haccept] at hreject
        cases hreject
      exact ⟨⟨hopen, fun _ => hroom, rfl, hopen⟩, OverflowPolicy.onEnqueue_delay haccept,
        Nat.le_trans (Nat.le_of_eq (q.length_append_task t)) hroom⟩
    | waterMark =>
      refine ⟨⟨hopen, fun hdelay => (by cases hdelay), rfl, hopen⟩, ?_⟩
      obtain ⟨denied, hpolicy⟩ := h
      rcases OverflowPolicy.onEnqueue_cases haccept with ⟨hsame, -⟩ |
        ⟨marks, denied', hmarks, -, hpauses⟩
      · exact ⟨denied, hsame.trans hpolicy⟩
      · obtain ⟨rfl, rfl⟩ := OverflowPolicy.waterMark.inj (hmarks.symm.trans hpolicy)
        exact ⟨_, hpauses⟩

/-- Taking tasks off keeps a queue bounded. -/
theorem Bounded.dequeued {q : TaskQueue} {tasks : List Task} {policy : OverflowPolicy}
    {signals : List GateSignal} (h : Bounded mode capacity q) (hsize : tasks.length ≤ q.size)
    (hdequeue : q.policy.onDequeue tasks.length = (policy, signals)) :
    Bounded mode capacity { q with tasks, policy } := by
  cases mode with
  | delay =>
    obtain ⟨hpolicy, hbound⟩ := h
    rw [hpolicy] at hdequeue
    cases hdequeue
    exact ⟨rfl, Nat.le_trans hsize hbound⟩
  | waterMark =>
    obtain ⟨denied, hpolicy⟩ := h
    rcases q.policy.onDequeue_cases tasks.length with ⟨hsame, -⟩ | ⟨marks, denied', hmarks, hresume⟩
    · rw [hsame] at hdequeue
      cases hdequeue
      exact ⟨denied, hpolicy⟩
    · rw [hresume] at hdequeue
      cases hdequeue
      obtain ⟨rfl, rfl⟩ := OverflowPolicy.waterMark.inj (hmarks.symm.trans hpolicy)
      exact ⟨[], rfl⟩

theorem inOrder_start (mode : OverflowMode) (capacity : Nat) :
    InOrder mode capacity (start mode capacity) := by
  refine ⟨rfl, ?_⟩
  cases mode with
  | delay => exact ⟨rfl, Nat.zero_le _⟩
  | waterMark => exact ⟨[], rfl⟩

/-- Every move keeps the order. -/
theorem InOrder.step (h : InOrder mode capacity c) (m : QueueMove) :
    InOrder mode capacity (c.step m) := by
  cases m with
  | offer t =>
    have hbounded := (h.bounded.offered t).2
    rcases c.queue.offer_cases t with ⟨-, hoffer⟩ | ⟨-, -, hoffer⟩ | ⟨policy, signals, -, -, hoffer⟩
    all_goals
      rw [hoffer] at hbounded
      simp only [Conveyor.step, hoffer]
    · exact ⟨h.order, hbounded⟩
    · exact ⟨h.order, hbounded⟩
    · refine ⟨?_, hbounded⟩
      rw [← h.order]
      exact (List.append_assoc _ _ _).symm
  | take =>
    rcases c.queue.take_cases with ⟨t, tasks, policy, signals, htasks, hdequeue, htake⟩ |
      ⟨-, -, htake⟩ | ⟨-, -, htake⟩
    all_goals simp only [Conveyor.step, htake]
    · have hshorter : tasks.length ≤ c.queue.size := by simp [TaskQueue.size, htasks]
      refine ⟨?_, h.bounded.dequeued hshorter hdequeue⟩
      rw [← h.order, htasks, List.append_assoc]
      rfl
    · exact h
    · exact h
  | drain =>
    have hbounded : Bounded mode capacity c.queue.drain.2.1 :=
      h.bounded.dequeued (Nat.zero_le _) (Eq.refl (c.queue.policy.onDequeue [].length))
    exact ⟨(List.append_nil _).trans h.order, hbounded⟩
  | close =>
    refine ⟨h.order, ?_⟩
    cases mode <;> exact h.bounded

/-- What was handed out and then what is queued are what was accepted, after every sequence of
moves. -/
theorem InOrder.run (h : InOrder mode capacity c) (moves : List QueueMove) :
    InOrder mode capacity (c.run moves) := by
  induction moves generalizing c with
  | nil => exact h
  | cons m moves ih => exact ih (h.step m)

/-- It does not matter to a queue what is taken down about it. -/
theorem queue_run {r : Reservoir} (h : c.queue = r.queue) (moves : List QueueMove) :
    (c.run moves).queue = (r.run moves).queue := by
  induction moves generalizing c r with
  | nil => exact h
  | cons m moves ih =>
    have hstep : (c.step m).queue = (r.step m).queue := by
      cases m with
      | offer t =>
        simp only [step, Reservoir.step, h]
        rcases r.queue.offer t with ⟨- | u | u, queue, signals⟩ <;> rfl
      | take =>
        simp only [step, Reservoir.step, h]
        rcases r.queue.take with ⟨t | - | -, queue, signals⟩ <;> rfl
      | drain => simp only [step, Reservoir.step, h]
      | close => simp only [step, Reservoir.step, h]
    exact ih hstep

/-- A queue is closed once it was told so. -/
theorem closed_run (mode : OverflowMode) (capacity : Nat) (moves : List QueueMove) :
    ((start mode capacity).run moves).queue.closed = true ↔ .close ∈ moves := by
  have hqueue : ((start mode capacity).run moves).queue =
      ((Reservoir.start capacity (.ofMode mode capacity) []).run moves).queue := queue_run rfl moves
  rw [hqueue, Reservoir.closed_run]
  simp [Reservoir.start, TaskQueue.new]

end Conveyor

/-! ### Executors -/

/-- The task that the thread was given and has not begun. -/
def Worker.held? (w : Worker) : Option Task :=
  match w.stage with
  | .holding t => some t
  | _ => none

/-- The task that the thread runs. -/
def Worker.running? (w : Worker) : Option Task :=
  match w.stage with
  | .running t => some t
  | _ => none

namespace Crew

variable {c c' : Crew}

/-- What threads have taken, then what was returned, and then what is queued are what was accepted;
and nothing is queued once something was returned. -/
structure InOrder (c : Crew) : Prop where
  order : c.taken ++ c.returned ++ c.executor.queue.tasks = c.accepted
  emptied : c.returned ≠ [] → c.executor.queue.tasks = [] ∧ c.executor.queue.closed = true

theorem inOrder_start (name : String) (execution : Execution) : (start name execution).InOrder :=
  ⟨rfl, fun hreturned => absurd rfl hreturned⟩

/-- Every move keeps the order. -/
theorem InOrder.stepped (h : c.InOrder) (hc : c.Stepped c') : c'.InOrder := by
  cases hc with
  | same => exact h
  | @accepted t policy hopen =>
    refine ⟨?_, fun hreturned => ?_⟩
    · rw [← h.order]
      exact (List.append_assoc _ _ _).symm
    · obtain ⟨-, hclosed⟩ := h.emptied hreturned
      rw [hopen] at hclosed
      cases hclosed
  | looked hlooking hsubmitters =>
    unfold look
    split <;> exact ⟨h.order, h.emptied⟩
  | added hlooking htasks => exact ⟨h.order, h.emptied⟩
  | unneeded hlooking htasks => exact ⟨h.order, h.emptied⟩
  | @took w core t tasks policy hw htasks =>
    -- A task waits, so nothing has been returned yet.
    have hnone : c.returned = [] := by
      refine Classical.byContradiction fun hreturned => ?_
      obtain ⟨hempty, -⟩ := h.emptied hreturned
      rw [htasks] at hempty
      cases hempty
    refine ⟨?_, fun hreturned => absurd hnone hreturned⟩
    calc c.taken ++ [t] ++ c.returned ++ tasks = c.taken ++ c.returned ++ (t :: tasks) := by
          simp [hnone]
      _ = c.accepted := by rw [← htasks, h.order]
  | began hw => exact ⟨h.order, h.emptied⟩
  | finished hw => exact ⟨h.order, h.emptied⟩
  | rested hw => exact ⟨h.order, h.emptied⟩
  | departed hw htasks hmay => exact ⟨h.order, h.emptied⟩
  | ended hlooking hw => exact ⟨h.order, h.emptied⟩
  | closed => exact ⟨h.order, fun hreturned => ⟨(h.emptied hreturned).1, rfl⟩⟩
  | drained hclosed =>
    refine ⟨?_, fun _ => ⟨rfl, hclosed⟩⟩
    calc c.taken ++ (c.returned ++ c.executor.queue.tasks) ++ []
        = c.taken ++ c.returned ++ c.executor.queue.tasks := by simp
      _ = c.accepted := h.order

theorem inOrder_run (name : String) (execution : Execution) (moves : List CrewMove) :
    ((start name execution).run moves).InOrder :=
  run_induction (fun c hc m => hc.stepped (c.stepped m)) (inOrder_start name execution) moves

/-! #### A single thread -/

/-- What was begun, and then what a thread holds, is what was taken; what was finished, and then
what a thread runs, is what was begun. -/
structure OneByOne (c : Crew) : Prop where
  held : c.begun ++ c.executor.workers.filterMap Worker.held? = c.taken
  running : c.finished ++ c.executor.workers.filterMap Worker.running? = c.begun

/-- The only thread. -/
theorem workers_eq {e : Executor} {w : Nat} {x : Worker} (hone : e.threads ≤ 1)
    (hw : e.workers[w]? = some x) : w = 0 ∧ e.workers = [x] := by
  obtain ⟨hlt, hx⟩ := List.getElem?_eq_some_iff.mp hw
  rw [Executor.threads] at hone
  obtain rfl : w = 0 := by omega
  obtain ⟨y, hy⟩ := List.length_eq_one_iff.mp (by omega : e.workers.length = 1)
  simp only [hy, List.getElem_cons_zero] at hx
  exact ⟨rfl, by rw [hy, hx]⟩

/-- The only thread goes on to another stage. -/
theorem OneByOne.restage {w : Nat} {core : Bool} {a b : Stage} (h : c.OneByOne)
    (hone : c.executor.threads ≤ 1) (hw : c.executor.workers[w]? = some ⟨core, a⟩)
    (he : c'.executor.workers = (c.executor.setStage w b).workers)
    (hheld : c.begun ++ (Worker.held? ⟨core, a⟩).toList = c.taken →
      c'.begun ++ (Worker.held? ⟨core, b⟩).toList = c'.taken)
    (hrunning : c.finished ++ (Worker.running? ⟨core, a⟩).toList = c.begun →
      c'.finished ++ (Worker.running? ⟨core, b⟩).toList = c'.begun) : c'.OneByOne := by
  obtain ⟨rfl, hworkers⟩ := workers_eq hone hw
  have hworkers' : c'.executor.workers = [⟨core, b⟩] := by
    rw [he, Executor.setStage, hworkers]
    rfl
  have hthread (f : Worker → Option Task) (x : Worker) : [x].filterMap f = (f x).toList := by
    cases hx : f x <;> simp [hx]
  obtain ⟨hbegun, hfinished⟩ := h
  rw [hworkers, hthread] at hbegun hfinished
  refine ⟨?_, ?_⟩ <;> rw [hworkers', hthread]
  · exact hheld hbegun
  · exact hrunning hfinished

/-- Every move of a crew with a single thread keeps one task running at a time. -/
theorem OneByOne.stepped (h : c.OneByOne) (hone : c.executor.threads ≤ 1) (hc : c.Stepped c') :
    c'.OneByOne := by
  cases hc with
  | same => exact h
  | accepted hopen => exact ⟨h.held, h.running⟩
  | looked hlooking hsubmitters =>
    unfold look
    split <;> exact ⟨h.held, h.running⟩
  | added hlooking htasks =>
    -- A new thread has no task.
    have hidle {f : Worker → Option Task} (hf : f ⟨false, .idle⟩ = none) :
        c.executor.addThread.workers.filterMap f = c.executor.workers.filterMap f := by
      simp [Executor.addThread, hf]
    refine ⟨?_, ?_⟩
    · show c.begun ++ c.executor.addThread.workers.filterMap _ = c.taken
      rw [hidle rfl, h.held]
    · show c.finished ++ c.executor.addThread.workers.filterMap _ = c.begun
      rw [hidle rfl, h.running]
  | unneeded hlooking htasks => exact ⟨h.held, h.running⟩
  | @took w core t tasks policy hw htasks =>
    refine h.restage hone hw rfl (fun hheld => ?_) fun hrunning => hrunning
    show c.begun ++ [t] = c.taken ++ [t]
    rw [← hheld]
    exact congrArg (· ++ [t]) (List.append_nil _).symm
  | @began w core t hw =>
    refine h.restage hone hw rfl (fun hheld => (List.append_nil _).trans hheld) fun hrunning => ?_
    show c.finished ++ [t] = c.begun ++ [t]
    rw [← hrunning]
    exact congrArg (· ++ [t]) (List.append_nil _).symm
  | finished hw =>
    exact h.restage hone hw rfl (fun hheld => hheld) fun hrunning =>
      (List.append_nil _).trans hrunning
  | rested hw => exact h.restage hone hw rfl (fun hheld => hheld) fun hrunning => hrunning
  | departed hw htasks hmay =>
    exact h.restage hone hw rfl (fun hheld => hheld) fun hrunning => hrunning
  | ended hlooking hw =>
    obtain ⟨rfl, hworkers⟩ := workers_eq hone hw
    have hnobody : (c.executor.removeThread 0).workers = [] := by
      rw [Executor.removeThread, hworkers]
      rfl
    have hheld := h.held
    have hrunning := h.running
    rw [hworkers] at hheld hrunning
    exact ⟨by rw [on, hnobody]; exact hheld, by rw [on, hnobody]; exact hrunning⟩
  | closed => exact ⟨h.held, h.running⟩
  | drained hclosed => exact ⟨h.held, h.running⟩

/-- A single thread begins tasks in the order in which it takes them, and finishes each before it
begins the next. -/
theorem begun_prefix (name : String) {execution : Execution} (hone : execution.maxThreads = 1)
    (moves : List CrewMove) :
    let c := (start name execution).run moves
    c.finished <+: c.begun ∧ c.begun <+: c.taken ∧ c.begun.length ≤ c.finished.length + 1 := by
  intro c
  have hsingle {c : Crew} (h : c.Staffed execution) : c.executor.threads ≤ 1 :=
    hone ▸ h.threads_le
  have hstart : (start name execution).OneByOne := by
    have hidle (n : Nat) (f : Worker → Option Task) (hf : f ⟨true, .idle⟩ = none) :
        (List.replicate n (⟨true, .idle⟩ : Worker)).filterMap f = [] := by
      simp [List.filterMap_replicate_of_none hf]
    exact ⟨hidle _ _ rfl, hidle _ _ rfl⟩
  obtain ⟨hstaffed, hone⟩ : c.Staffed execution ∧ c.OneByOne := by
    refine run_induction (P := fun c => c.Staffed execution ∧ c.OneByOne)
      (fun c ⟨hstaffed, hone⟩ m => ?_) ⟨staffed_start name execution, hstart⟩ moves
    exact ⟨hstaffed.stepped (c.stepped m), hone.stepped (hsingle hstaffed) (c.stepped m)⟩
  refine ⟨⟨_, hone.running⟩, ⟨_, hone.held⟩, ?_⟩
  have hrunning : (c.executor.workers.filterMap Worker.running?).length ≤ 1 :=
    Nat.le_trans (List.length_filterMap_le _ _) (hsingle hstaffed)
  rw [← hone.running, List.length_append]
  omega

/-! #### After a shutdown -/

/-- A closed executor stays closed. -/
theorem closed_stepped (h : c.executor.queue.closed = true) (hc : c.Stepped c') :
    c'.executor.queue.closed = true := by
  cases hc with
  | looked hlooking hsubmitters =>
    unfold look
    split <;> exact h
  | closed => rfl
  | _ => exact h

theorem closed_of_close_mem {moves : List CrewMove} (h : .close ∈ moves) :
    (c.run moves).executor.queue.closed = true := by
  obtain ⟨before, after, rfl⟩ := List.append_of_mem h
  rw [run_append]
  exact run_induction (P := fun c => c.executor.queue.closed = true)
    (fun c hc m => closed_stepped hc (c.stepped m)) rfl after

/-- The executor is closed and nothing is left in its queue. -/
def Emptied (c : Crew) : Prop :=
  c.executor.queue.closed = true ∧ c.executor.queue.tasks = []

/-- Nothing is accepted, taken or returned any more. -/
theorem Emptied.stepped (h : c.Emptied) (hc : c.Stepped c') :
    c'.Emptied ∧ c'.accepted = c.accepted ∧ c'.taken = c.taken ∧ c'.returned = c.returned := by
  obtain ⟨hclosed, hempty⟩ := h
  cases hc with
  | accepted hopen =>
    rw [hclosed] at hopen
    cases hopen
  | took hw htasks =>
    rw [hempty] at htasks
    cases htasks
  | looked hlooking hsubmitters =>
    unfold look
    split <;> exact ⟨⟨hclosed, hempty⟩, rfl, rfl, rfl⟩
  | closed => exact ⟨⟨rfl, hempty⟩, rfl, rfl, rfl⟩
  | drained _ =>
    refine ⟨⟨hclosed, rfl⟩, rfl, rfl, ?_⟩
    show c.returned ++ c.executor.queue.tasks = c.returned
    rw [hempty, List.append_nil]
  | _ => exact ⟨⟨hclosed, hempty⟩, rfl, rfl, rfl⟩

theorem Emptied.run (h : c.Emptied) (moves : List CrewMove) :
    (c.run moves).Emptied ∧ (c.run moves).accepted = c.accepted ∧ (c.run moves).taken = c.taken ∧
      (c.run moves).returned = c.returned := by
  refine run_induction (P := fun c' => c'.Emptied ∧ c'.accepted = c.accepted ∧
    c'.taken = c.taken ∧ c'.returned = c.returned) (fun c' hc' m => ?_) ⟨h, rfl, rfl, rfl⟩ moves
  obtain ⟨hemptied, haccepted, htaken, hreturned⟩ := hc'
  obtain ⟨hemptied', haccepted', htaken', hreturned'⟩ := hemptied.stepped (c'.stepped m)
  exact ⟨hemptied', haccepted'.trans haccepted, htaken'.trans htaken, hreturned'.trans hreturned⟩

/-- What is taken off the queue of a closed executor is all that ever comes back: what was accepted
and not taken by a thread. -/
theorem InOrder.drained (h : c.InOrder) (hclosed : c.executor.queue.closed = true)
    (later : List CrewMove) :
    let c' := (c.step .drain).run later
    c'.accepted = c.accepted ∧ c'.taken = c.taken ∧
      c'.returned = c.returned ++ c.executor.queue.tasks ∧
      c'.taken ++ c'.returned = c'.accepted := by
  have hdrain : c.step .drain =
      { c with executor := c.executor.drained, returned := c.returned ++ c.executor.queue.tasks } :=
    if_pos hclosed
  have hemptied : (c.step .drain).Emptied := by
    rw [hdrain]
    exact ⟨hclosed, rfl⟩
  obtain ⟨-, haccepted, htaken, hreturned⟩ := hemptied.run later
  rw [hdrain] at haccepted htaken hreturned
  refine ⟨?_, ?_, ?_, ?_⟩
  · rw [hdrain]; exact haccepted
  · rw [hdrain]; exact htaken
  · rw [hdrain]; exact hreturned
  · rw [hdrain, haccepted, htaken, hreturned, ← h.order, List.append_assoc]

end Crew

/-- For every queue of either mode and every sequence of offers, takings, drains and closings: what
was handed out, one by one or at once, and then what is queued are what was accepted, in the order
of acceptance. A queue that delays is never longer than its capacity. An offer and a taking come to
what `TaskQueue.Offered` and `TaskQueue.Taken` say: a task is given back exactly if the queue is
closed, or delays and is full, and nothing has changed then; a closed queue hands out what is left
before it says that it is closed.

For every executor and every interleaving of its submitters, its threads and its shutdown: what
threads have taken, then what was returned, and then what is queued are what was accepted. A single
thread begins the tasks in the order of acceptance, one after the end of the other. What a shutdown
takes off the queue are the accepted tasks that no thread has taken, and none is taken later. -/
theorem tasks_keep_order (mode : OverflowMode) (capacity : Nat) (moves : List QueueMove)
    (name : String) (execution : Execution) (crewMoves : List CrewMove) :
    let q := (Conveyor.start mode capacity).run moves
    let c := (Crew.start name execution).run crewMoves
    (q.handed ++ q.queue.tasks = q.accepted ∧
      (mode = .delay → q.queue.size ≤ max capacity 1) ∧
      (q.queue.closed = true ↔ .close ∈ moves) ∧
      (∀ t, q.queue.Offered mode capacity t (q.queue.offer t)) ∧
      q.queue.Taken q.queue.take ∧
      q.queue.drain.1 = q.queue.tasks ∧ q.queue.drain.2.1.tasks = []) ∧
    c.taken ++ c.returned ++ c.executor.queue.tasks = c.accepted ∧
      (execution.maxThreads = 1 →
        c.finished <+: c.begun ∧ c.begun <+: c.accepted ∧
          c.begun.length ≤ c.finished.length + 1) ∧
      (.close ∈ crewMoves → ∀ later,
        let c' := (c.step .drain).run later
        c'.accepted = c.accepted ∧ c'.taken = c.taken ∧
          c'.returned = c.returned ++ c.executor.queue.tasks ∧
          c'.taken ++ c'.returned = c'.accepted) := by
  intro q c
  have hq : Conveyor.InOrder mode capacity q := (Conveyor.inOrder_start mode capacity).run moves
  have hc : c.InOrder := Crew.inOrder_run name execution crewMoves
  refine ⟨⟨hq.order, ?_, Conveyor.closed_run mode capacity moves,
    fun t => (hq.bounded.offered t).1, q.queue.taken_take, rfl, rfl⟩, hc.order, fun hone => ?_,
    fun hclose later => hc.drained (Crew.closed_of_close_mem hclose) later⟩
  · rintro rfl
    exact hq.bounded.2
  · obtain ⟨hfinished, hbegun, hrunning⟩ := Crew.begun_prefix name hone crewMoves
    have htaken : c.taken <+: c.accepted :=
      ⟨c.returned ++ c.executor.queue.tasks, by rw [← hc.order, List.append_assoc]⟩
    exact ⟨hfinished, hbegun.trans htaken, hrunning⟩

end RemoteCall.Server
