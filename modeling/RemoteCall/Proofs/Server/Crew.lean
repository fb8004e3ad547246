import RemoteCall.Proofs.Counting
import RemoteCall.Proofs.Server.Activity

/-!
# Executors at work

Several submitters offer tasks to an executor while its threads take tasks, run them, wait and end,
and while somebody may close it. A crew is an executor together with what its submitters are in the
middle of; a move is one step of a submitter, of a thread or of a shutdown, and the moves of a run
follow each other in any order. A move that cannot be made now changes nothing, so every list of
moves is a run.

A submitter whose task was accepted sees to it that somebody runs it, in two steps. It looks at the
threads: when there may be no more of them, or one does not count as busy, it leaves the task to
those that are there. Otherwise it looks at the queue, which may have been emptied meanwhile, and
adds a thread if a task waits. Between these two steps it keeps hold of the threads, so that no
thread ends and no other submitter looks. Nothing ever keeps a thread from taking a task or from
becoming busy.

What is queued is taken off an executor only when it has been closed.

## Main definitions

* `Crew`, `Crew.step`, `Crew.run` : the states, the moves and the runs.
* `Crew.isShort` : tasks wait that no thread is there for.
* `Crew.Stepped` : what a move can do.

## Main results

* `Crew.executor_submit` : a submission without interruption.
* `Crew.stepped` : every move does what `Crew.Stepped` says.
-/

namespace RemoteCall.Server

/-! ### Threads -/

namespace Stage

/-- A thread at this stage waits for a task, or will as soon as it has come to rest. -/
def isFree : Stage → Bool
  | idle | finished => true
  | _ => false

/-- A thread at this stage is about to end. -/
def isLeaving : Stage → Bool
  | leaving => true
  | _ => false

end Stage

namespace Worker

/-- There is a thread for one more task. -/
def isFree (w : Worker) : Bool :=
  w.stage.isFree

/-- The thread is about to end. -/
def isLeaving (w : Worker) : Bool :=
  w.stage.isLeaving

/-- The thread belongs to the core and is not about to end. -/
def stays (w : Worker) : Bool :=
  w.core && !w.isLeaving

theorem countP_singleton (p : Worker → Bool) (w : Worker) : [w].countP p = (p w).toNat := by
  cases hw : p w <;> simp [hw]

end Worker

namespace TaskQueue

variable {q : TaskQueue}

theorem size_eq_zero (h : q.tasks = []) : q.size = 0 := by
  rw [size, h, List.length_nil]

theorem length_append_task (q : TaskQueue) (t : Task) :
    (q.tasks ++ [t]).length = q.size + 1 :=
  List.length_append

end TaskQueue

namespace Executor

/-- The number of threads with a property. -/
def count (e : Executor) (p : Worker → Bool) : Nat :=
  e.workers.countP p

/-- There may be no more threads, and none of those that are there is about to end. -/
def isFull (e : Executor) : Bool :=
  e.maxThreads ≤ e.threads && e.count Worker.isLeaving == 0

/-- There may be more threads, and all that are there count as busy. -/
def isStretched (e : Executor) : Bool :=
  e.minThreads < e.maxThreads && e.threads < e.maxThreads && e.threads ≤ e.busy

/-- Adds a thread. -/
def addThread (e : Executor) : Executor :=
  { e with workers := e.workers ++ [⟨false, .idle⟩] }

/-- A thread ends. -/
def removeThread (e : Executor) (w : Nat) : Executor :=
  { e with workers := e.workers.eraseIdx w }

/-- A thread makes a step. -/
def thread (e : Executor) (w : Nat) : ThreadStep → Executor
  | .take => (e.take w).1
  | .begin => e.begin w
  | .finish => (e.finish w).2
  | .rest => e.rest w
  | .timeOut => e.timeOut w
  | .leave => e.leave w

variable {e : Executor} {w : Nat} {core : Bool} {a b : Stage}

theorem grow_eq (e : Executor) :
    e.grow = if e.isStretched = true ∧ e.queue.tasks ≠ [] then e.addThread else e := by
  have hwants : e.wantsThread = true ↔ e.isStretched = true ∧ e.queue.tasks ≠ [] := by
    simp [wantsThread, isStretched, TaskQueue.isEmpty, and_assoc]
  simp only [grow, hwants]
  rfl

theorem stage?_eq_some_iff :
    e.stage? w = some a ↔ ∃ core, e.workers[w]? = some ⟨core, a⟩ := by
  rw [stage?, Option.map_eq_some_iff]
  constructor
  · rintro ⟨⟨core, stage⟩, hw, rfl⟩
    exact ⟨core, hw⟩
  · rintro ⟨core, hw⟩
    exact ⟨_, hw, rfl⟩

theorem busy_eq (e : Executor) : e.busy = e.count fun w => w.stage.isBusy := by
  rw [busy, count, List.countP_eq_length_filter]

/-- A thread that changes its stage is counted as it is then. -/
theorem count_setStage (p : Worker → Bool) (h : e.workers[w]? = some ⟨core, a⟩) (b : Stage) :
    (e.setStage w b).count p + (p ⟨core, a⟩).toNat = e.count p + (p ⟨core, b⟩).toNat := by
  have hcount := countP_flatMap_modify p (fun x => [x]) (fun x => { x with stage := b }) h
  simp only [List.flatMap_singleton', Worker.countP_singleton] at hcount
  exact hcount

@[simp] theorem count_addThread (e : Executor) (p : Worker → Bool) :
    e.addThread.count p = e.count p + (p ⟨false, .idle⟩).toNat := by
  cases hp : p ⟨false, .idle⟩ <;> simp [addThread, count, hp]

theorem count_removeThread (p : Worker → Bool) (h : e.workers[w]? = some ⟨core, a⟩) :
    (e.removeThread w).count p + (p ⟨core, a⟩).toNat = e.count p := by
  have hcount := countP_flatMap_eraseIdx p (fun x => [x]) h
  simp only [List.flatMap_singleton', Worker.countP_singleton] at hcount
  exact hcount

@[simp] theorem threads_setStage (e : Executor) (w : Nat) (b : Stage) :
    (e.setStage w b).threads = e.threads := by
  simp [threads, setStage]

@[simp] theorem threads_addThread (e : Executor) : e.addThread.threads = e.threads + 1 := by
  simp [threads, addThread]

theorem threads_removeThread (h : e.workers[w]? = some ⟨core, a⟩) :
    (e.removeThread w).threads + 1 = e.threads := by
  obtain ⟨hw, -⟩ := List.getElem?_eq_some_iff.mp h
  simp only [threads, removeThread, List.length_eraseIdx, if_pos hw]
  omega

end Executor

/-! ### Crews -/

/-- A step of a submitter, of a thread or of a shutdown. -/
inductive CrewMove where
  /-- A submitter offers a task. -/
  | offer (t : Task)
  /-- A submitter whose task was accepted looks at the threads. -/
  | look
  /-- The submitter that found more threads needed looks at the queue, and adds one if a task
  waits. -/
  | add
  | thread (w : Nat) (step : ThreadStep)
  | close
  /-- What is left in the queue is taken off. -/
  | drain

/-- An executor, what its submitters are in the middle of, and what happened so far. -/
structure Crew where
  executor : Executor
  /-- The number of submitters whose task was accepted and that have not looked at the threads. -/
  submitters : Nat
  /-- A submitter has found more threads needed and keeps hold of them. -/
  looking : Bool
  /-- How often a submitter left the executor short. -/
  misses : Nat
  /-- The tasks that were accepted, in order. -/
  accepted : List Task
  /-- The tasks that threads have taken, in order. -/
  taken : List Task
  /-- The tasks that threads have begun to run, in order. -/
  begun : List Task
  /-- The tasks that threads have finished, in order. -/
  finished : List Task
  /-- The tasks that were taken off the closed queue, in order. -/
  returned : List Task

namespace Crew

/-- An executor with its core threads waiting and nobody else. -/
def start (name : String) (execution : Execution) : Crew :=
  { executor := .new name execution
    submitters := 0
    looking := false
    misses := 0
    accepted := []
    taken := []
    begun := []
    finished := []
    returned := [] }

/-- More tasks wait than threads are free or submitters have yet to look, and there are to be more
threads. -/
def isShort (c : Crew) : Bool :=
  !c.executor.isFull && c.executor.count Worker.isFree + c.submitters < c.executor.queue.size

/-- Takes down what a thread is about to do. -/
def note (c : Crew) (w : Nat) (step : ThreadStep) : Crew :=
  match step, c.executor.stage? w with
  | .take, some .idle => { c with taken := c.taken ++ c.executor.queue.tasks.head?.toList }
  | .begin, some (.holding t) => { c with begun := c.begun ++ [t] }
  | .finish, some (.running t) => { c with finished := c.finished ++ [t] }
  | _, _ => c

/-- A thread makes a step, which is taken down. -/
def goOn (c : Crew) (w : Nat) (step : ThreadStep) : Crew :=
  { c.note w step with executor := c.executor.thread w step }

/-- A submitter looks at the threads. -/
def look (c : Crew) : Crew :=
  if c.executor.isStretched then { c with looking := true }
  else { c with misses := c.misses + c.isShort.toNat }

/-- Makes a move. -/
def step (c : Crew) : CrewMove → Crew
  | .offer t =>
    match c.executor.offer t with
    | (.accepted, executor, _) =>
      { c with executor, submitters := c.submitters + 1, accepted := c.accepted ++ [t] }
    | _ => c
  | .look =>
    match c.looking, c.submitters with
    | false, n + 1 => { c with submitters := n }.look
    | _, _ => c
  | .add =>
    match c.looking, c.executor.queue.tasks with
    | false, _ => c
    | true, [] => { c with looking := false }
    | true, _ :: _ => { c with looking := false, executor := c.executor.addThread }
  | .thread w .leave => if c.looking then c else c.goOn w .leave
  | .thread w step => c.goOn w step
  | .close => { c with executor := c.executor.close }
  | .drain =>
    if c.executor.isStopping then
      { c with
        executor := c.executor.drained, returned := c.returned ++ c.executor.drain.1 }
    else c

/-- Makes moves one after another. -/
def run (c : Crew) (moves : List CrewMove) : Crew :=
  moves.foldl step c

theorem run_append (c : Crew) (moves moves' : List CrewMove) :
    c.run (moves ++ moves') = (c.run moves).run moves' :=
  List.foldl_append

/-- A property that every move preserves holds after every run. -/
theorem run_induction {P : Crew → Prop} (hstep : ∀ c, P c → ∀ m, P (c.step m)) {c : Crew}
    (hc : P c) (moves : List CrewMove) : P (c.run moves) := by
  induction moves generalizing c with
  | nil => exact hc
  | cons m moves ih => exact ih (hstep c hc m)

/-! ### What a move can do -/

variable {c : Crew}

/-- The crew with another executor. -/
def on (c : Crew) (executor : Executor) : Crew :=
  { c with executor }

/-- What a move can do: a submitter has its task accepted, passes over the threads, keeps hold of
them, or lets go of them; a thread goes on to its next stage or ends; or the executor is closed or
its closed queue emptied. -/
inductive Stepped (c : Crew) : Crew → Prop
  | same : Stepped c c
  | accepted {t : Task} {policy : OverflowPolicy} (hopen : c.executor.queue.closed = false) :
      Stepped c
        { c with
          executor :=
            { c.executor with
              queue := { c.executor.queue with tasks := c.executor.queue.tasks ++ [t], policy } }
          submitters := c.submitters + 1
          accepted := c.accepted ++ [t] }
  | looked {n : Nat} (hlooking : c.looking = false) (hsubmitters : c.submitters = n + 1) :
      Stepped c { c with submitters := n }.look
  | added (hlooking : c.looking = true) (htasks : c.executor.queue.tasks ≠ []) :
      Stepped c { c with looking := false, executor := c.executor.addThread }
  | unneeded (hlooking : c.looking = true) (htasks : c.executor.queue.tasks = []) :
      Stepped c { c with looking := false }
  | took {w : Nat} {core : Bool} {t : Task} {tasks : List Task} {policy : OverflowPolicy}
      (hw : c.executor.workers[w]? = some ⟨core, .idle⟩)
      (htasks : c.executor.queue.tasks = t :: tasks) :
      Stepped c
        { c with
          executor :=
            { c.executor with queue := { c.executor.queue with tasks, policy } }.setStage w
              (.holding t)
          taken := c.taken ++ [t] }
  | began {w : Nat} {core : Bool} {t : Task}
      (hw : c.executor.workers[w]? = some ⟨core, .holding t⟩) :
      Stepped c
        { c with executor := c.executor.setStage w (.running t), begun := c.begun ++ [t] }
  | finished {w : Nat} {core : Bool} {t : Task}
      (hw : c.executor.workers[w]? = some ⟨core, .running t⟩) :
      Stepped c
        { c with executor := c.executor.setStage w .finished, finished := c.finished ++ [t] }
  | rested {w : Nat} {core : Bool} (hw : c.executor.workers[w]? = some ⟨core, .finished⟩) :
      Stepped c (c.on (c.executor.setStage w .idle))
  | departed {w : Nat} {core : Bool} (hw : c.executor.workers[w]? = some ⟨core, .idle⟩)
      (htasks : c.executor.queue.tasks = [])
      (hmay : core = false ∨ c.executor.queue.closed = true) :
      Stepped c (c.on (c.executor.setStage w .leaving))
  | ended {w : Nat} {core : Bool} (hlooking : c.looking = false)
      (hw : c.executor.workers[w]? = some ⟨core, .leaving⟩) :
      Stepped c (c.on (c.executor.removeThread w))
  | closed : Stepped c (c.on c.executor.close)
  | drained (hclosed : c.executor.queue.closed = true) :
      Stepped c
        { c with
          executor := c.executor.drained, returned := c.returned ++ c.executor.queue.tasks }

theorem stepped_offer (c : Crew) (t : Task) : c.Stepped (c.step (.offer t)) := by
  rcases c.executor.queue.offer_cases t with ⟨-, h⟩ | ⟨-, -, h⟩ | ⟨policy, signals, hopen, -, h⟩
  · have hsame : c.step (.offer t) = c := by simp only [step, Executor.offer, h]
    rw [hsame]
    exact .same
  · have hsame : c.step (.offer t) = c := by simp only [step, Executor.offer, h]
    rw [hsame]
    exact .same
  · simp only [step, Executor.offer, h]
    exact .accepted hopen

theorem stepped_look (c : Crew) : c.Stepped (c.step .look) := by
  unfold step
  dsimp only
  split
  · rename_i n hlooking hsubmitters
    exact .looked hlooking hsubmitters
  · exact .same

theorem stepped_add (c : Crew) : c.Stepped (c.step .add) := by
  unfold step
  dsimp only
  split
  · exact .same
  · rename_i hlooking htasks
    exact .unneeded hlooking htasks
  · rename_i hlooking htasks
    exact .added hlooking (by simp [htasks])

theorem stepped_drain (c : Crew) : c.Stepped (c.step .drain) := by
  unfold step
  dsimp only
  split
  · rename_i hclosed
    exact .drained hclosed
  · exact .same

theorem stepped_take (c : Crew) (w : Nat) : c.Stepped (c.goOn w .take) := by
  cases hstage : c.executor.stage? w with
  | none =>
    have hsame : c.goOn w .take = c := by simp [goOn, note, Executor.thread, Executor.take, hstage]
    rw [hsame]
    exact .same
  | some stage =>
    obtain ⟨core, hw⟩ := Executor.stage?_eq_some_iff.mp hstage
    cases stage with
    | idle =>
      cases htasks : c.executor.queue.tasks with
      | nil =>
        cases hclosed : c.executor.queue.closed with
        | true =>
          have hdeparts : c.goOn w .take = c.on (c.executor.setStage w .leaving) := by
            simp [goOn, note, on, Executor.thread, Executor.take, TaskQueue.take, hstage, htasks,
              hclosed]
          rw [hdeparts]
          exact .departed hw htasks (Or.inr hclosed)
        | false =>
          have hsame : c.goOn w .take = c := by
            simp [goOn, note, Executor.thread, Executor.take, TaskQueue.take, hstage, htasks,
              hclosed]
          rw [hsame]
          exact .same
      | cons t tasks =>
        have htakes : c.goOn w .take =
            { c with
              executor :=
                { c.executor with
                  queue :=
                    { c.executor.queue with
                      tasks, policy := (c.executor.queue.policy.onDequeue tasks.length).1 }
                  }.setStage w (.holding t)
              taken := c.taken ++ [t] } := by
          simp [goOn, note, Executor.thread, Executor.take, TaskQueue.take, hstage, htasks]
        rw [htakes]
        exact .took hw htasks
    | _ =>
      have hsame : c.goOn w .take = c := by
        simp [goOn, note, Executor.thread, Executor.take, hstage]
      rw [hsame]
      exact .same

theorem stepped_begin (c : Crew) (w : Nat) : c.Stepped (c.goOn w .begin) := by
  rcases hstage : c.executor.stage? w with - | ⟨- | t | t | - | -⟩
  case some.holding =>
    obtain ⟨core, hw⟩ := Executor.stage?_eq_some_iff.mp hstage
    have hbegins : c.goOn w .begin =
        { c with executor := c.executor.setStage w (.running t), begun := c.begun ++ [t] } := by
      simp [goOn, note, Executor.thread, Executor.begin, hstage]
    rw [hbegins]
    exact .began hw
  all_goals
    have hsame : c.goOn w .begin = c := by
      simp [goOn, note, Executor.thread, Executor.begin, hstage]
    rw [hsame]
    exact .same

theorem stepped_finish (c : Crew) (w : Nat) : c.Stepped (c.goOn w .finish) := by
  rcases hstage : c.executor.stage? w with - | ⟨- | t | t | - | -⟩
  case some.running =>
    obtain ⟨core, hw⟩ := Executor.stage?_eq_some_iff.mp hstage
    have hfinishes : c.goOn w .finish =
        { c with executor := c.executor.setStage w .finished, finished := c.finished ++ [t] } := by
      simp [goOn, note, Executor.thread, Executor.finish, hstage]
    rw [hfinishes]
    exact .finished hw
  all_goals
    have hsame : c.goOn w .finish = c := by
      simp [goOn, note, Executor.thread, Executor.finish, hstage]
    rw [hsame]
    exact .same

theorem stepped_rest (c : Crew) (w : Nat) : c.Stepped (c.goOn w .rest) := by
  have hnote : c.goOn w .rest = c.on (c.executor.rest w) := rfl
  rw [hnote, Executor.rest]
  split
  · rename_i hstage
    obtain ⟨core, hw⟩ := Executor.stage?_eq_some_iff.mp hstage
    exact .rested hw
  · exact .same

theorem stepped_timeOut (c : Crew) (w : Nat) : c.Stepped (c.goOn w .timeOut) := by
  have hnote : c.goOn w .timeOut = c.on (c.executor.timeOut w) := rfl
  rw [hnote, Executor.timeOut]
  split
  · rename_i h
    rw [Bool.and_eq_true, Option.any_eq_true] at h
    obtain ⟨⟨⟨core, stage⟩, hw, hmay⟩, hempty⟩ := h
    have htasks : c.executor.queue.tasks = [] := List.isEmpty_iff.mp hempty
    cases core <;> cases stage <;> try cases hmay
    exact .departed hw htasks (Or.inl rfl)
  · exact .same

theorem stepped_leave (hlooking : c.looking = false) (w : Nat) :
    c.Stepped (c.goOn w .leave) := by
  have hnote : c.goOn w .leave = c.on (c.executor.leave w) := rfl
  rw [hnote, Executor.leave]
  split
  · rename_i hstage
    obtain ⟨core, hw⟩ := Executor.stage?_eq_some_iff.mp hstage
    exact .ended hlooking hw
  · exact .same

/-- Every move does one of the things of `Stepped`. -/
theorem stepped (c : Crew) (m : CrewMove) : c.Stepped (c.step m) := by
  cases m with
  | offer t => exact c.stepped_offer t
  | look => exact c.stepped_look
  | add => exact c.stepped_add
  | close => exact .closed
  | drain => exact c.stepped_drain
  | thread w step =>
    cases step with
    | take => exact c.stepped_take w
    | begin => exact c.stepped_begin w
    | finish => exact c.stepped_finish w
    | rest => exact c.stepped_rest w
    | timeOut => exact c.stepped_timeOut w
    | leave =>
      cases hlooking : c.looking with
      | true =>
        have hsame : c.step (.thread w .leave) = c := by simp [step, hlooking]
        rw [hsame]
        exact .same
      | false =>
        have hgoes : c.step (.thread w .leave) = c.goOn w .leave := by simp [step, hlooking, goOn]
        rw [hgoes]
        exact stepped_leave hlooking w

/-- A submitter that looks and is not interrupted adds a thread if the executor wants one. -/
theorem executor_grow {n : Nat} (hsubmitters : c.submitters = n + 1)
    (hlooking : c.looking = false) : (c.run [.look, .add]).executor = c.executor.grow := by
  have hrun : c.run [.look, .add] = { c with submitters := n }.look.step .add := by
    simp [run, step, hsubmitters, hlooking]
  rw [hrun, Executor.grow_eq, look]
  cases hstretched : c.executor.isStretched with
  | false => simp [step, hlooking]
  | true => rcases htasks : c.executor.queue.tasks with - | ⟨t, tasks⟩ <;> simp [step, htasks]

/-- A submitter that nobody interrupts does to the executor what a submission does. -/
theorem executor_submit (hsubmitters : c.submitters = 0) (hlooking : c.looking = false) (t : Task) :
    (c.run [.offer t, .look, .add]).executor = (c.executor.submit t).2.1 := by
  have hrun : c.run [.offer t, .look, .add] = (c.step (.offer t)).run [.look, .add] := rfl
  rcases c.executor.queue.offer_cases t with ⟨-, h⟩ | ⟨-, -, h⟩ | ⟨policy, signals, -, -, h⟩
  · simp [run, step, Executor.submit, Executor.offer, h, hsubmitters, hlooking]
  · simp [run, step, Executor.submit, Executor.offer, h, hsubmitters, hlooking]
  · have hoffer : c.executor.offer t =
        (.accepted, { c.executor with
          queue := { c.executor.queue with tasks := c.executor.queue.tasks ++ [t], policy } },
          signals) := by
      simp only [Executor.offer, h]
    have hlooks : (c.step (.offer t)).looking = false := by simp only [step, hoffer, hlooking]
    have hnext : (c.step (.offer t)).submitters = c.submitters + 1 := by simp only [step, hoffer]
    rw [hrun, executor_grow hnext hlooks]
    simp only [step, hoffer, Executor.submit]

end Crew

end RemoteCall.Server
