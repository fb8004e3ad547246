import RemoteCall.Proofs.Server.Crew

/-!
# Pools that grow

A pool adds threads while every thread is busy and work is waiting. It decides this once for each
task, when the submitter of the task looks at the threads, and a submitter can be wrong about them:
a thread that has just taken a task does not count as busy yet, a thread that is about to end is
still counted, and an idle thread may have more tasks before it than it can take. Nobody looks again
before the next task is submitted.

How far a pool can fall behind is counted here. A submitter misses if it adds no thread although
more tasks wait than there are threads free to take them or submitters that have yet to look. No
more tasks wait, while every thread runs one and there may be more threads, than were missed; and a
submitter misses only while other submitters, or threads between two tasks, are under way.

## Main definitions

* `Crew.Behind` : tasks wait, all threads run a task, and nobody is about to change this.
* `Crew.Settled` : nobody is under way.

## Main results

* `Crew.pool_growth` : the bounds of a pool, and what keeps it from growing.
* `Crew.pool_growth_to_two` : a pool that grows, and one that is behind because it is full.
* `Crew.task_left_waiting` : a pool that is behind and has not grown.
-/

namespace RemoteCall.Server

namespace Executor

variable {e : Executor}

theorem isFull_iff :
    e.isFull = true ↔ e.maxThreads ≤ e.threads ∧ e.count Worker.isLeaving = 0 := by
  simp [isFull]

end Executor

namespace Crew

variable {c c' : Crew} {execution : Execution}

/-- The tasks that nobody is there for are no more than were missed. -/
def Served (c : Crew) : Prop :=
  c.executor.isFull = true ∨
    c.executor.queue.size ≤
      c.executor.count Worker.isFree + c.submitters + c.looking.toNat + c.misses

theorem isShort_eq_false_iff : c.isShort = false ↔ c.executor.isFull = true ∨
    c.executor.queue.size ≤ c.executor.count Worker.isFree + c.submitters := by
  simp only [isShort, Bool.and_eq_false_iff, Bool.not_eq_false', decide_eq_false_iff_not,
    Nat.not_lt]

/-- The bounds of the pool are kept; while it is open its core is complete and its tasks are
served. -/
structure Staffed (execution : Execution) (c : Crew) : Prop where
  min : c.executor.minThreads = execution.minThreads
  max : c.executor.maxThreads = execution.maxThreads
  threads_le : c.executor.threads ≤ execution.maxThreads
  room : c.looking = true → c.executor.threads < execution.maxThreads
  core : c.executor.queue.closed = false → c.executor.count Worker.stays = execution.minThreads
  served : c.executor.queue.closed = false → c.Served

theorem staffed_start (name : String) (execution : Execution) :
    (start name execution).Staffed execution := by
  have hbounds : execution.minThreads ≤ execution.maxThreads := by
    rw [Execution.minThreads, Execution.maxThreads]
    cases execution.threads with
    | single => exact Nat.le_refl 1
    | pool min most => exact Nat.le_max_right _ _
  have hstays : Worker.stays ⟨true, .idle⟩ = true := rfl
  refine ⟨rfl, rfl, ?_, by simp [start], fun _ => ?_, fun _ => Or.inr (Nat.zero_le _)⟩
  · simpa [start, Executor.new, Executor.threads] using hbounds
  · simp [start, Executor.new, Executor.count, List.countP_replicate, hstays]

/-- A thread that goes on to another stage and is not about to end. It may take a task when it was
free. -/
theorem Staffed.restage {w : Nat} {core : Bool} {a b : Stage} {queue : TaskQueue}
    (h : c.Staffed execution) (hw : c.executor.workers[w]? = some ⟨core, a⟩)
    (he : c'.executor = { c.executor with queue }.setStage w b)
    (hsame : c'.submitters = c.submitters ∧ c'.looking = c.looking ∧ c'.misses = c.misses)
    (hclosed : queue.closed = c.executor.queue.closed)
    (ha : Worker.isLeaving ⟨core, a⟩ = false) (hb : Worker.isLeaving ⟨core, b⟩ = false)
    (hsize : queue.size + (Worker.isFree ⟨core, a⟩).toNat ≤
      c.executor.queue.size + (Worker.isFree ⟨core, b⟩).toNat) :
    c'.Staffed execution := by
  obtain ⟨hsubmitters, hlooking, hmisses⟩ := hsame
  have hcount (p : Worker → Bool) : c'.executor.count p + (p ⟨core, a⟩).toNat =
      c.executor.count p + (p ⟨core, b⟩).toNat := by
    rw [he]
    exact Executor.count_setStage (e := { c.executor with queue }) p hw b
  have hthreads : c'.executor.threads = c.executor.threads := by
    rw [he, Executor.threads_setStage]
    rfl
  have hfree := hcount Worker.isFree
  have hleaving := hcount Worker.isLeaving
  have hcore : c'.executor.count Worker.stays = c.executor.count Worker.stays := by
    have hstays := hcount Worker.stays
    simpa only [Worker.stays, ha, hb, Bool.not_false, Bool.and_true, Nat.add_right_cancel_iff]
      using hstays
  have hqueue : c'.executor.queue = queue := by rw [he]; rfl
  have hmin : c'.executor.minThreads = c.executor.minThreads := by rw [he]; rfl
  have hmax : c'.executor.maxThreads = c.executor.maxThreads := by rw [he]; rfl
  simp only [ha, hb, Nat.add_right_cancel_iff] at hleaving
  refine ⟨hmin.trans h.min, hmax.trans h.max, hthreads ▸ h.threads_le, fun hlooks => ?_,
    fun hopen => ?_, fun hopen => ?_⟩
  · rw [hthreads]
    exact h.room (hlooking ▸ hlooks)
  · exact hcore.trans (h.core (by rw [← hclosed, ← hqueue, hopen]))
  · have hserved := h.served (by rw [← hclosed, ← hqueue, hopen])
    rw [Served, Executor.isFull_iff] at hserved ⊢
    rw [hthreads, hleaving, hmax, hqueue, hsubmitters, hlooking, hmisses]
    omega

/-- Nothing is asked of a closed executor but that it keeps its bounds. -/
theorem Staffed.of_closed (h : c.Staffed execution) (hclosed : c'.executor.queue.closed = true)
    (hworkers : c'.executor.workers = c.executor.workers)
    (hmin : c'.executor.minThreads = c.executor.minThreads)
    (hmax : c'.executor.maxThreads = c.executor.maxThreads)
    (hlooking : c'.looking = c.looking) : c'.Staffed execution := by
  have hthreads : c'.executor.threads = c.executor.threads := by
    rw [Executor.threads, hworkers, Executor.threads]
  refine ⟨hmin.trans h.min, hmax.trans h.max, hthreads ▸ h.threads_le, fun hlooks => ?_, ?_, ?_⟩
  · rw [hthreads]
    exact h.room (hlooking ▸ hlooks)
  all_goals
    intro hopen
    rw [hclosed] at hopen
    cases hopen

/-- A submitter that looks keeps hold of the threads while there may be more, and otherwise
misses if it leaves tasks that nobody is there for. -/
theorem Staffed.looked {n : Nat} (h : c.Staffed execution) (hsubmitters : c.submitters = n + 1)
    (hlooking : c.looking = false) :
    ({ c with submitters := n } : Crew).look.Staffed execution := by
  rw [look]
  split
  · rename_i hstretched
    have hroom : c.executor.threads < c.executor.maxThreads := by
      simp only [Executor.isStretched, Bool.and_eq_true, decide_eq_true_eq] at hstretched
      exact hstretched.1.2
    refine ⟨h.min, h.max, h.threads_le, fun _ => h.max ▸ hroom, h.core, fun hopen => ?_⟩
    have hserved := h.served hopen
    rw [Served, hsubmitters, hlooking] at hserved
    simpa [Served, Nat.add_assoc, Nat.add_comm 1] using hserved
  · refine ⟨h.min, h.max, h.threads_le, h.room, h.core, fun hopen => ?_⟩
    -- The submitter is there for its task no longer. Either somebody else is, or it is missed.
    rcases h.served hopen with hfull | hserved
    · exact Or.inl hfull
    rw [hsubmitters, hlooking, Bool.toNat_false] at hserved
    cases hshort : ({ c with submitters := n } : Crew).isShort with
    | true =>
      refine Or.inr ?_
      show c.executor.queue.size ≤
        c.executor.count Worker.isFree + n + c.looking.toNat + (c.misses + 1)
      omega
    | false =>
      refine (isShort_eq_false_iff.mp hshort).imp (fun hfull => hfull) fun henough => ?_
      have henough : c.executor.queue.size ≤ c.executor.count Worker.isFree + n := henough
      show c.executor.queue.size ≤ c.executor.count Worker.isFree + n + c.looking.toNat + c.misses
      omega

/-- A thread that is added is free for one more task. -/
theorem Staffed.added (h : c.Staffed execution) (hlooking : c.looking = true) :
    ({ c with looking := false, executor := c.executor.addThread } : Crew).Staffed execution := by
  have hroom := h.room hlooking
  refine ⟨h.min, h.max, ?_, by simp, fun hopen => ?_, fun hopen => ?_⟩
  · show c.executor.addThread.threads ≤ _
    rw [Executor.threads_addThread]
    exact hroom
  · show c.executor.addThread.count _ = _
    rw [Executor.count_addThread]
    exact h.core hopen
  · rcases h.served hopen with hfull | hserved
    · obtain ⟨hfull, -⟩ := Executor.isFull_iff.mp hfull
      rw [h.max] at hfull
      omega
    · refine Or.inr ?_
      have hfree : c.executor.addThread.count Worker.isFree =
          c.executor.count Worker.isFree + 1 := Executor.count_addThread _ _
      rw [hlooking, Bool.toNat_true] at hserved
      show c.executor.queue.size ≤
        c.executor.addThread.count Worker.isFree + c.submitters + 0 + c.misses
      omega

/-- While the queue is open only a thread beyond the core departs, and only when nothing waits. -/
theorem Staffed.departed {w : Nat} {core : Bool} (h : c.Staffed execution)
    (hw : c.executor.workers[w]? = some ⟨core, .idle⟩) (htasks : c.executor.queue.tasks = [])
    (hmay : core = false ∨ c.executor.queue.closed = true) :
    (c.on (c.executor.setStage w .leaving)).Staffed execution := by
  refine ⟨h.min, h.max, ?_, fun hlooking => ?_, fun hopen => ?_, fun _ => Or.inr ?_⟩
  · show (c.executor.setStage w .leaving).threads ≤ _
    rw [Executor.threads_setStage]
    exact h.threads_le
  · show (c.executor.setStage w .leaving).threads < _
    rw [Executor.threads_setStage]
    exact h.room hlooking
  · have hopen : c.executor.queue.closed = false := hopen
    have hcore : core = false := hmay.resolve_right (by simp [hopen])
    have hstays := Executor.count_setStage Worker.stays hw .leaving
    subst hcore
    exact hstays.trans (h.core hopen)
  · show c.executor.queue.size ≤ _
    rw [TaskQueue.size_eq_zero htasks]
    exact Nat.zero_le _

/-- A thread that ends was no longer counted on. -/
theorem Staffed.ended {w : Nat} {core : Bool} (h : c.Staffed execution)
    (hlooking : c.looking = false) (hw : c.executor.workers[w]? = some ⟨core, .leaving⟩) :
    (c.on (c.executor.removeThread w)).Staffed execution := by
  have hthreads := Executor.threads_removeThread hw
  refine ⟨h.min, h.max, ?_, fun hlooks => ?_, fun hopen => ?_, fun hopen => ?_⟩
  · show (c.executor.removeThread w).threads ≤ _
    have hle := h.threads_le
    omega
  · have hlooks : c.looking = true := hlooks
    rw [hlooking] at hlooks
    cases hlooks
  · have hstays := Executor.count_removeThread Worker.stays hw
    have hleaves : Worker.stays ⟨core, .leaving⟩ = false := Bool.and_false core
    rw [hleaves] at hstays
    exact hstays.trans (h.core hopen)
  · rcases h.served hopen with hfull | hserved
    · -- The thread was still counted as one that is about to end.
      obtain ⟨-, hnone⟩ := Executor.isFull_iff.mp hfull
      have hleaving := Executor.count_removeThread Worker.isLeaving hw
      rw [hnone] at hleaving
      cases hleaving
    · have hfree := Executor.count_removeThread Worker.isFree hw
      refine Or.inr ?_
      have hsame : (c.executor.removeThread w).count Worker.isFree =
          c.executor.count Worker.isFree := hfree
      show c.executor.queue.size ≤ (c.executor.removeThread w).count Worker.isFree +
        c.submitters + c.looking.toNat + c.misses
      omega

/-- Every move keeps the pool staffed. -/
theorem Staffed.stepped (h : c.Staffed execution) (hc : c.Stepped c') : c'.Staffed execution := by
  cases hc with
  | same => exact h
  | @accepted t policy hopen =>
    refine ⟨h.min, h.max, h.threads_le, h.room, fun _ => h.core hopen, fun _ => ?_⟩
    refine (h.served hopen).imp (fun hfull => hfull) fun hserved => ?_
    have hlonger := c.executor.queue.length_append_task t
    show (c.executor.queue.tasks ++ [t]).length ≤
      c.executor.count Worker.isFree + (c.submitters + 1) + c.looking.toNat + c.misses
    omega
  | looked hlooking hsubmitters => exact h.looked hsubmitters hlooking
  | added hlooking htasks => exact h.added hlooking
  | unneeded hlooking htasks =>
    refine ⟨h.min, h.max, h.threads_le, by simp, h.core, fun _ => Or.inr ?_⟩
    show c.executor.queue.size ≤ _
    rw [TaskQueue.size_eq_zero htasks]
    exact Nat.zero_le _
  | took hw htasks =>
    refine h.restage hw rfl ⟨rfl, rfl, rfl⟩ rfl rfl rfl ?_
    simp [TaskQueue.size, htasks, Worker.isFree, Stage.isFree]
  | began hw => exact h.restage hw rfl ⟨rfl, rfl, rfl⟩ rfl rfl rfl (Nat.le_refl _)
  | finished hw => exact h.restage hw rfl ⟨rfl, rfl, rfl⟩ rfl rfl rfl (Nat.le_succ _)
  | rested hw => exact h.restage hw rfl ⟨rfl, rfl, rfl⟩ rfl rfl rfl (Nat.le_refl _)
  | departed hw htasks hmay => exact h.departed hw htasks hmay
  | ended hlooking hw => exact h.ended hlooking hw
  | closed => exact h.of_closed rfl rfl rfl rfl rfl
  | drained hclosed => exact h.of_closed hclosed rfl rfl rfl rfl

theorem staffed_run (name : String) (execution : Execution) (moves : List CrewMove) :
    ((start name execution).run moves).Staffed execution :=
  run_induction (fun c hc m => hc.stepped (c.stepped m)) (staffed_start name execution) moves

/-! ### Pools that are behind -/

/-- Tasks wait and all threads run one, while nobody is submitting and the executor is open. -/
structure Behind (c : Crew) : Prop where
  submitters : c.submitters = 0
  looking : c.looking = false
  isOpen : c.executor.queue.closed = false
  waiting : c.executor.queue.tasks ≠ []
  running : ∀ w ∈ c.executor.workers, ∃ t, w.stage = .running t

/-- Nobody is submitting, and every thread counts as busy or waits with nothing before it. -/
structure Settled (c : Crew) : Prop where
  submitters : c.submitters = 0
  looking : c.looking = false
  settled : ∀ w ∈ c.executor.workers,
    w.stage.isBusy = true ∨ w.stage = .idle ∧ c.executor.queue.tasks = []

/-- A pool that is behind has all the threads that it may have, unless as many tasks were missed as
wait. -/
theorem Staffed.threads_of_behind (h : c.Staffed execution) (hc : c.Behind) :
    c.executor.threads = execution.maxThreads ∨ c.executor.queue.size ≤ c.misses := by
  have hfree : c.executor.count Worker.isFree = 0 := by
    refine List.countP_eq_zero.mpr fun w hw => ?_
    obtain ⟨t, ht⟩ := hc.running w hw
    simp [Worker.isFree, ht, Stage.isFree]
  rcases h.served hc.isOpen with hfull | hserved
  · obtain ⟨hmax, -⟩ := Executor.isFull_iff.mp hfull
    exact Or.inl (Nat.le_antisymm h.threads_le (h.max ▸ hmax))
  · rw [hfree, hc.submitters, hc.looking, Bool.toNat_false] at hserved
    exact Or.inr (by omega)

/-- While everything is settled there is a thread for one more task, or one is added, or there may
be no more. -/
theorem Staffed.room_of_settled (h : c.Staffed execution) (hc : c.Settled)
    (hopen : c.executor.queue.closed = false) :
    c.executor.isStretched = true ∨ c.executor.isFull = true ∨
      c.executor.queue.size + 1 ≤ c.executor.count Worker.isFree := by
  -- If all threads are busy the pool grows or is full; otherwise one waits and nothing is queued.
  by_cases hbusy : ∀ w ∈ c.executor.workers, w.stage.isBusy = true
  · have hall : c.executor.busy = c.executor.threads := by
      rw [Executor.busy_eq]
      exact List.countP_eq_length.mpr hbusy
    have hcore : c.executor.minThreads ≤ c.executor.threads := by
      rw [h.min, ← h.core hopen]
      exact List.countP_le_length
    have hleaving : c.executor.count Worker.isLeaving = 0 := by
      refine List.countP_eq_zero.mpr fun w hw hleaves => ?_
      have hworks := hbusy w hw
      rcases w with ⟨core, - | t | t | - | -⟩ <;>
        simp [Worker.isLeaving, Stage.isLeaving, Stage.isBusy] at *
    rw [Executor.isFull_iff]
    simp only [Executor.isStretched, Bool.and_eq_true, decide_eq_true_eq]
    omega
  · obtain ⟨w, hw, hidle⟩ : ∃ w ∈ c.executor.workers, ¬w.stage.isBusy = true := by
      simpa using hbusy
    obtain ⟨hstage, htasks⟩ := (hc.settled w hw).resolve_left hidle
    have hfree : 0 < c.executor.count Worker.isFree :=
      List.countP_pos_iff.mpr ⟨w, hw, by rw [Worker.isFree, hstage]; rfl⟩
    have hnone := TaskQueue.size_eq_zero htasks
    exact Or.inr (Or.inr (by omega))

theorem misses_add (c : Crew) : (c.step .add).misses = c.misses := by
  unfold step
  dsimp only
  split <;> rfl

/-- A task that is submitted while everything is settled is not missed. -/
theorem Staffed.misses_of_settled (h : c.Staffed execution) (hc : c.Settled) (t : Task) :
    (c.run [.offer t, .look, .add]).misses = c.misses := by
  have hrun : (c.run [.offer t, .look, .add]).misses = ((c.step (.offer t)).step .look).misses :=
    misses_add _
  rw [hrun]
  rcases c.executor.queue.offer_cases t with ⟨-, hoffer⟩ | ⟨-, -, hoffer⟩ |
    ⟨policy, signals, hopen, -, hoffer⟩
  · simp [step, Executor.offer, hoffer, hc.submitters, hc.looking]
  · simp [step, Executor.offer, hoffer, hc.submitters, hc.looking]
  · have hlooks : (c.step (.offer t)).step .look =
        ({ c with
          executor := { c.executor with
            queue := { c.executor.queue with tasks := c.executor.queue.tasks ++ [t], policy } }
          accepted := c.accepted ++ [t] } : Crew).look := by
      simp [step, Executor.offer, hoffer, hc.submitters, hc.looking]
    rw [hlooks, look]
    split
    · rfl
    · rename_i hslack
      have hlonger := c.executor.queue.length_append_task t
      have hroom := (h.room_of_settled hc hopen).resolve_left hslack
      rw [isShort_eq_false_iff.mpr]
      · rfl
      · refine hroom.imp (fun hfull => hfull) fun hfree => ?_
        show (c.executor.queue.tasks ++ [t]).length ≤
          c.executor.count Worker.isFree + c.submitters
        omega

/-- For every executor and every interleaving of submitters with threads and with somebody who
closes it: there are never more threads than the largest number, and as long as the executor is open
never fewer than the smallest. If it is open and tasks wait while every thread runs one and nobody
is submitting, then there are as many threads as there may be, or no more tasks wait than submitters
have missed. A task that is submitted while no other one is, and while every thread counts as busy
or waits before an empty queue, is not missed. -/
theorem pool_growth (name : String) (execution : Execution) (moves : List CrewMove) :
    let c := (start name execution).run moves
    c.executor.threads ≤ execution.maxThreads ∧
      (c.executor.queue.closed = false → execution.minThreads ≤ c.executor.threads) ∧
      (c.Behind →
        c.executor.threads = execution.maxThreads ∨ c.executor.queue.size ≤ c.misses) ∧
      (c.Settled → ∀ t, (c.run [.offer t, .look, .add]).misses = c.misses) := by
  intro c
  have hc : c.Staffed execution := staffed_run name execution moves
  refine ⟨hc.threads_le, fun hopen => ?_, hc.threads_of_behind, hc.misses_of_settled⟩
  rw [← hc.core hopen]
  exact List.countP_le_length

/-- While its only thread runs a task the pool is settled: the next task gets a second thread, and
with both of them at work the third task waits, since there may be no more. -/
theorem pool_growth_to_two :
    let task (serial : Nat) : Task :=
      { header := ⟨1, 1, 1, .empty⟩
        method := .ofSignature 1 1 (.ofName "echo") (some .echo) .standard
        parameter := .empty
        connection := 1
        attempts := 0
        serial }
    let execution := (Execution.pool 1 2).withCapacity 2
    let c := (start "pool" execution).run
      [.offer (task 1), .look, .add, .thread 0 .take, .thread 0 .begin]
    let grown := c.run [.offer (task 2), .look, .add]
    let full := grown.run [.thread 1 .take, .thread 1 .begin, .offer (task 3), .look, .add]
    c.Settled ∧ c.executor.threads = 1 ∧ grown.misses = c.misses ∧ grown.executor.threads = 2 ∧
      full.Behind ∧ full.executor.threads = 2 := by
  intro task execution c grown full
  let empty := start "pool" execution
  let queued : Crew :=
    { empty with executor.queue.tasks := [task 1], accepted := [task 1] }
  let running : Crew :=
    { empty with
      executor.workers := [⟨true, .running (task 1)⟩]
      accepted := [task 1]
      taken := [task 1]
      begun := [task 1] }
  let added : Crew :=
    { running with
      executor.queue.tasks := [task 2]
      executor.workers := [⟨true, .running (task 1)⟩, ⟨false, .idle⟩]
      accepted := [task 1, task 2] }
  let both : Crew :=
    { running with
      executor.workers := [⟨true, .running (task 1)⟩, ⟨false, .running (task 2)⟩]
      accepted := [task 1, task 2]
      taken := [task 1, task 2]
      begun := [task 1, task 2] }
  let waiting : Crew :=
    { both with
      executor.queue.tasks := [task 3]
      accepted := [task 1, task 2, task 3] }
  have hqueued : empty.run [.offer (task 1), .look, .add] = queued := rfl
  have hrunning : queued.run [.thread 0 .take, .thread 0 .begin] = running := rfl
  have hadded : running.run [.offer (task 2), .look, .add] = added := rfl
  have hboth : added.run [.thread 1 .take, .thread 1 .begin] = both := rfl
  have hwaiting : both.run [.offer (task 3), .look, .add] = waiting := rfl
  have hc : c = running := by
    rw [← hrunning, ← hqueued, ← run_append]
    rfl
  have hgrown : grown = added := by
    rw [← hadded, ← hc]
  have hfull : full = waiting := by
    rw [← hwaiting, ← hboth, ← hgrown, ← run_append]
    rfl
  have hsettled : c.Settled := by
    rw [hc]
    refine ⟨rfl, rfl, fun w hw => Or.inl ?_⟩
    obtain rfl := List.mem_singleton.mp hw
    rfl
  have hbehind : full.Behind := by
    rw [hfull]
    refine ⟨rfl, rfl, rfl, List.cons_ne_nil _ _, fun w hw => ?_⟩
    rcases List.mem_cons.mp hw with rfl | hw
    · exact ⟨task 1, rfl⟩
    · obtain rfl := List.mem_singleton.mp hw
      exact ⟨task 2, rfl⟩
  let first : List CrewMove :=
    [.offer (task 1), .look, .add, .thread 0 .take, .thread 0 .begin]
  let second : List CrewMove := [.offer (task 2), .look, .add]
  let third : List CrewMove :=
    [.thread 1 .take, .thread 1 .begin, .offer (task 3), .look, .add]
  have hrun : (start "pool" execution).run (first ++ second ++ third) = full := by
    rw [run_append, run_append]
  obtain ⟨-, -, -, hnext⟩ := pool_growth "pool" execution first
  obtain ⟨-, -, hmost, -⟩ := pool_growth "pool" execution (first ++ second ++ third)
  rw [hrun] at hmost
  have hshort : ¬full.executor.queue.size ≤ full.misses := by
    rw [hfull]
    exact Nat.not_succ_le_zero 0
  have hsame : grown.misses = c.misses := hnext hsettled (task 2)
  have hone : c.executor.threads = 1 := by rw [hc]; rfl
  have htwo : grown.executor.threads = 2 := by rw [hgrown]; rfl
  refine ⟨hsettled, hone, hsame, htwo, hbehind, ?_⟩
  exact (hmost hbehind).resolve_right hshort
/-- A pool may have two threads and has one, which does not run yet when it gets two tasks. The
submitters of both leave them to the thread. It runs the first one, the second one waits, and there
is no second thread. -/
theorem task_left_waiting :
    let task (serial : Nat) : Task :=
      { header := ⟨1, 1, 1, .empty⟩
        method := .ofSignature 1 1 (.ofName "echo") (some .echo) .standard
        parameter := .empty
        connection := 1
        attempts := 0
        serial }
    let c := (start "pool" ((Execution.pool 1 2).withCapacity 2)).run
      [.offer (task 1), .look, .add, .offer (task 2), .look, .add, .thread 0 .take,
        .thread 0 .begin]
    c.Behind ∧ c.executor.queue.tasks = [task 2] ∧ c.executor.threads = 1 ∧
      c.executor.maxThreads = 2 := by
  intro task c
  let empty := start "pool" ((Execution.pool 1 2).withCapacity 2)
  let queued (tasks : List Task) (misses : Nat) : Crew :=
    { empty with executor.queue.tasks := tasks, accepted := tasks, misses }
  let running : Crew :=
    { queued [task 1, task 2] 1 with
      executor.queue.tasks := [task 2]
      executor.workers := [⟨true, .running (task 1)⟩]
      taken := [task 1]
      begun := [task 1] }
  have hfirst : empty.run [.offer (task 1), .look, .add] = queued [task 1] 0 := rfl
  have hsecond : (queued [task 1] 0).run [.offer (task 2), .look, .add] =
      queued [task 1, task 2] 1 := rfl
  have hthread : (queued [task 1, task 2] 1).run [.thread 0 .take, .thread 0 .begin] =
      running := rfl
  have hc : c = running := by
    rw [← hthread, ← hsecond, ← hfirst, ← run_append, ← run_append]
    rfl
  have hworks : ∀ w ∈ running.executor.workers, ∃ t, w.stage = .running t := by
    intro w hw
    obtain rfl := List.mem_singleton.mp hw
    exact ⟨task 1, rfl⟩
  rw [hc]
  exact ⟨⟨rfl, rfl, rfl, List.cons_ne_nil _ _, hworks⟩, rfl, rfl, rfl⟩

end Crew

end RemoteCall.Server
