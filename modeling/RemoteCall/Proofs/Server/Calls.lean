import Mathlib.Data.List.Nodup
import RemoteCall.Proofs.Server.Answers
import RemoteCall.Proofs.Server.Custody

/-!
# One request on its way through a server

A request that a server takes in becomes a task with a number of its own. Whatever the threads of
the server do meanwhile, the thread that finds a task under this number has the task that was made
of the request, with the method and the parameter that it had; and once the task has ended, it is
the only one that ends under this number.

## Main results

* `dispatch_of_accepts` : an executor that accepts a request has it at the end of its queue.
* `Activity.Sound.original_eq` : a number finds the task that was made under it.
* `Activity.Sound.endings_filter` : a task ends once.
-/

namespace RemoteCall.Server

variable {s : Server} {e : Executor} {i : ExecutorIndex} {c : ConnectionId} {frame : Frame}

/-! ### Taking in a request -/

/-- The executor takes a task of this connection when it is offered one. -/
structure Executor.Accepts (e : Executor) (c : ConnectionId) : Prop where
  closed : e.queue.closed = false
  accept : (e.queue.policy.onEnqueue e.queue.size c).1 = .accept

/-- A request for a method that is here becomes a task for the executor of the method. -/
theorem taskOf_eq {m : Method} {v : Value}
    (hmethod : s.registry.method? frame.header.service frame.header.method = some m)
    (hexecutor : s.groups.index? (frame.header.service, frame.header.method) = some i)
    (hparameter : parameterOf m frame = .ok v) :
    s.taskOf c frame = .ok (i, (Task.new frame.header m v c).numbered s.taken) := by
  simp only [taskOf, hmethod, hexecutor, hparameter]

/-- An executor that accepts a task has it at the end of its queue, and no task ends. -/
theorem submit_of_accepts {t : Task} (he : s.executors[i]? = some e)
    (haccepts : e.Accepts t.connection) :
    ∃ s' e', s.submit i t = (some .accepted, s') ∧ s'.executors[i]? = some e' ∧
      e'.queue.tasks = e.queue.tasks ++ [t] ∧ s'.endings = s.endings := by
  rcases submit_cases he t with ⟨hclosed, -⟩ | ⟨-, hreject, -⟩ | ⟨policy, signals, -, -, h⟩
  · cases haccepts.closed.symm.trans hclosed
  · cases haccepts.accept.symm.trans hreject
  · refine ⟨_, _, h, getElem?_setExecutor_self he _, ?_, rfl⟩
    rw [Executor.queue_grow]

/-- A request that its executor accepts is the last task of the queue of this executor. -/
theorem dispatch_of_accepts {t : Task} (htype : frame.header.type = .object ∨
      frame.header.type = .empty) (hserving : s.stopping = false)
    (htask : s.taskOf c frame = .ok (i, t)) (he : s.executors[i]? = some e)
    (haccepts : e.Accepts c) :
    ∃ e', (s.dispatch c frame).executors[i]? = some e' ∧
      e'.queue.tasks = e.queue.tasks ++ [t] ∧ (s.dispatch c frame).endings = s.endings := by
  obtain ⟨-, -, rfl, -⟩ := taskOf_eq_ok htask
  obtain ⟨s', e', hsubmit, he', htasks, hendings⟩ :=
    submit_of_accepts (s := { s with taken := s.taken + 1 }) (t := t) he haccepts
  have hdispatch : s.dispatch t.connection frame = s' := by
    rw [dispatch, receive_of_taskOf htype hserving htask]
    simp only [handOver, hsubmit]
  rw [hdispatch]
  exact ⟨e', he', htasks, hendings⟩

namespace Activity

variable {a : Activity} {t : Task}

/-! ### Runs -/

theorem Sound.run (h : a.Sound) (moves : List Move) : (a.run moves).Sound :=
  run_induction (P := Sound) (fun _ h m => sound_step h m) h moves

/-- The tasks that were made stay made. -/
theorem arrivals_step (a : Activity) (m : Move) : a.arrivals <+: (a.step m).arrivals := by
  cases m with
  | receive c frame =>
    rcases hreceive : a.server.receive c frame with ⟨_ | handing, s⟩
    · simp only [step, hreceive]
      exact List.prefix_refl _
    · simp only [step, hreceive]
      exact List.prefix_append _ _
  | handOver k =>
    cases hk : a.readers[k]? with
    | none =>
      simp only [step, hk]
      exact List.prefix_refl _
    | some handing =>
      rcases hhand : a.server.handOver handing with ⟨_ | handing', s⟩ <;>
        · simp only [step, hk, hhand]
          exact List.prefix_refl _
  | _ => exact List.prefix_refl _

theorem arrivals_run (a : Activity) (moves : List Move) : a.arrivals <+: (a.run moves).arrivals :=
  run_induction (P := fun b => a.arrivals <+: b.arrivals)
    (fun b hb m => hb.trans (b.arrivals_step m)) (List.prefix_refl _) moves

/-- A dispatched request has become its task. -/
theorem mem_arrivals_dispatch (htype : frame.header.type = .object ∨ frame.header.type = .empty)
    (hserving : a.server.stopping = false) (htask : a.server.taskOf c frame = .ok (i, t)) :
    t ∈ (a.dispatch c frame).arrivals := by
  have hreceived : t ∈ (a.step (.receive c frame)).arrivals := by
    simp only [step, receive_of_taskOf htype hserving htask, Handing.task]
    exact List.mem_append_right _ (List.mem_singleton_self t)
  exact ((a.step (.receive c frame)).arrivals_run _).subset hreceived

/-- What has ended has ended for good, whatever follows. -/
theorem Sound.endings_run (h : a.Sound) (moves : List Move) :
    a.server.endings <+: (a.run moves).server.endings :=
  (run_induction (P := fun b => b.Sound ∧ a.server.endings <+: b.server.endings)
    (fun _ hb m => ⟨sound_step hb.1 m, hb.2.trans (hb.1.endings_kept m)⟩)
    ⟨h, List.prefix_refl _⟩ moves).2

/-! ### Numbers of tasks -/

/-- The task that a thread runs is one of those of its server. -/
theorem mem_tasks_of_running {w : Nat} (hstage : a.server.stage? i w = some (.running t)) :
    t ∈ a.tasks := by
  obtain ⟨e, he, hworker⟩ := stage?_eq_some hstage
  rw [Executor.stage?, Option.map_eq_some_iff] at hworker
  obtain ⟨worker, hworker, hrunning⟩ := hworker
  have hexecutor : t ∈ e.running := by
    refine List.mem_flatMap.mpr ⟨worker, List.mem_of_getElem? hworker, ?_⟩
    rw [hrunning]
    exact List.mem_singleton_self t
  have hserver : t ∈ a.server.running :=
    List.mem_flatMap.mpr ⟨e, List.mem_of_getElem? he, hexecutor⟩
  simp only [tasks, Server.tasks, List.mem_append]
  exact Or.inl (Or.inl (Or.inl (Or.inl (Or.inl (Or.inr hserver)))))

/-- A number finds the task that was made under it, in whatever place the task is. -/
theorem Sound.original_eq (h : a.Sound) {u : Task} (ht : t ∈ a.arrivals) (hu : u ∈ a.tasks)
    (hserial : u.serial = t.serial) : u.original = t := by
  have hmade : u.original ∈ a.arrivals := h.perm.subset (List.mem_map_of_mem hu)
  have hnodup : (a.arrivals.map Task.serial).Nodup := by
    rw [h.serials]
    exact List.nodup_range
  exact List.inj_on_of_nodup_map hnodup hmade ht hserial

/-- A task ends once: no other one ends under its number. -/
theorem Sound.endings_filter (h : a.Sound) {x : TaskEnd} (hx : x ∈ a.server.endings) :
    (a.server.endings.filter fun y => y.task.serial == x.task.serial) = [x] := by
  have hsublist : a.server.ended.Sublist a.tasks := by
    have hserver : a.server.ended.Sublist a.server.tasks := List.sublist_append_right _ _
    exact (hserver.trans (List.sublist_append_left _ _)).trans (List.sublist_append_left _ _)
  have hnodup : (a.server.endings.map fun y => y.task.serial).Nodup := by
    have hserials := h.nodup.sublist (hsublist.map Task.serial)
    rwa [ended, List.map_map] at hserials
  exact filter_eq_singleton hnodup hx

/-! ### The answer to a request -/

/-- A thread that finishes the task made under a number answers the request of this task, on a
connection that is open, with what its handler made of its parameter. -/
theorem Sound.get?_finish (h : a.Sound) (ht : t ∈ a.arrivals) {u : Task} {w : Nat}
    (hstage : a.server.stage? i w = some (.running u)) (hserial : u.serial = t.serial)
    (hcan : a.server.canFinish u = true) {k : Connection}
    (hk : a.server.connections.get? t.connection = some k) (hopen : k.IsOpen)
    (hfits : k.codec.Fits t.answer) :
    (a.step (.thread i w .finish)).server.connections.get? t.connection =
      some { k with outbox := k.outbox ++ [.frame t.answer.bytes] } := by
  obtain rfl := h.original_eq ht (mem_tasks_of_running hstage) hserial
  obtain ⟨e, -, -, hfinish⟩ := finish_eq hstage hcan
  have hid (k : Connection) : (u.run k).id = k.id := by
    obtain ⟨outbox, hrun⟩ := u.answered_run k
    rw [hrun]
  have hfound := Connections.get?_modify hid a.server.connections u.connection u.connection
  rw [if_pos rfl] at hfound
  show (a.server.finish i w).connections.get? u.connection = _
  rw [hfinish]
  show (a.server.connections.modify u.connection u.run).get? u.connection = _
  rw [hfound]
  show (a.server.connections.get? u.original.connection).map u.run = _
  rw [hk, Option.map_some, ← Connection.queue_of_isOpen hopen]
  exact congrArg some (Task.run_eq_queue hopen hfits)

/-- A task that a thread finishes has run, and nothing else ever ends under its number. -/
theorem Sound.endings_finish (h : a.Sound) {u : Task} {w : Nat}
    (hstage : a.server.stage? i w = some (.running u)) (hcan : a.server.canFinish u = true)
    (moves : List Move) :
    ((((a.step (.thread i w .finish)).run moves).server.endings).filter fun x =>
      x.task.serial == u.serial) = [.ran u] := by
  have hfinished : (a.step (.thread i w .finish)).Sound := sound_step h _
  obtain ⟨e, -, -, hfinish⟩ := finish_eq hstage hcan
  have hran : TaskEnd.ran u ∈ (a.step (.thread i w .finish)).server.endings := by
    show TaskEnd.ran u ∈ (a.server.finish i w).endings
    rw [hfinish]
    exact List.mem_append_right _ (List.mem_singleton_self _)
  have hkept := (hfinished.endings_run moves).subset hran
  exact (hfinished.run moves).endings_filter hkept

end Activity

end RemoteCall.Server
