import RemoteCall.Proofs.Server.Connections
import RemoteCall.Server.Run

/-!
# What the operations of a server can do

Each operation of a queue, an executor, the delay list and a server has one lemma that lists the
ways in which it can go, with the condition under which it goes that way and the state it leaves.
Invariants of a server are proved from these lemmas, without opening the operations again.

## Main results

* `OverflowPolicy.onEnqueue_cases`, `OverflowPolicy.onDequeue_cases` : what a policy does.
* `TaskQueue.offer_cases`, `submit_cases` : a task is accepted, refused or comes too late.
* `Executor.take_cases`, `Executor.Restaged` : what a thread does to its executor.
* `delay_cases`, `wake_cases` : what becomes of a task on the delay list.
* `receive_cases` : what becomes of a frame that arrives.
-/

namespace RemoteCall.Server

/-! ### Policies -/

namespace OverflowPolicy

/-- Only a delay policy refuses tasks. -/
theorem eq_delay_of_reject {p : OverflowPolicy} {queued : Nat} {c : ConnectionId}
    (h : (p.onEnqueue queued c).1 = .reject) : ∃ capacity, p = .delay capacity := by
  cases p with
  | delay capacity => exact ⟨capacity, rfl⟩
  | waterMark marks denied =>
    by_cases hhigh : marks.high ≤ queued + 1 <;> simp [onEnqueue, hhigh] at h

/-- A policy that accepts a task pauses its connection, which is denied then, or does nothing. -/
theorem onEnqueue_cases {p p' : OverflowPolicy} {queued : Nat} {c : ConnectionId}
    {signals : List GateSignal} (h : p.onEnqueue queued c = (.accept, p', signals)) :
    (p' = p ∧ signals = []) ∨
      ∃ marks denied, p = .waterMark marks denied ∧ signals = [.pause c] ∧
        p' = .waterMark marks (if c ∈ denied then denied else denied ++ [c]) := by
  cases p with
  | delay capacity =>
    simp only [onEnqueue, Prod.mk.injEq] at h
    exact Or.inl ⟨h.2.1.symm, h.2.2.symm⟩
  | waterMark marks denied =>
    by_cases hhigh : marks.high ≤ queued + 1 <;>
      simp only [onEnqueue, hhigh, if_true, if_false, Prod.mk.injEq] at h
    · exact Or.inr ⟨marks, denied, rfl, h.2.2.symm, h.2.1.symm⟩
    · exact Or.inl ⟨h.2.1.symm, h.2.2.symm⟩

/-- A delay policy stays as it is when it accepts a task. -/
theorem onEnqueue_delay {capacity queued : Nat} {p : OverflowPolicy} {c : ConnectionId}
    {signals : List GateSignal}
    (h : (OverflowPolicy.delay capacity).onEnqueue queued c = (.accept, p, signals)) :
    p = .delay capacity := by
  simp only [onEnqueue, Prod.mk.injEq] at h
  exact h.2.1.symm

/-- A policy resumes all that it denies, or does nothing while tasks are left. -/
theorem onDequeue_cases (p : OverflowPolicy) (queued : Nat) :
    (p.onDequeue queued = (p, []) ∧ (p.denied ≠ [] → 0 < queued)) ∨
      ∃ marks denied, p = .waterMark marks denied ∧
        p.onDequeue queued = (.waterMark marks [], denied.map .resume) := by
  cases p with
  | delay capacity => exact Or.inl ⟨rfl, fun h => absurd rfl h⟩
  | waterMark marks denied =>
    by_cases hlow : marks.low < queued
    · exact Or.inl ⟨if_pos hlow, fun _ => by omega⟩
    · exact Or.inr ⟨marks, denied, rfl, if_neg hlow⟩

end OverflowPolicy

/-! ### Queues -/

namespace TaskQueue

/-- A closed queue gives a task back, a policy may refuse it, and otherwise it is the last task of
the queue. -/
theorem offer_cases (q : TaskQueue) (t : Task) :
    (q.closed = true ∧ q.offer t = (.closed t, q, [])) ∨
      (q.closed = false ∧ (q.policy.onEnqueue q.size t.connection).1 = .reject ∧
        q.offer t = (.rejected t, q, [])) ∨
      ∃ policy signals, q.closed = false ∧
        q.policy.onEnqueue q.size t.connection = (.accept, policy, signals) ∧
        q.offer t = (.accepted, { q with tasks := q.tasks ++ [t], policy }, signals) := by
  cases hclosed : q.closed with
  | true => exact Or.inl ⟨rfl, by simp [offer, hclosed]⟩
  | false =>
    rcases henqueue : q.policy.onEnqueue q.size t.connection with ⟨admission, policy, signals⟩
    cases admission with
    | accept =>
      exact Or.inr (Or.inr ⟨policy, signals, rfl, rfl, by simp [offer, hclosed, henqueue]⟩)
    | reject => exact Or.inr (Or.inl ⟨rfl, rfl, by simp [offer, hclosed, henqueue]⟩)

end TaskQueue

/-! ### Executors -/

namespace Executor

@[simp] theorem queue_setStage (e : Executor) (w : Nat) (stage : Stage) :
    (e.setStage w stage).queue = e.queue := rfl

@[simp] theorem queue_grow (e : Executor) : e.grow.queue = e.queue := by
  unfold grow
  split <;> rfl

/-- A thread that changes its stage and keeps its task, if it has one. A thread may end only after
it has left. -/
inductive Restaged (e : Executor) (w : Nat) : Executor → Prop
  | same : Restaged e w e
  | stage {a b : Stage} (ha : e.stage? w = some a) (htask : b.task? = a.task?) :
      Restaged e w (e.setStage w b)
  | ended (ha : e.stage? w = some .leaving) :
      Restaged e w { e with workers := e.workers.eraseIdx w }

theorem restaged_begin (e : Executor) (w : Nat) : e.Restaged w (e.begin w) := by
  unfold begin
  split
  · rename_i h
    exact .stage h rfl
  · exact .same

theorem restaged_rest (e : Executor) (w : Nat) : e.Restaged w (e.rest w) := by
  unfold rest
  split
  · rename_i h
    exact .stage h rfl
  · exact .same

theorem restaged_leave (e : Executor) (w : Nat) : e.Restaged w (e.leave w) := by
  unfold leave
  split
  · exact .ended ‹_›
  · exact .same

theorem restaged_timeOut (e : Executor) (w : Nat) : e.Restaged w (e.timeOut w) := by
  unfold timeOut
  split
  · rename_i h
    rw [Bool.and_eq_true, Option.any_eq_true] at h
    obtain ⟨⟨⟨core, stage⟩, hworker, hmay⟩, -⟩ := h
    have hidle : stage = .idle := by
      cases core <;> cases stage <;> first | rfl | cases hmay
    exact .stage (a := .idle) (by rw [stage?, hworker, hidle]; rfl) rfl
  · exact .same

/-- An idle thread takes the first task, or it takes none. -/
theorem take_cases (e : Executor) (w : Nat) :
    (∃ t tasks policy signals, e.stage? w = some .idle ∧ e.queue.tasks = t :: tasks ∧
      e.queue.policy.onDequeue tasks.length = (policy, signals) ∧
      e.take w =
        ({ e with queue := { e.queue with tasks, policy } }.setStage w (.holding t), signals)) ∨
      ∃ e', e.Restaged w e' ∧ e.take w = (e', []) := by
  cases hstage : e.stage? w with
  | none => exact Or.inr ⟨e, .same, by simp [take, hstage]⟩
  | some stage =>
    cases stage with
    | idle =>
      cases htasks : e.queue.tasks with
      | nil =>
        cases hclosed : e.queue.closed with
        | true =>
          exact Or.inr ⟨e.setStage w .leaving, .stage hstage rfl,
            by simp [take, hstage, TaskQueue.take, htasks, hclosed]⟩
        | false => exact Or.inr ⟨e, .same, by simp [take, hstage, TaskQueue.take, htasks, hclosed]⟩
      | cons t tasks =>
        rcases hdequeue : e.queue.policy.onDequeue tasks.length with ⟨policy, signals⟩
        exact Or.inl ⟨t, tasks, policy, signals, rfl, rfl, hdequeue,
          by simp [take, hstage, TaskQueue.take, htasks, hdequeue]⟩
    | _ => exact Or.inr ⟨e, .same, by simp [take, hstage]⟩

/-- The executor after everything was taken off its queue. -/
def drained (e : Executor) : Executor :=
  { e with queue := { e.queue with tasks := [], policy := (e.queue.policy.onDequeue 0).1 } }

end Executor

/-! ### Servers -/

variable {s : Server} {e : Executor} {i : ExecutorIndex}

theorem setExecutor_self (he : s.executors[i]? = some e) : s.setExecutor i e = s := by
  obtain ⟨hi, rfl⟩ := List.getElem?_eq_some_iff.mp he
  have hset : s.groups.executors.set i s.executors[i] = s.groups.executors :=
    List.set_getElem_self hi
  rw [setExecutor, hset]

/-- An offered task is accepted, or it is given back and nothing has changed. -/
theorem submit_cases (he : s.executors[i]? = some e) (t : Task) :
    (e.queue.closed = true ∧ s.submit i t = (some (.closed t), s)) ∨
      (e.queue.closed = false ∧ (e.queue.policy.onEnqueue e.queue.size t.connection).1 = .reject ∧
        s.submit i t = (some (.rejected t), s)) ∨
      ∃ policy signals, e.queue.closed = false ∧
        e.queue.policy.onEnqueue e.queue.size t.connection = (.accept, policy, signals) ∧
        s.submit i t =
          (some .accepted,
            (s.setExecutor i { e with
              queue := { e.queue with tasks := e.queue.tasks ++ [t], policy } }.grow).signalAll
              signals) := by
  rcases e.queue.offer_cases t with ⟨hclosed, h⟩ | ⟨hopen, hreject, h⟩ |
    ⟨policy, signals, hopen, haccept, h⟩
  · have hsame : s.submit i t = (some (.closed t), s.setExecutor i e) := by
      simp only [submit, he, Executor.submit, Executor.offer, h]
      rfl
    exact Or.inl ⟨hclosed, by rw [hsame, setExecutor_self he]⟩
  · have hsame : s.submit i t = (some (.rejected t), s.setExecutor i e) := by
      simp only [submit, he, Executor.submit, Executor.offer, h]
      rfl
    exact Or.inr (Or.inl ⟨hopen, hreject, by rw [hsame, setExecutor_self he]⟩)
  · exact Or.inr (Or.inr ⟨policy, signals, hopen, haccept,
      by simp only [submit, he, Executor.submit, Executor.offer, h]⟩)

theorem drain_eq (he : s.executors[i]? = some e) :
    s.drain i =
      (e.queue.tasks, (s.setExecutor i e.drained).signalAll (e.queue.policy.onDequeue 0).2) := by
  simp only [drain, he, Executor.drain, TaskQueue.drain, Executor.drained]

theorem getElem?_setExecutor_self (he : s.executors[i]? = some e) (e' : Executor) :
    (s.setExecutor i e').executors[i]? = some e' :=
  List.getElem?_set_self (List.getElem?_eq_some_iff.mp he).1

/-- A task that is to be delayed is given up after its last attempt, comes too late for a closed
list, or is parked while its connection is paused. -/
theorem delay_cases (s : Server) (t : Task) (i : ExecutorIndex) :
    (s.delayed.config.maxAttempts ≤ t.attempts ∧
        s.delay t i =
          (s.refuse t (busyFault s.delayed.config.maxAttempts)).resume t.connection) ∨
      (t.attempts < s.delayed.config.maxAttempts ∧ s.delayed.closed = true ∧
        s.delay t i = s.refuse t stoppingFault) ∨
      (t.attempts < s.delayed.config.maxAttempts ∧ s.delayed.closed = false ∧
        s.delay t i =
          { s with
            delayed.parked :=
              DelayList.insertParked
                { wakeMs := s.nowMs + s.delayed.config.delayMs
                  task := { t with attempts := t.attempts + 1 }
                  executor := i }
                s.delayed.parked }.pause t.connection) := by
  by_cases hmax : s.delayed.config.maxAttempts ≤ t.attempts
  · exact Or.inl ⟨hmax, by simp [delay, DelayList.add, hmax]⟩
  · cases hclosed : s.delayed.closed with
    | true =>
      exact Or.inr (Or.inl ⟨by omega, rfl, by simp [delay, DelayList.add, hmax, hclosed]⟩)
    | false =>
      exact Or.inr (Or.inr ⟨by omega, rfl, by simp [delay, DelayList.add, hmax, hclosed]⟩)

/-- The thread of the delay list takes the first parked task into its empty hand, or does
nothing. -/
theorem wake_cases (s : Server) :
    s.wake = s ∨ ∃ p rest, s.delayed.hand = .empty ∧ s.delayed.parked = p :: rest ∧
      s.delayed.closed = false ∧
      s.wake = { s with delayed.parked := rest, delayed.hand := .due p } := by
  cases hhand : s.delayed.hand with
  | empty =>
    cases hparked : s.delayed.parked with
    | nil => exact Or.inl (by simp [wake, DelayList.pop, hhand, hparked])
    | cons p rest =>
      cases hclosed : s.delayed.closed with
      | true => exact Or.inl (by simp [wake, DelayList.pop, hhand, hparked, hclosed])
      | false =>
        by_cases hdue : p.wakeMs ≤ s.nowMs
        · exact Or.inr ⟨p, rest, rfl, rfl, rfl,
            by simp [wake, DelayList.pop, hhand, hparked, hclosed, hdue]⟩
        · exact Or.inl (by simp [wake, DelayList.pop, hhand, hparked, hclosed, hdue])
  | _ => exact Or.inl (by simp [wake, DelayList.pop, hhand])

/-! ### Frames that arrive -/

/-- The task of a request is a new one, for an executor that is there. -/
theorem taskOf_eq_ok {c : ConnectionId} {frame : Frame} {t : Task}
    (h : s.taskOf c frame = .ok (i, t)) :
    t.serial = s.taken ∧ t.attempts = 0 ∧ t.connection = c ∧ ∃ b ∈ s.groups.bindings, b.2 = i := by
  unfold taskOf at h
  dsimp only at h
  split at h
  · rename_i m index hmethod hindex
    split at h
    · cases h
      rw [Groups.index?, Option.map_eq_some_iff] at hindex
      obtain ⟨b, hb, hi⟩ := hindex
      exact ⟨rfl, rfl, rfl, b, List.mem_of_find?_eq_some hb, hi⟩
    · cases h
  · cases h

/-- A request becomes a task, or it is answered at once. -/
theorem request_cases (s : Server) (c : ConnectionId) (frame : Frame) :
    (∃ i t, s.stopping = false ∧ s.taskOf c frame = .ok (i, t) ∧
        s.request c frame = (some (.offered t i), { s with taken := s.taken + 1 })) ∨
      ∃ f, (∀ k, Connection.Answered k (f k)) ∧ s.request c frame = (none, s.onConnection c f) := by
  unfold request
  split
  · exact Or.inr ⟨_, fun k => k.answered_refuse _ _, rfl⟩
  · rename_i hstopping
    split
    · rename_i i t htask
      exact Or.inl ⟨i, t, by simpa using hstopping, htask, rfl⟩
    · exact Or.inr ⟨_, fun k => k.answered_refuse _ _, rfl⟩

/-- A request that has a task becomes this task. -/
theorem receive_of_taskOf {c : ConnectionId} {frame : Frame} {t : Task}
    (htype : frame.header.type = .object ∨ frame.header.type = .empty)
    (hserving : s.stopping = false) (htask : s.taskOf c frame = .ok (i, t)) :
    s.receive c frame = (some (.offered t i), { s with taken := s.taken + 1 }) := by
  have hreceive : s.receive c frame = s.request c frame := by
    rcases htype with htype | htype <;> simp only [receive, htype]
  simp [hreceive, request, hserving, htask]

/-- A frame becomes a task, or it is answered at once. -/
theorem receive_cases (s : Server) (c : ConnectionId) (frame : Frame) :
    (∃ i t, s.stopping = false ∧ s.taskOf c frame = .ok (i, t) ∧
        s.receive c frame = (some (.offered t i), { s with taken := s.taken + 1 })) ∨
      ∃ f, (∀ k, Connection.Answered k (f k)) ∧ s.receive c frame = (none, s.onConnection c f) := by
  unfold receive
  split
  · exact Or.inr ⟨_, fun k => k.answered_sendFrame _, rfl⟩
  · unfold describe
    split
    · exact Or.inr ⟨_, fun k => k.answered_refuse _ _, rfl⟩
    · exact Or.inr ⟨_, fun k => k.answered_sendFrame _, rfl⟩
  · exact s.request_cases c frame
  · exact s.request_cases c frame
  · exact Or.inr ⟨_, fun k => k.answered_refuse _ _, rfl⟩
  · exact Or.inr ⟨_, fun k => k.answered_refuse _ _, rfl⟩

end RemoteCall.Server
