import Mathlib.Data.List.Perm.Basic
import RemoteCall.Proofs.Server.Custody

/-!
# Why a connection is paused

A read gate has no count of those who shut it: the delay list pauses the connection of a task that
it parks and resumes it when the task has left, and a queue with water marks pauses the connections
it denies and resumes them when it has drained. Each of them may open a gate that another one wants
to be shut. They do not, because a connection never has two reasons to be paused: it is read only
while its gate is open, so it has no task on the way when it gets its first reason, and makes none
before that reason is gone.

## Main definitions

* `delayedOf`, `deniedOf` : the reasons for which a connection is paused, each counted as often as
  it is given.
* `Balanced` : the gates of a server are shut for exactly one reason each, but for what is owed.
* `Activity.Served` : the runs before a shutdown whose readers read only through open gates.

## Main results

* `Activity.Served.balanced` : the gates are balanced after each such run.
* `Activity.gate_shut_iff_one_reason` : what a shut gate says about its connection.
-/

namespace RemoteCall.Server

/-! ### Reasons -/

/-- How many tasks of a connection are parked or in the hand of the thread of the delay list. -/
def delayedOf (s : Server) (c : ConnectionId) : Nat :=
  (s.parked ++ s.delayed.hand.tasks).countP fun t => t.connection == c

/-- How often queues with water marks deny a connection. -/
def deniedOf (s : Server) (c : ConnectionId) : Nat :=
  (s.executors.flatMap fun e => e.queue.policy.denied).count c

/-- Why a connection is paused, counted. -/
def reasons (s : Server) (c : ConnectionId) : Nat :=
  s.delayedOf c + s.deniedOf c

/-- The executor refuses tasks when its queue is full. -/
def Delays (s : Server) (i : ExecutorIndex) : Prop :=
  ∃ e capacity, s.executors[i]? = some e ∧ e.queue.policy = .delay capacity

/-- A server that takes requests and whose gates are each shut for exactly one reason. The gates of
connections that are `owed` are shut although their reason is gone. -/
structure Balanced (s : Server) (owed : List ConnectionId) : Prop where
  reasons : ∀ c, s.reasons c + owed.count c = if s.gate c = some false then 1 else 0
  listOpen : s.delayed.closed = false
  queueOpen : ∀ e ∈ s.executors, e.queue.closed = false
  waiting : ∀ e ∈ s.executors, e.queue.policy.denied ≠ [] → e.queue.tasks ≠ []
  parked : ∀ p ∈ s.delayed.parked, s.Delays p.executor
  due : ∀ p, s.delayed.hand = .due p → s.Delays p.executor
  refused : ∀ t i, s.delayed.hand = .refused t i → s.Delays i

namespace Balanced

variable {s s' : Server} {owed : List ConnectionId} {c : ConnectionId}

theorem reasons_le_one (h : s.Balanced owed) (c : ConnectionId) :
    s.reasons c + owed.count c ≤ 1 := by
  rw [h.reasons]
  split <;> omega

theorem reasons_eq_zero (h : s.Balanced owed) (hopen : s.gate c = some true) :
    s.reasons c = 0 ∧ owed.count c = 0 := by
  have hc := h.reasons c
  rw [hopen, if_neg (by simp)] at hc
  omega

/-- A connection that has a reason to be paused is paused. -/
theorem gate_eq (h : s.Balanced owed) (hc : 0 < s.reasons c + owed.count c) :
    s.gate c = some false := by
  have hreasons := h.reasons c
  split at hreasons
  · assumption
  · omega

/-- An operation that changes neither gates nor what the executors and the delay list hold. -/
theorem of_eq (h : s.Balanced owed) (hgate : ∀ c, s'.gate c = s.gate c)
    (hexecutors : s'.executors = s.executors) (hdelayed : s'.delayed = s.delayed) :
    s'.Balanced owed where
  reasons c := by
    simpa only [Server.reasons, delayedOf, deniedOf, Server.parked, hexecutors, hdelayed, hgate]
      using h.reasons c
  listOpen := by rw [hdelayed]; exact h.listOpen
  queueOpen := by rw [hexecutors]; exact h.queueOpen
  waiting := by rw [hexecutors]; exact h.waiting
  parked := by
    simp only [Delays, hexecutors, hdelayed]
    exact h.parked
  due := by
    simp only [Delays, hexecutors, hdelayed]
    exact h.due
  refused := by
    simp only [Delays, hexecutors, hdelayed]
    exact h.refused

theorem refuse (h : s.Balanced owed) (t : Task) (fault : Fault) :
    (s.refuse t fault).Balanced owed :=
  h.of_eq (fun c => s.gate_refuse c t fault) rfl rfl

/-- Resuming a connection settles what is owed to it. -/
theorem resume (h : s.Balanced (c :: owed)) : (s.resume c).Balanced owed := by
  have hshut := h.gate_eq (c := c) (by rw [List.count_cons_self]; omega)
  refine ⟨fun d => ?_, h.listOpen, h.queueOpen, h.waiting, h.parked, h.due, h.refused⟩
  have hd := h.reasons d
  have hsame : (s.resume c).reasons d = s.reasons d := rfl
  rw [hsame, gate_resume]
  by_cases hdc : d = c
  · subst hdc
    rw [if_pos hshut, List.count_cons_self] at hd
    simp [hshut]
    omega
  · rw [List.count_cons_of_ne (Ne.symm hdc)] at hd
    rw [if_neg hdc]
    exact hd

/-- Resuming a connection that is read changes nothing. -/
theorem resume_open (h : s.Balanced owed) (hopen : s.gate c = some true) :
    (s.resume c).Balanced owed := by
  refine h.of_eq (fun d => ?_) rfl rfl
  rw [gate_resume]
  split
  · rename_i hd
    rw [hd, hopen]
    rfl
  · rfl

/-- Pausing a connection that is read owes it a reason. -/
theorem pause (h : s.Balanced owed) (hopen : s.gate c = some true) :
    (s.pause c).Balanced (c :: owed) := by
  obtain ⟨hnone, howed⟩ := h.reasons_eq_zero hopen
  refine ⟨fun d => ?_, h.listOpen, h.queueOpen, h.waiting, h.parked, h.due, h.refused⟩
  have hd := h.reasons d
  have hsame : (s.pause c).reasons d = s.reasons d := rfl
  rw [hsame, gate_pause]
  by_cases hdc : d = c
  · subst hdc
    rw [List.count_cons_self]
    simp [hopen]
    omega
  · rw [List.count_cons_of_ne (Ne.symm hdc), if_neg hdc]
    exact hd

/-- Pausing a connection to which a reason is owed changes nothing. -/
theorem pause_owed (h : s.Balanced (c :: owed)) : (s.pause c).Balanced (c :: owed) := by
  have hshut := h.gate_eq (c := c) (by rw [List.count_cons_self]; omega)
  refine h.of_eq (fun d => ?_) rfl rfl
  rw [gate_pause]
  split
  · rename_i hd
    rw [hd, hshut]
    rfl
  · rfl

/-- Resuming connections settles what is owed to them. -/
theorem resumeAll {cs : List ConnectionId} (h : s.Balanced (cs ++ owed)) :
    (s.signalAll (cs.map .resume)).Balanced owed := by
  induction cs generalizing s with
  | nil => exact h
  | cons c cs ih => exact ih h.resume

/-- Another executor takes the place of one. What its queue denies no more is owed, and what it
denies beside is settled. -/
theorem setExecutor {owed' : List ConnectionId} (h : s.Balanced owed) {e e' : Executor}
    {i : ExecutorIndex} (he : s.executors[i]? = some e) (hopen : e'.queue.closed = false)
    (hdelays : ∀ capacity, e.queue.policy = .delay capacity → e'.queue.policy = .delay capacity)
    (hwaiting : e'.queue.policy.denied ≠ [] → e'.queue.tasks ≠ [])
    (hdenied : ∀ c, e'.queue.policy.denied.count c + owed'.count c =
      e.queue.policy.denied.count c + owed.count c) :
    (s.setExecutor i e').Balanced owed' := by
  have hmem : ∀ f ∈ s.executors.set i e', f ∈ s.executors ∨ f = e' := fun f hf =>
    List.mem_or_eq_of_mem_set hf
  have hkeep : ∀ j, s.Delays j → (s.setExecutor i e').Delays j := by
    rintro j ⟨f, capacity, hf, hpolicy⟩
    by_cases hij : i = j
    · subst hij
      cases he.symm.trans hf
      exact ⟨e', capacity, getElem?_setExecutor_self he e', hdelays capacity hpolicy⟩
    · exact ⟨f, capacity, (List.getElem?_set_ne hij).trans hf, hpolicy⟩
  refine ⟨fun d => ?_, h.listOpen, fun f hf => ?_, fun f hf => ?_,
    fun p hp => hkeep _ (h.parked p hp), fun p hp => hkeep _ (h.due p hp),
    fun t j hj => hkeep _ (h.refused t j hj)⟩
  · have hset := countP_flatMap_set (fun c => c == d) (fun e => e.queue.policy.denied) e' he
    have hgate : (s.setExecutor i e').gate d = s.gate d := rfl
    have hd := h.reasons d
    have hboth := hdenied d
    rw [hgate, ← hd]
    simp only [Server.reasons, delayedOf, deniedOf, Server.parked, executors, Server.setExecutor,
      List.count] at *
    omega
  · rcases hmem f hf with hold | rfl
    · exact h.queueOpen f hold
    · exact hopen
  · rcases hmem f hf with hold | rfl
    · exact h.waiting f hold
    · exact hwaiting

/-- Another list takes the place of the delay list. The connections of tasks that it does not hold
any more are owed, and those of further tasks are settled. -/
theorem setDelayed {owed' : List ConnectionId} (h : s.Balanced owed) {d : DelayList}
    (hopen : d.closed = false) (hparked : ∀ p ∈ d.parked, s.Delays p.executor)
    (hdue : ∀ p, d.hand = .due p → s.Delays p.executor)
    (hrefused : ∀ t i, d.hand = .refused t i → s.Delays i)
    (hdelayed : ∀ c, { s with delayed := d }.delayedOf c + owed'.count c =
      s.delayedOf c + owed.count c) :
    { s with delayed := d }.Balanced owed' where
  reasons c := by
    have hc := h.reasons c
    have hboth := hdelayed c
    have hgate : { s with delayed := d }.gate c = s.gate c := rfl
    have hdenied : { s with delayed := d }.deniedOf c = s.deniedOf c := rfl
    rw [hgate, ← hc, Server.reasons, Server.reasons, hdenied]
    omega
  listOpen := hopen
  queueOpen := h.queueOpen
  waiting := h.waiting
  parked := hparked
  due := hdue
  refused := hrefused

end Balanced

/-- A new policy denies nobody. -/
theorem OverflowPolicy.denied_ofMode (mode : OverflowMode) (capacity : Nat) :
    (OverflowPolicy.ofMode mode capacity).denied = [] := by
  cases mode <;> rfl

/-! ### What operations do to the gates -/

section Operations

variable {s s' : Server} {owed : List ConnectionId} {e : Executor} {i : ExecutorIndex}

theorem count_denied_le (he : s.executors[i]? = some e) (c : ConnectionId) :
    e.queue.policy.denied.count c ≤ s.deniedOf c := by
  have herase := countP_flatMap_eraseIdx (fun d => d == c) (fun e => e.queue.policy.denied) he
  simp only [deniedOf, List.count]
  omega

/-- A step of a thread shuts no gate. -/
theorem ThreadStepped.gate {w : Nat} (hs : ThreadStepped s i w s') {d : ConnectionId}
    (hopen : s.gate d = some true) : s'.gate d = some true := by
  cases hs with
  | same => exact hopen
  | restage he hr started => exact hopen
  | @take e t tasks policy signals he hstage htasks hdequeue =>
    rcases e.queue.policy.onDequeue_cases tasks.length with ⟨hsame, -⟩ | ⟨marks, denied, -, hall⟩
    · cases hsame.symm.trans hdequeue
      exact hopen
    · cases hall.symm.trans hdequeue
      rw [gate_signalAll_resume]
      split
      · exact congrArg (Option.map fun _ => true) hopen
      · exact hopen
  | @finish e t he hstage =>
    exact (gate_onConnection_of_answered _ t.connection d t.answered_run).trans hopen

/-- A step of a thread keeps the gates balanced: a queue that has drained denies nobody any more,
and resumes all that it denied. -/
theorem ThreadStepped.balanced {w : Nat} (hs : ThreadStepped s i w s') (h : s.Balanced owed) :
    s'.Balanced owed := by
  cases hs with
  | same => exact h
  | @restage e e' he hr started =>
    have hmem := List.mem_of_getElem? he
    have hset : (s.setExecutor i e').Balanced owed := by
      refine h.setExecutor he ?_ ?_ ?_ ?_ <;> rw [hr.queue_eq]
      · exact h.queueOpen e hmem
      · exact fun _ => id
      · exact h.waiting e hmem
      · exact fun _ => rfl
    exact hset.of_eq (fun _ => rfl) rfl rfl
  | @take e t tasks policy signals he hstage htasks hdequeue =>
    have hmem := List.mem_of_getElem? he
    rcases e.queue.policy.onDequeue_cases tasks.length with ⟨hsame, hleft⟩ |
      ⟨marks, denied, hpolicy, hall⟩
    · cases hsame.symm.trans hdequeue
      refine h.setExecutor he (h.queueOpen e hmem) (fun _ => id) (fun hne => ?_) fun _ => rfl
      exact List.ne_nil_of_length_pos (hleft hne)
    · cases hall.symm.trans hdequeue
      refine Balanced.resumeAll (h.setExecutor he (h.queueOpen e hmem) (fun capacity hdelay => ?_)
        (fun hne => absurd rfl hne) fun c => ?_)
      · cases hpolicy.symm.trans hdelay
      · rw [hpolicy, List.count_append]
        simp only [Executor.queue_setStage, OverflowPolicy.denied, List.count_nil]
        omega
  | @finish e t he hstage =>
    have hmem := List.mem_of_getElem? he
    have hset : (s.setExecutor i (e.setStage w .finished)).Balanced owed :=
      h.setExecutor he (h.queueOpen e hmem) (fun _ => id) (h.waiting e hmem) fun _ => rfl
    have hgate := fun d => gate_onConnection_of_answered (s.setExecutor i (e.setStage w .finished))
      t.connection d t.answered_run
    exact hset.of_eq hgate rfl rfl

/-- A queue that accepts a task keeps the gates balanced. One with water marks must not pause a
connection that is paused already. -/
theorem Balanced.accept (h : s.Balanced owed) (he : s.executors[i]? = some e)
    (hopen : e.queue.closed = false) {t : Task} {policy : OverflowPolicy}
    {signals : List GateSignal}
    (henqueue : e.queue.policy.onEnqueue e.queue.size t.connection = (.accept, policy, signals))
    (hread : s.Delays i ∨ s.gate t.connection = some true) :
    ((s.setExecutor i { e with
      queue := { e.queue with tasks := e.queue.tasks ++ [t], policy } }.grow).signalAll
        signals).Balanced owed := by
  have hnonempty : e.queue.tasks ++ [t] ≠ [] := by simp
  rcases OverflowPolicy.onEnqueue_cases henqueue with ⟨rfl, rfl⟩ |
    ⟨marks, denied, hpolicy, rfl, rfl⟩
  · refine h.setExecutor he ?_ ?_ ?_ ?_ <;> rw [Executor.queue_grow]
    · exact hopen
    · exact fun _ => id
    · exact fun _ => hnonempty
    · exact fun _ => rfl
  · rcases hread with ⟨f, capacity, hf, hdelay⟩ | hread
    · cases he.symm.trans hf
      cases hpolicy.symm.trans hdelay
    · have hnotdenied : t.connection ∉ denied := by
        have hle := count_denied_le he t.connection
        have hzero := (h.reasons_eq_zero hread).1
        rw [hpolicy, OverflowPolicy.denied] at hle
        rw [Server.reasons] at hzero
        exact List.count_eq_zero.mp (by omega)
      rw [if_neg hnotdenied]
      have hpaused : ((s.pause t.connection).setExecutor i { e with
          queue := { e.queue with
            tasks := e.queue.tasks ++ [t]
            policy := .waterMark marks (denied ++ [t.connection]) } }.grow).Balanced owed := by
        refine (h.pause hread).setExecutor he ?_ ?_ ?_ fun c => ?_ <;> rw [Executor.queue_grow]
        · exact hopen
        · intro capacity hdelay
          cases hpolicy.symm.trans hdelay
        · exact fun _ => hnonempty
        · rw [hpolicy]
          simp only [OverflowPolicy.denied, List.count_append, List.count_cons, List.count_nil]
          omega
      exact hpaused

/-- Parking a task whose connection is paused settles what is owed to it. -/
theorem Balanced.park {t : Task} (h : s.Balanced (t.connection :: owed)) (hi : s.Delays i)
    (wakeMs : Nat) :
    { s with
      delayed.parked := DelayList.insertParked
        { wakeMs, task := { t with attempts := t.attempts + 1 }, executor := i }
        s.delayed.parked }.Balanced owed := by
  let p : Parked := { wakeMs, task := { t with attempts := t.attempts + 1 }, executor := i }
  have hperm := insertParked_perm p s.delayed.parked
  refine h.setDelayed h.listOpen (fun q hq => ?_) h.due h.refused fun c => ?_
  · rcases List.mem_cons.mp (hperm.mem_iff.mp hq) with rfl | hold
    · exact hi
    · exact h.parked q hold
  · have hcount := (hperm.map Parked.task).countP_eq fun t => t.connection == c
    rw [List.map_cons, List.countP_cons] at hcount
    simp only [delayedOf, Server.parked, List.countP_append, List.count_cons] at hcount ⊢
    rw [hcount]
    have hp : p.task.connection = t.connection := rfl
    rw [hp]
    omega

/-- A delayed task settles what is owed to its connection. -/
theorem Balanced.delay {t : Task} (h : s.Balanced (t.connection :: owed)) (hi : s.Delays i) :
    (s.delay t i).Balanced owed := by
  rcases s.delay_cases t i with ⟨-, hs⟩ | ⟨-, hclosed, -⟩ | ⟨-, -, hs⟩
  · rw [hs]
    exact (h.refuse t _).resume
  · cases hclosed.symm.trans h.listOpen
  · rw [hs]
    exact h.pause_owed.park hi _

/-- A delayed task of a connection that is read pauses it, or is given up. -/
theorem Balanced.delay_read {t : Task} (h : s.Balanced owed)
    (hread : s.gate t.connection = some true) (hi : s.Delays i) : (s.delay t i).Balanced owed := by
  rcases s.delay_cases t i with ⟨-, hs⟩ | ⟨-, hclosed, -⟩ | ⟨-, -, hs⟩
  · rw [hs]
    exact (h.refuse t _).resume_open ((s.gate_refuse t.connection t _).trans hread)
  · cases hclosed.symm.trans h.listOpen
  · rw [hs]
    exact (h.pause hread).park hi _

/-- Delaying a task shuts at most the gate of its own connection. -/
theorem gate_delay {t : Task} {d : ConnectionId} (hd : d ≠ t.connection)
    (hopen : s.gate d = some true) : (s.delay t i).gate d = some true := by
  rcases s.delay_cases t i with ⟨-, hs⟩ | ⟨-, -, hs⟩ | ⟨-, -, hs⟩
  · rw [hs, gate_resume, if_neg hd, gate_refuse, hopen]
  · rw [hs, gate_refuse, hopen]
  · rw [hs, gate_pause, if_neg hd]
    exact hopen

/-- Accepting a task shuts at most the gate of its own connection. -/
theorem gate_accept (he : s.executors[i]? = some e) {e' : Executor} {queued : Nat} {t : Task}
    {policy : OverflowPolicy} {signals : List GateSignal}
    (henqueue : e.queue.policy.onEnqueue queued t.connection = (.accept, policy, signals))
    {d : ConnectionId} (hd : d ≠ t.connection ∨ s.Delays i) (hopen : s.gate d = some true) :
    ((s.setExecutor i e').signalAll signals).gate d = some true := by
  rcases OverflowPolicy.onEnqueue_cases henqueue with ⟨-, rfl⟩ | ⟨marks, denied, hpolicy, rfl, -⟩
  · exact hopen
  · have hne : d ≠ t.connection := by
      rcases hd with hne | ⟨f, capacity, hf, hdelay⟩
      · exact hne
      · cases he.symm.trans hf
        cases hpolicy.symm.trans hdelay
    have hpause := (s.setExecutor i e').gate_pause t.connection d
    rw [if_neg hne] at hpause
    exact hpause.trans hopen

/-- A reader that goes on with a task of a connection that is read keeps the gates balanced. If it
keeps the task, a full queue has refused it. -/
theorem Balanced.handOver (h : s.Balanced []) {r : Handing} (hi : r.executor < s.executors.length)
    (hread : s.gate r.task.connection = some true)
    (hrefused : ∀ t i, r = .refused t i → s.Delays i) :
    (s.handOver r).2.Balanced [] ∧
      (∀ d, d ≠ r.task.connection → s.gate d = some true →
        (s.handOver r).2.gate d = some true) ∧
      ∀ r', (s.handOver r).1 = some r' →
        (s.handOver r).2 = s ∧ r'.task = r.task ∧ s.Delays r'.executor := by
  cases r with
  | refused t i =>
    have hs : s.handOver (.refused t i) = (none, s.delay t i) := rfl
    rw [hs]
    exact ⟨h.delay_read hread (hrefused t i rfl), fun d hd hopen => gate_delay hd hopen,
      by rintro _ ⟨⟩⟩
  | offered t i =>
    have he : s.executors[i]? = some s.executors[i] := List.getElem?_eq_getElem hi
    rcases submit_cases he t with ⟨hclosed, -⟩ | ⟨-, hreject, hs⟩ |
      ⟨policy, signals, hopen, henqueue, hs⟩
    · cases hclosed.symm.trans (h.queueOpen _ (List.getElem_mem hi))
    · have hsame : s.handOver (.offered t i) = (some (.refused t i), s) := by
        simp only [Server.handOver, hs]
      rw [hsame]
      refine ⟨h, fun _ _ => id, ?_⟩
      rintro _ ⟨⟩
      obtain ⟨capacity, hpolicy⟩ := OverflowPolicy.eq_delay_of_reject hreject
      exact ⟨rfl, rfl, _, capacity, he, hpolicy⟩
    · simp only [Server.handOver, hs]
      exact ⟨h.accept he hopen henqueue (Or.inr hread),
        fun d hd hd' => gate_accept he henqueue (Or.inl hd) hd', by rintro _ ⟨⟩⟩

/-! ### The thread of the delay list -/

/-- The task that the thread has in its hand is owed when it leaves the hand. -/
theorem Balanced.takeFromHand (h : s.Balanced []) {t : Task} (resubmits : Nat)
    (hhand : s.delayed.hand.tasks = [t]) :
    { s with delayed.hand := .empty, delayed.resubmits := resubmits }.Balanced [t.connection] := by
  refine h.setDelayed h.listOpen h.parked (by rintro _ ⟨⟩) (by rintro _ _ ⟨⟩)
    fun c => ?_
  have hempty : Hand.empty.tasks = [] := rfl
  simp only [delayedOf, Server.parked, hempty, hhand, List.countP_append, List.countP_cons,
    List.countP_nil, List.count_cons, List.count_nil]
  omega

theorem Balanced.wake (h : s.Balanced []) : s.wake.Balanced [] := by
  rcases s.wake_cases with hs | ⟨p, rest, hhand, hparked, hopen, hs⟩
  · rw [hs]
    exact h
  · rw [hs]
    refine h.setDelayed hopen (fun q hq => ?_) ?_ (by rintro _ _ ⟨⟩) fun c => ?_
    · exact h.parked q (by rw [hparked]; exact List.mem_cons_of_mem p hq)
    · rintro _ ⟨⟩
      exact h.parked p (by rw [hparked]; exact List.mem_cons_self)
    · simp only [delayedOf, Server.parked, Hand.tasks, hhand, hparked, List.map_cons,
        List.countP_append, List.countP_cons, List.countP_nil]
      omega

theorem Balanced.resubmit (h : s.Balanced []) :
    s.resubmit.Balanced [] ∧ ∀ d, s.gate d = some true → s.resubmit.gate d = some true := by
  cases hhand : s.delayed.hand with
  | empty => simpa only [Server.resubmit, hhand] using ⟨h, fun _ => id⟩
  | refused t i => simpa only [Server.resubmit, hhand] using ⟨h, fun _ => id⟩
  | due p =>
    have hi := h.due p hhand
    have howed : s.emptyHand.Balanced [p.task.connection] :=
      h.takeFromHand _ (by rw [hhand, Hand.tasks])
    obtain ⟨e, capacity, he, hpolicy⟩ := hi
    have he' : s.emptyHand.executors[p.executor]? = some e := he
    simp only [Server.resubmit, hhand, offerAgain]
    rcases submit_cases he' p.task with ⟨hclosed, -⟩ | ⟨-, -, hs⟩ |
      ⟨policy, signals, hopen, henqueue, hs⟩
    · cases hclosed.symm.trans (h.queueOpen e (List.mem_of_getElem? he))
    · rw [hs]
      refine ⟨howed.setDelayed h.listOpen h.parked (by rintro _ ⟨⟩) ?_ fun c => ?_,
        fun _ => id⟩
      · rintro _ _ ⟨⟩
        exact ⟨e, capacity, he, hpolicy⟩
      · simp only [delayedOf, Server.parked, Hand.tasks, emptyHand, List.countP_append,
          List.countP_cons, List.countP_nil, List.count_cons, List.count_nil]
        omega
    · rw [hs]
      refine ⟨(howed.accept he' hopen henqueue (Or.inl ⟨e, capacity, he, hpolicy⟩)).resume,
        fun d hd => ?_⟩
      rw [gate_resume, gate_accept he' henqueue (Or.inr ⟨e, capacity, he, hpolicy⟩) hd]
      split <;> rfl

theorem Balanced.repark (h : s.Balanced []) :
    s.repark.Balanced [] ∧ ∀ d, s.gate d = some true → s.repark.gate d = some true := by
  cases hhand : s.delayed.hand with
  | empty => simpa only [Server.repark, hhand] using ⟨h, fun _ => id⟩
  | due p => simpa only [Server.repark, hhand] using ⟨h, fun _ => id⟩
  | refused t i =>
    have howed : { s with delayed.hand := .empty }.Balanced [t.connection] :=
      h.takeFromHand _ (by rw [hhand, Hand.tasks])
    have hshut := howed.gate_eq (c := t.connection) (by rw [List.count_cons_self]; omega)
    simp only [Server.repark, hhand]
    refine ⟨howed.delay (h.refused t i hhand), fun d hd => gate_delay ?_ hd⟩
    rintro rfl
    cases hd.symm.trans hshut

/-- A step of the thread of the delay list keeps the gates balanced and shuts none. -/
theorem Balanced.delayThread (h : s.Balanced []) (step : DelayStep) :
    (s.delayThread step).Balanced [] ∧
      ∀ d, s.gate d = some true → (s.delayThread step).gate d = some true := by
  cases step with
  | wake => exact ⟨h.wake, fun _ => id⟩
  | resubmit => exact h.resubmit
  | repark => exact h.repark

end Operations

/-- An executor that refuses tasks when its queue is full always does so. -/
theorem Conserves.delays {s s' : Server} {given gone : List Task} (h : Conserves s given s' gone)
    {i : ExecutorIndex} (hi : s.Delays i) : s'.Delays i := by
  obtain ⟨e, capacity, he, hpolicy⟩ := hi
  have hlt : i < s'.executors.length := by
    rw [h.length_eq]
    exact (List.getElem?_eq_some_iff.mp he).1
  obtain ⟨f, hf, hkept⟩ := h.executor i _ (List.getElem?_eq_getElem hlt)
  cases he.symm.trans hf
  exact ⟨_, capacity, List.getElem?_eq_getElem hlt, hkept.delays capacity hpolicy⟩

/-- A server that starts with connections that are read has no reason to pause any. -/
theorem balanced_new (registry : Registry) (config : DelayConfig) {connections : Connections}
    (hopen : ∀ k ∈ connections, k.gateOpen = true) :
    (Server.new registry config connections).Balanced [] := by
  have hbuilt := Groups.built_ofMethods registry.methods
  have hdenied : ∀ e ∈ (Server.new registry config connections).executors,
      e.queue.policy.denied = [] := by
    intro e he
    obtain ⟨name, execution, rfl⟩ := hbuilt.executor e he
    exact OverflowPolicy.denied_ofMode execution.overflow execution.capacity
  refine ⟨fun c => ?_, rfl, fun e he => ?_, fun e he hne => absurd (hdenied e he) hne,
    by rintro _ ⟨⟩, by rintro _ ⟨⟩, by rintro _ _ ⟨⟩⟩
  · have hnil : (Server.new registry config connections).executors.flatMap
        (fun e => e.queue.policy.denied) = [] := List.flatMap_eq_nil_iff.mpr hdenied
    have hzero : (Server.new registry config connections).deniedOf c = 0 := by
      rw [deniedOf, hnil, List.count_nil]
    have hread : (Server.new registry config connections).gate c ≠ some false := by
      intro hshut
      rw [gate, Option.map_eq_some_iff] at hshut
      obtain ⟨k, hk, hfalse⟩ := hshut
      have htrue := hopen k (List.mem_of_find?_eq_some hk)
      cases htrue.symm.trans hfalse
    rw [Server.reasons, hzero, if_neg hread]
    rfl
  · obtain ⟨name, execution, rfl⟩ := hbuilt.executor e he
    rfl

/-! ### Runs before a shutdown -/

namespace Activity

/-- The moves of a server that is not shut down. A frame is taken in only through an open gate, by a
reader that has handed over its last task. Connections are not closed, but what is queued on them
may be written or lost, and further ones may be added. -/
def Serves (a : Activity) : Move → Prop
  | .receive c _ => a.server.gate c = some true ∧ ∀ r ∈ a.readers, r.task.connection ≠ c
  | .connection _ change =>
    (∀ k, (change k).id = k.id) ∧ ∀ k, (change k).gateOpen = k.gateOpen
  | .connect k => k.gateOpen = true
  | .shutdown => False
  | _ => True

/-- The states of a server that starts with connections that are read, and is not shut down. -/
inductive Served : Activity → Prop
  | start (registry : Registry) (config : DelayConfig) {connections : Connections}
      (hopen : ∀ k ∈ connections, k.gateOpen = true) :
      Served (start registry config connections)
  | step {a : Activity} (h : Served a) {m : Move} (hm : a.Serves m) : Served (a.step m)

theorem Served.sound {a : Activity} (h : a.Served) : a.Sound := by
  induction h with
  | start registry config hopen => exact sound_start registry config _
  | step h hm ih => exact sound_step ih _

/-- The gates of a server at work are balanced. The connections whose readers have tasks to hand
over are read, each by one reader. -/
structure Balanced (a : Activity) : Prop where
  server : a.server.Balanced []
  reading : ∀ r ∈ a.readers, a.server.gate r.task.connection = some true
  distinct : (a.readers.map fun r => r.task.connection).Nodup
  refused : ∀ t i, Handing.refused t i ∈ a.readers → a.server.Delays i

variable {a : Activity}

/-- Operations of other threads than the readers. -/
theorem Balanced.keep (h : a.Balanced) {server : Server} {given gone : List Task}
    (hc : Conserves a.server given server gone) (hserver : server.Balanced [])
    (hgate : ∀ d, a.server.gate d = some true → server.gate d = some true) :
    Balanced { a with server } :=
  ⟨hserver, fun r hr => hgate _ (h.reading r hr), h.distinct,
    fun t i hr => hc.delays (h.refused t i hr)⟩

theorem balanced_start (registry : Registry) (config : DelayConfig) {connections : Connections}
    (hopen : ∀ k ∈ connections, k.gateOpen = true) :
    (start registry config connections).Balanced :=
  ⟨balanced_new registry config hopen, by rintro _ ⟨⟩, List.nodup_nil,
    by rintro _ _ ⟨⟩⟩

/-- A reader takes in a frame while its connection is read. -/
theorem Balanced.receive (h : a.Balanced) {c : ConnectionId} (hopen : a.server.gate c = some true)
    (hidle : ∀ r ∈ a.readers, r.task.connection ≠ c) (frame : Frame) :
    (a.step (.receive c frame)).Balanced := by
  rcases a.server.receive_cases c frame with ⟨i, t, -, htask, hr⟩ | ⟨f, hf, hr⟩
  · obtain ⟨-, -, hconnection, -⟩ := taskOf_eq_ok htask
    have hoffered : (Handing.offered t i).task.connection = c := hconnection
    simp only [step, hr]
    refine ⟨h.server.of_eq (fun _ => rfl) rfl rfl, fun r hr => ?_, ?_, fun u j hu => ?_⟩
    · rcases List.mem_append.mp hr with hold | hnew
      · exact h.reading r hold
      · rw [List.mem_singleton.mp hnew, hoffered]
        exact hopen
    · rw [List.map_append, List.nodup_append]
      refine ⟨h.distinct, List.pairwise_singleton _ _, fun d hd d' hd' => ?_⟩
      obtain ⟨r, hr, rfl⟩ := List.mem_map.mp hd
      obtain ⟨r', hr', rfl⟩ := List.mem_map.mp hd'
      rw [List.mem_singleton.mp hr', hoffered]
      exact hidle r hr
    · rcases List.mem_append.mp hu with hold | hnew
      · exact h.refused u j hold
      · cases List.mem_singleton.mp hnew
  · simp only [step, hr]
    have hsame (d : ConnectionId) := a.server.gate_onConnection_of_answered c d hf
    exact h.keep (.onConnection a.server c f) (h.server.of_eq hsame rfl rfl)
      fun d hd => (hsame d).trans hd

/-- A reader goes on to hand over its task. -/
theorem Balanced.handOver (h : a.Balanced) (hsound : a.Sound) (k : Nat) :
    (a.step (.handOver k)).Balanced := by
  cases hk : a.readers[k]? with
  | none => simpa only [step, hk] using h
  | some r =>
    have hmem := List.mem_of_getElem? hk
    obtain ⟨hlt, hr⟩ := List.getElem?_eq_some_iff.mp hk
    obtain ⟨hserver, hgate, hleft⟩ := h.server.handOver (hsound.readers r hmem) (h.reading r hmem)
      fun t i ht => h.refused t i (ht ▸ hmem)
    have hc := (conserves_handOver (hsound.readers r hmem)).1
    have hperm := (List.getElem_cons_eraseIdx_perm hlt).map fun q => q.task.connection
    rw [hr, List.map_cons] at hperm
    have hnodup := List.nodup_cons.mp (hperm.nodup_iff.mpr h.distinct)
    rcases hout : a.server.handOver r with ⟨_ | r', s'⟩
    · rw [hout] at hserver hgate hc
      simp only [step, hk, hout]
      refine ⟨hserver, fun q hq => ?_, hnodup.2, fun t i ht => ?_⟩
      · have hne : q.task.connection ≠ r.task.connection := fun heq =>
          hnodup.1 (heq ▸ List.mem_map_of_mem hq)
        exact hgate _ hne (h.reading q (List.mem_of_mem_eraseIdx hq))
      · exact hc.delays (h.refused t i (List.mem_of_mem_eraseIdx ht))
    · obtain ⟨hsame, htask, hdelays⟩ := hleft r' (by rw [hout])
      rw [hout] at hsame
      obtain rfl : s' = a.server := hsame
      simp only [step, hk, hout]
      refine ⟨h.server, fun q hq => ?_, ?_, fun t i ht => ?_⟩
      · rcases List.mem_or_eq_of_mem_set hq with hold | rfl
        · exact h.reading q hold
        · rw [htask]
          exact h.reading r hmem
      · have hset : (a.readers.set k r').map (fun q => q.task.connection) =
            a.readers.map fun q => q.task.connection := by
          have hlt' : k < (a.readers.map fun q => q.task.connection).length := by
            rw [List.length_map]
            exact hlt
          rw [List.map_set, htask, ← hr, ← List.getElem_map fun q : Handing => q.task.connection]
          exact List.set_getElem_self hlt'
        rw [hset]
        exact h.distinct
      · rcases List.mem_or_eq_of_mem_set ht with hold | rfl
        · exact h.refused t i hold
        · exact hdelays

/-- A connection that is read is added. -/
theorem Balanced.connect (h : a.Balanced) {k : Connection} (hopen : k.gateOpen = true) :
    (a.step (.connect k)).Balanced := by
  have hgate (d : ConnectionId) := a.server.gate_connect d k
  have hold (d : ConnectionId) (b : Bool) (hd : a.server.gate d = some b) :
      (a.step (.connect k)).server.gate d = some b := by
    rw [step, hgate, hd, Option.some_or]
  refine h.keep (.of_eq rfl rfl rfl rfl) ⟨fun d => ?_, h.server.listOpen, h.server.queueOpen,
    h.server.waiting, h.server.parked, h.server.due, h.server.refused⟩ fun d => hold d true
  refine (h.server.reasons d).trans ?_
  cases hd : a.server.gate d with
  | some b =>
    have hb := hold d b hd
    simp only [step] at hb
    rw [hb]
  | none =>
    rw [hgate, hd, Option.none_or]
    by_cases hk : k.id = d <;> simp [hk, hopen]

/-- The gates stay balanced under every move of a server that is not shut down. -/
theorem Balanced.step (h : a.Balanced) (hsound : a.Sound) {m : Move} (hm : a.Serves m) :
    (a.step m).Balanced := by
  cases m with
  | receive c frame => exact h.receive hm.1 hm.2 frame
  | handOver k => exact h.handOver hsound k
  | thread i w step =>
    have hs := threadStepped a.server i w step
    exact h.keep hs.conserves (hs.balanced h.server) fun _ => hs.gate
  | delayThread step =>
    obtain ⟨hserver, hgate⟩ := h.server.delayThread step
    exact h.keep (conserves_delayThread hsound.bound step) hserver hgate
  | shutdown => exact hm.elim
  | elapse ms =>
    exact h.keep (.of_eq rfl rfl rfl rfl) (h.server.of_eq (fun _ => rfl) rfl rfl) fun _ => id
  | release =>
    exact h.keep (.of_eq rfl rfl rfl rfl) (h.server.of_eq (fun _ => rfl) rfl rfl) fun _ => id
  | connection c change =>
    have hsame (d : ConnectionId) := a.server.gate_onConnection_of_eq c d hm.1 hm.2
    exact h.keep (.onConnection a.server c change) (h.server.of_eq hsame rfl rfl)
      fun d hd => (hsame d).trans hd
  | connect k => exact h.connect hm

/-- The gates are balanced in every state of a server that is not shut down. -/
theorem Served.balanced (h : a.Served) : a.Balanced := by
  induction h with
  | start registry config hopen => exact balanced_start registry config hopen
  | step h hm ih => exact ih.step h.sound hm

/-- In every state of a server that is not shut down, the gate of a connection is shut if and only
if there is exactly one reason for it, and there is never a second one: exactly one of its tasks is
parked or in the hand of the thread of the delay list, or exactly one queue denies it, which still
has tasks that its threads will take off. A connection that is read has no such task. -/
theorem gate_shut_iff_one_reason (h : a.Served) (c : ConnectionId) :
    (a.server.gate c = some false ↔ a.server.delayedOf c + a.server.deniedOf c = 1) ∧
      a.server.delayedOf c + a.server.deniedOf c ≤ 1 ∧
      (a.server.gate c = some false →
        (a.server.delayedOf c = 1 ∧ a.server.deniedOf c = 0) ∨
          (a.server.delayedOf c = 0 ∧ a.server.deniedOf c = 1 ∧
            ∃ e ∈ a.server.executors, c ∈ e.queue.policy.denied ∧ e.queue.tasks ≠ [] ∧
              e.queue.closed = false)) ∧
      (a.server.gate c = some true → a.server.delayedOf c = 0 ∧ a.server.deniedOf c = 0) := by
  have hb := h.balanced.server
  have hreasons := hb.reasons c
  have hle := hb.reasons_le_one c
  simp only [Server.reasons, List.count_nil, Nat.add_zero] at hreasons hle
  refine ⟨⟨fun hshut => ?_, fun hone => ?_⟩, hle, fun hshut => ?_, fun hopen => ?_⟩
  · rw [hreasons, if_pos hshut]
  · by_contra hshut
    rw [hreasons, if_neg hshut] at hone
    cases hone
  · rw [if_pos hshut] at hreasons
    by_cases hdenied : a.server.deniedOf c = 0
    · exact Or.inl ⟨by omega, hdenied⟩
    · have hmem : c ∈ a.server.executors.flatMap fun e => e.queue.policy.denied :=
        List.count_pos_iff.mp (Nat.pos_of_ne_zero hdenied)
      obtain ⟨e, he, hc⟩ := List.mem_flatMap.mp hmem
      exact Or.inr ⟨by omega, by omega, e, he, hc, hb.waiting e he (List.ne_nil_of_mem hc),
        hb.queueOpen e he⟩
  · rw [hopen, if_neg (by simp)] at hreasons
    omega

/-- One service with one method, on a queue for one task. -/
def narrowRegistry : Registry :=
  let execution := Execution.single.withCapacity 1
  let m := Method.ofSignature 1 1 { Signature.ofName "echo" with execution } (some .echo) .standard
  ⟨[{ Service.new "narrow" (.v4 0 0) with id := 1, methods := [m] }], false⟩

/-- The server of that service, with one connection. -/
def narrowStart : Activity :=
  start narrowRegistry ⟨100, 3⟩ [.new 1 (.v4 0 0) .standard]

/-- Two requests, one after the other; no thread takes any. -/
def twoRequests : List Move :=
  [.receive 1 (.empty ⟨1, 1, 1, .empty⟩), .handOver 0, .receive 1 (.empty ⟨1, 2, 1, .empty⟩),
    .handOver 0, .handOver 0]

/-- The second request is parked, and its connection is paused for this one reason. -/
theorem gate_shut_by_second_request :
    (narrowStart.run twoRequests).Served ∧
      (narrowStart.run twoRequests).server.gate 1 = some false ∧
      (narrowStart.run twoRequests).server.delayedOf 1 +
        (narrowStart.run twoRequests).server.deniedOf 1 = 1 := by
  have h : (narrowStart.run twoRequests).Served :=
    ((((Served.start narrowRegistry ⟨100, 3⟩ (by decide)).step
      (m := .receive 1 (.empty ⟨1, 1, 1, .empty⟩)) ⟨rfl, by rintro _ ⟨⟩⟩).step
      (m := .handOver 0) trivial).step
      (m := .receive 1 (.empty ⟨1, 2, 1, .empty⟩)) ⟨rfl, by rintro _ ⟨⟩⟩).step
      (m := .handOver 0) trivial |>.step (m := .handOver 0) trivial
  exact ⟨h, rfl, (gate_shut_iff_one_reason h 1).1.mp rfl⟩

end Activity

end RemoteCall.Server
