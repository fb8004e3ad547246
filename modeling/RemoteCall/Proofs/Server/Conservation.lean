import RemoteCall.Proofs.Counting
import RemoteCall.Proofs.Server.Activity

/-!
# Operations conserve tasks

Every task of a server at work is in exactly one place: in the queue of one executor, with one of
its threads, on the delay list, in the hand of the thread of that list, with its reader, with the
shutdown, or among those that have ended. The operations of a server move tasks between these
places; each of them is shown to give away what it took, and a run is a sequence of such steps.

Tasks are counted by a key, which may look at everything but the number of delays. A key that holds
of one task alone shows that this task is neither lost nor doubled.

## Main definitions

* `Activity.tasks` : the tasks in all places, one place after the other.
* `Conserves` : what every operation of a server preserves, beside the tasks it is given or gives.

## Main results

* `ThreadStepped.conserves`, `conserves_delayThread` : what the threads do.
* `Shutdown.conserves_next` : what the steps of a shutdown do.
-/

namespace RemoteCall.Server

/-! ### Counting tasks -/

/-- The task as it was made, before any delay. -/
def Task.original (t : Task) : Task :=
  { t with attempts := 0 }

/-- How many of these tasks a key holds of, as they were made. -/
def tally (key : Task → Bool) (tasks : List Task) : Nat :=
  tasks.countP fun t => key t.original

variable {key : Task → Bool}

@[simp] theorem tally_nil : tally key [] = 0 := rfl

theorem tally_cons (t : Task) (tasks : List Task) :
    tally key (t :: tasks) = tally key tasks + tally key [t] := by
  simp [tally, List.countP_cons]

@[simp] theorem tally_append (a b : List Task) :
    tally key (a ++ b) = tally key a + tally key b := by
  simp [tally]

/-- A delay does not change what a key sees. -/
theorem tally_delayed (t : Task) (attempts : Nat) :
    tally key [{ t with attempts }] = tally key [t] := rfl

theorem tally_perm (key : Task → Bool) {a b : List Task} (h : a.Perm b) :
    tally key a = tally key b :=
  h.countP_eq _

theorem tally_flatMap_set (key : Task → Bool) {α : Type} (f : α → List Task) {l : List α} {i : Nat}
    {a : α} (b : α) (h : l[i]? = some a) :
    tally key ((l.set i b).flatMap f) + tally key (f a) =
      tally key (l.flatMap f) + tally key (f b) :=
  countP_flatMap_set _ f b h

theorem tally_map_set (key : Task → Bool) {α : Type} (f : α → Task) {l : List α} {i : Nat} {a : α}
    (b : α) (h : l[i]? = some a) :
    tally key ((l.set i b).map f) + tally key [f a] = tally key (l.map f) + tally key [f b] := by
  simp only [List.map_eq_flatMap]
  exact tally_flatMap_set key (fun x => [f x]) b h

theorem tally_map_eraseIdx (key : Task → Bool) {α : Type} (f : α → Task) {l : List α} {i : Nat}
    {a : α} (h : l[i]? = some a) :
    tally key ((l.eraseIdx i).map f) + tally key [f a] = tally key (l.map f) := by
  simp only [List.map_eq_flatMap]
  exact countP_flatMap_eraseIdx _ (fun x => [f x]) h

/-- Lists that every key counts alike hold the same tasks, each as often. -/
theorem perm_of_tally {a b : List Task} (h : ∀ key, tally key a = tally key b) :
    (a.map Task.original).Perm (b.map Task.original) := by
  classical
  refine List.perm_iff_count.mpr fun t => ?_
  rw [List.count, List.countP_map, List.countP_map]
  exact h fun u => u == t

/-! ### The places of tasks -/

/-- The tasks that the threads of an executor have. -/
def Executor.running (e : Executor) : List Task :=
  e.workers.flatMap fun w => w.stage.task?.toList

/-- The task in the hand of the thread of the delay list. -/
def Hand.tasks : Hand → List Task
  | empty => []
  | due p => [p.task]
  | refused t _ => [t]

/-- The tasks in the queues of the executors. -/
def queued (s : Server) : List Task :=
  s.executors.flatMap fun e => e.queue.tasks

/-- The tasks that the threads of the executors have. -/
def running (s : Server) : List Task :=
  s.executors.flatMap Executor.running

/-- The tasks that are parked. -/
def parked (s : Server) : List Task :=
  s.delayed.parked.map Parked.task

/-- The tasks that have ended. -/
def ended (s : Server) : List Task :=
  s.endings.map TaskEnd.task

/-- The tasks of a server, wherever they are. -/
def tasks (s : Server) : List Task :=
  s.queued ++ s.running ++ s.parked ++ s.delayed.hand.tasks ++ s.ended

/-- The tasks that a shutdown has not answered yet. -/
def Shutdown.tasks : Shutdown → List Task
  | answering parked => parked.map Parked.task
  | draining _ left | refusing left => left
  | notBegun | begun | returned => []

/-- The tasks of a server at work, wherever they are. -/
def Activity.tasks (a : Activity) : List Task :=
  a.server.tasks ++ a.readers.map Handing.task ++ a.shutdown.tasks

/-! ### What operations preserve -/

/-- What is closed stays closed, what is closed and empty stays empty, and an executor that refuses
tasks when its queue is full always does so. -/
structure Executor.Kept (e e' : Executor) : Prop where
  closed : e.queue.closed = true → e'.queue.closed = true
  drained : e.queue.closed = true → e.queue.tasks = [] → e'.queue.tasks = []
  delays : ∀ capacity, e.queue.policy = .delay capacity → e'.queue.policy = .delay capacity

theorem Executor.Kept.refl (e : Executor) : e.Kept e := ⟨id, fun _ => id, fun _ => id⟩

/-- Nothing is parked once the list is closed. -/
def DelayList.Settled (d : DelayList) : Prop :=
  d.closed = true → d.parked = []

/-- A closed list stays closed and is empty, and its thread takes nothing more into its hand. -/
structure DelayList.Kept (d d' : DelayList) : Prop where
  closed : d.closed = true → d'.closed = true
  settled : d.Settled → d'.Settled
  hand : d.closed = true → d.hand = .empty → d'.hand = .empty

theorem DelayList.Kept.refl (d : DelayList) : d.Kept d := ⟨id, id, fun _ => id⟩

/-- The executors that methods and delayed tasks are for are there. -/
structure Bound (s : Server) : Prop where
  binding : ∀ b ∈ s.groups.bindings, b.2 < s.executors.length
  parked : ∀ p ∈ s.delayed.parked, p.executor < s.executors.length
  due : ∀ p, s.delayed.hand = .due p → p.executor < s.executors.length
  refused : ∀ t i, s.delayed.hand = .refused t i → i < s.executors.length

/-- An operation that was given tasks and gives away others. The tasks in all places stay the same
otherwise, nothing opens again, and tasks that have ended have ended for good. -/
structure Conserves (s : Server) (given : List Task) (s' : Server) (gone : List Task) : Prop where
  tally : ∀ key, tally key s'.tasks + tally key gone = tally key s.tasks + tally key given
  length_eq : s'.executors.length = s.executors.length
  executor : ∀ (i : ExecutorIndex) (e' : Executor), s'.executors[i]? = some e' →
    ∃ e, s.executors[i]? = some e ∧ e.Kept e'
  delayed : s.delayed.Kept s'.delayed
  endings : s.endings <+: s'.endings
  taken_eq : s'.taken = s.taken
  bound : s.Bound → s'.Bound

namespace Conserves

variable {s s' s'' : Server} {given given' gone gone' : List Task}

theorem refl (s : Server) : Conserves s [] s [] where
  tally _ := rfl
  length_eq := rfl
  executor _ e' he' := ⟨e', he', .refl e'⟩
  delayed := .refl s.delayed
  endings := List.prefix_refl s.endings
  taken_eq := rfl
  bound := id

theorem trans (h : Conserves s given s' gone) (h' : Conserves s' given' s'' gone') :
    Conserves s (given ++ given') s'' (gone ++ gone') where
  tally key := by
    have ht := h.tally key
    have ht' := h'.tally key
    simp only [tally_append]
    omega
  length_eq := h'.length_eq.trans h.length_eq
  executor i e'' he'' := by
    obtain ⟨e', he', hk'⟩ := h'.executor i e'' he''
    obtain ⟨e, he, hk⟩ := h.executor i e' he'
    exact ⟨e, he, hk'.closed ∘ hk.closed,
      fun hc ht => hk'.drained (hk.closed hc) (hk.drained hc ht),
      fun capacity hd => hk'.delays capacity (hk.delays capacity hd)⟩
  delayed :=
    ⟨h'.delayed.closed ∘ h.delayed.closed,
      h'.delayed.settled ∘ h.delayed.settled,
      fun hc hp => h'.delayed.hand (h.delayed.closed hc) (h.delayed.hand hc hp)⟩
  endings := h.endings.trans h'.endings
  taken_eq := h'.taken_eq.trans h.taken_eq
  bound := h'.bound ∘ h.bound

/-- What is given and given away again does not count. -/
theorem of_tally (h : Conserves s given s' gone)
    (heq : ∀ key, Server.tally key given + Server.tally key gone' =
      Server.tally key given' + Server.tally key gone) :
    Conserves s given' s' gone' :=
  { h with
    tally := fun key => by
      have ht := h.tally key
      have hk := heq key
      omega }

/-- An operation on nothing but connections, time and the like. -/
theorem of_eq (hgroups : s'.groups = s.groups) (hdelayed : s'.delayed = s.delayed)
    (hendings : s'.endings = s.endings) (htaken : s'.taken = s.taken) : Conserves s [] s' [] := by
  have htasks : s'.tasks = s.tasks := by
    simp only [tasks, queued, running, parked, ended, executors, hgroups, hdelayed, hendings]
  have hexecutors : s'.executors = s.executors := congrArg Groups.executors hgroups
  refine ⟨fun _ => by rw [htasks], by rw [hexecutors], ?_, ?_, ?_, htaken, ?_⟩
  · rw [hexecutors]
    exact (refl s).executor
  · rw [hdelayed]
    exact .refl s.delayed
  · exact hendings ▸ List.prefix_refl s.endings
  · intro h
    exact ⟨by rw [hgroups, hexecutors]; exact h.binding,
      by rw [hdelayed, hexecutors]; exact h.parked, by rw [hdelayed, hexecutors]; exact h.due,
      by rw [hdelayed, hexecutors]; exact h.refused⟩

/-- An executor takes the place of one that it continues. -/
theorem setExecutor {e e' : Executor} {i : ExecutorIndex} (he : s.executors[i]? = some e)
    (hk : e.Kept e')
    (ht : ∀ key, Server.tally key e'.queue.tasks + Server.tally key e'.running +
        Server.tally key gone =
      Server.tally key e.queue.tasks + Server.tally key e.running + Server.tally key given) :
    Conserves s given (s.setExecutor i e') gone where
  tally key := by
    have hqueued := tally_flatMap_set key (fun e => e.queue.tasks) e' he
    have hrunning := tally_flatMap_set key Executor.running e' he
    have hboth := ht key
    simp only [Server.tasks, tally_append]
    simp only [queued, running, parked, ended, executors, Server.setExecutor] at *
    omega
  length_eq := List.length_set
  executor j e'' he'' := by
    have hset : (s.executors.set i e')[j]? = some e'' := he''
    rw [List.getElem?_set] at hset
    split at hset
    · rename_i hij
      subst hij
      obtain ⟨hi, -⟩ := List.getElem?_eq_some_iff.mp he
      rw [if_pos hi] at hset
      cases hset
      exact ⟨e, he, hk⟩
    · exact ⟨e'', hset, .refl e''⟩
  delayed := .refl s.delayed
  endings := List.prefix_refl s.endings
  taken_eq := rfl
  bound h := by
    have hlength : (s.setExecutor i e').executors.length = s.executors.length := List.length_set
    exact ⟨by rw [hlength]; exact h.binding, by rw [hlength]; exact h.parked,
      by rw [hlength]; exact h.due, by rw [hlength]; exact h.refused⟩

/-- A task that ends. -/
theorem record (s : Server) (e : TaskEnd) : Conserves s [e.task] (s.record e) [] where
  tally key := by
    have hended : (s.record e).ended = s.ended ++ [e.task] := by
      simp [ended, Server.record]
    have hrest : (s.record e).queued ++ (s.record e).running ++ (s.record e).parked ++
        (s.record e).delayed.hand.tasks =
        s.queued ++ s.running ++ s.parked ++ s.delayed.hand.tasks := rfl
    rw [Server.tasks, hrest, hended, Server.tasks]
    simp only [tally_append, tally_nil]
    omega
  length_eq := rfl
  executor _ e' he' := ⟨e', he', .refl e'⟩
  delayed := .refl s.delayed
  endings := List.prefix_append s.endings [e]
  taken_eq := rfl
  bound h := ⟨h.binding, h.parked, h.due, h.refused⟩

theorem onConnection (s : Server) (c : ConnectionId) (f : Connection → Connection) :
    Conserves s [] (s.onConnection c f) [] := of_eq rfl rfl rfl rfl

theorem signalAll (s : Server) (signals : List GateSignal) :
    Conserves s [] (s.signalAll signals) [] := of_eq rfl rfl rfl rfl

theorem refuse (s : Server) (t : Task) (fault : Fault) :
    Conserves s [t] (s.refuse t fault) [] :=
  (onConnection s t.connection (t.fail fault)).trans (record _ (.refused t fault))

end Conserves

/-! ### Executors and their threads -/

namespace Executor

variable {e e' : Executor} {w : Nat}

@[simp] theorem running_grow (e : Executor) : e.grow.running = e.running := by
  unfold grow
  split
  · simp [running, Stage.task?]
  · rfl

/-- A thread trades the task of its stage for that of the new one. -/
theorem tally_running_setStage (key : Task → Bool) {stage : Stage} (h : e.stage? w = some stage)
    (stage' : Stage) :
    tally key (e.setStage w stage').running + tally key stage.task?.toList =
      tally key e.running + tally key stage'.task?.toList := by
  rw [stage?, Option.map_eq_some_iff] at h
  obtain ⟨worker, hworker, rfl⟩ := h
  exact countP_flatMap_modify _ (fun w => w.stage.task?.toList)
    (fun w => { w with stage := stage' }) hworker

theorem Restaged.queue_eq (h : e.Restaged w e') : e'.queue = e.queue := by
  cases h <;> rfl

theorem Restaged.kept (h : e.Restaged w e') : e.Kept e' := by
  constructor <;> rw [h.queue_eq]
  · exact id
  · exact fun _ => id
  · exact fun _ => id

theorem Restaged.tally_running (key : Task → Bool) (h : e.Restaged w e') :
    tally key e'.running = tally key e.running := by
  cases h with
  | same => rfl
  | @stage a b ha htask =>
    have ht := tally_running_setStage key ha b
    rw [htask] at ht
    omega
  | ended ha =>
    rw [stage?, Option.map_eq_some_iff] at ha
    obtain ⟨worker, hworker, hleaving⟩ := ha
    have ht := countP_flatMap_eraseIdx (fun t => key t.original)
      (fun w => w.stage.task?.toList) hworker
    simp only [hleaving, Stage.task?] at ht
    exact ht

end Executor

/-- A step of a thread takes no task away. -/
theorem ThreadStepped.conserves {s s' : Server} {i : ExecutorIndex} {w : Nat}
    (h : ThreadStepped s i w s') : Conserves s [] s' [] := by
  cases h with
  | same => exact .refl s
  | @restage e e' he hr started =>
    have hset : Conserves s [] (s.setExecutor i e') [] :=
      .setExecutor he hr.kept fun key => by rw [hr.queue_eq, hr.tally_running key]
    exact hset.trans (.of_eq rfl rfl rfl rfl)
  | @take e t tasks policy signals he hstage htasks hdequeue =>
    have hset : Conserves s []
        (s.setExecutor i ({ e with queue := { e.queue with tasks, policy } }.setStage w
          (.holding t))) [] := by
      refine .setExecutor he ⟨id, fun _ hnil => ?_, fun capacity hdelay => ?_⟩ fun key => ?_
      · rw [htasks] at hnil
        cases hnil
      · rw [hdelay] at hdequeue
        exact (congrArg Prod.fst hdequeue).symm
      · have hrunning := Executor.tally_running_setStage key
          (e := { e with queue := { e.queue with tasks, policy } }) hstage (.holding t)
        rw [htasks, tally_cons]
        simp only [Stage.task?, Option.toList, tally_nil, Executor.queue_setStage] at *
        have hsame : ({ e with queue := { e.queue with tasks, policy } } : Executor).running =
          e.running := rfl
        rw [hsame] at hrunning
        omega
    exact hset.trans (.signalAll _ signals)
  | @finish e t he hstage =>
    have hset : Conserves s [] (s.setExecutor i (e.setStage w .finished)) [t] := by
      refine .setExecutor he ⟨id, fun _ => id, fun _ => id⟩ fun key => ?_
      have hrunning := Executor.tally_running_setStage key hstage .finished
      simp only [Stage.task?, Option.toList, tally_nil, Executor.queue_setStage] at *
      omega
    have hrun := (hset.trans (.onConnection _ t.connection t.run)).trans (.record _ (.ran t))
    exact hrun.of_tally fun key => by simp [TaskEnd.task]

/-! ### Tasks that are handed over or delayed -/

theorem insertParked_perm (p : Parked) (parked : List Parked) :
    (DelayList.insertParked p parked).Perm (p :: parked) := by
  induction parked with
  | nil => exact List.Perm.refl _
  | cons q parked ih =>
    unfold DelayList.insertParked
    split
    · exact List.Perm.refl _
    · exact (ih.cons q).trans (List.Perm.swap p q parked)

variable {s : Server}

/-- A task that is to be delayed is parked, or it ends. -/
theorem conserves_delay {i : ExecutorIndex} (hi : i < s.executors.length) (t : Task) :
    Conserves s [t] (s.delay t i) [] := by
  rcases s.delay_cases t i with ⟨-, h⟩ | ⟨-, -, h⟩ | ⟨-, hopen, h⟩
  · rw [h]
    exact (Conserves.refuse s t _).trans (.signalAll _ _)
  · rw [h]
    exact Conserves.refuse s t _
  · rw [h]
    let p : Parked :=
      { wakeMs := s.nowMs + s.delayed.config.delayMs
        task := { t with attempts := t.attempts + 1 }
        executor := i }
    have hperm := insertParked_perm p s.delayed.parked
    have hpark : Conserves s [t]
        { s with delayed.parked := DelayList.insertParked p s.delayed.parked } [] := by
      refine ⟨fun key => ?_, rfl, fun _ e' he' => ⟨e', he', .refl e'⟩, ?_, List.prefix_refl _, rfl,
        fun hb => ⟨hb.binding, fun q hq => ?_, hb.due, hb.refused⟩⟩
      · have hparked := tally_perm key (hperm.map Parked.task)
        rw [List.map_cons, tally_cons, tally_delayed] at hparked
        simp only [tasks, queued, running, parked, ended, executors, tally_append, tally_nil] at *
        omega
      · constructor <;> simp [DelayList.Settled, hopen]
      · rcases List.mem_cons.mp (hperm.mem_iff.mp hq) with rfl | hold
        · exact hi
        · exact hb.parked q hold
    exact hpark.trans (.signalAll _ _)

/-- An executor that is not closed takes over a task. -/
theorem conserves_accept {e : Executor} {i : ExecutorIndex} (he : s.executors[i]? = some e)
    (hopen : e.queue.closed = false) {t : Task} {policy : OverflowPolicy}
    {signals : List GateSignal}
    (henqueue : e.queue.policy.onEnqueue e.queue.size t.connection = (.accept, policy, signals)) :
    Conserves s [t]
      ((s.setExecutor i { e with
        queue := { e.queue with tasks := e.queue.tasks ++ [t], policy } }.grow).signalAll signals)
      [] := by
  have hset : Conserves s [t]
      (s.setExecutor i { e with
        queue := { e.queue with tasks := e.queue.tasks ++ [t], policy } }.grow) [] := by
    refine .setExecutor he ?_ fun key => ?_
    · refine ⟨?_, ?_, fun capacity hdelay => ?_⟩
      · simp [hopen]
      · simp [hopen]
      · rw [hdelay] at henqueue
        rw [Executor.queue_grow]
        exact OverflowPolicy.onEnqueue_delay henqueue
    · have hsame : ({ e with
          queue := { e.queue with tasks := e.queue.tasks ++ [t], policy } } : Executor).running =
        e.running := rfl
      rw [Executor.queue_grow, Executor.running_grow, hsame, tally_append, tally_nil]
      omega
  exact hset.trans (.signalAll _ signals)

/-- A reader keeps its task, or the server takes it over. -/
theorem conserves_handOver {h : Handing} (hi : h.executor < s.executors.length) :
    Conserves s [h.task] (s.handOver h).2 ((s.handOver h).1.toList.map Handing.task) ∧
      ∀ h', (s.handOver h).1 = some h' → h'.executor = h.executor := by
  cases h with
  | refused t i =>
    have h : s.handOver (.refused t i) = (none, s.delay t i) := rfl
    rw [h]
    exact ⟨conserves_delay hi t, by rintro _ ⟨⟩⟩
  | offered t i =>
    have he : s.executors[i]? = some s.executors[i] := List.getElem?_eq_getElem hi
    rcases submit_cases he t with ⟨-, h⟩ | ⟨-, -, h⟩ | ⟨policy, signals, hopen, henqueue, h⟩
    · simp only [handOver, h]
      exact ⟨(Conserves.signalAll s [.pause t.connection]).trans (.refuse _ t _),
        by rintro _ ⟨⟩⟩
    · simp only [handOver, h]
      refine ⟨(Conserves.refl s).of_tally fun key => by simp [Handing.task], ?_⟩
      rintro _ ⟨⟩
      rfl
    · simp only [handOver, h]
      exact ⟨conserves_accept he hopen henqueue, by rintro _ ⟨⟩⟩

/-! ### The thread of the delay list -/

/-- The thread of the delay list puts a task out of its hand, or turns it over. -/
theorem conserves_setHand {hand : Hand} {gone : List Task} (resubmits : Nat)
    (hfree : hand = .empty ∨ s.delayed.hand ≠ .empty)
    (ht : ∀ key, tally key hand.tasks + tally key gone = tally key s.delayed.hand.tasks)
    (hdue : ∀ p, hand = .due p → p.executor < s.executors.length)
    (hrefused : ∀ t i, hand = .refused t i → i < s.executors.length) :
    Conserves s [] { s with delayed.hand := hand, delayed.resubmits := resubmits } gone where
  tally key := by
    have hhand := ht key
    simp only [tasks, queued, running, parked, ended, executors, tally_append, tally_nil]
    omega
  length_eq := rfl
  executor _ e' he' := ⟨e', he', .refl e'⟩
  delayed := ⟨id, id, fun _ hempty => hfree.resolve_right fun hne => hne hempty⟩
  endings := List.prefix_refl s.endings
  taken_eq := rfl
  bound h := ⟨h.binding, h.parked, hdue, hrefused⟩

theorem conserves_wake (s : Server) : Conserves s [] s.wake [] := by
  rcases s.wake_cases with h | ⟨p, rest, hhand, hparked, hopen, h⟩
  · rw [h]
    exact .refl s
  · rw [h]
    refine ⟨fun key => ?_, rfl, fun _ e' he' => ⟨e', he', .refl e'⟩, ?_, List.prefix_refl _, rfl,
      fun hb => ⟨hb.binding, fun q hq => ?_, ?_, by rintro _ _ ⟨⟩⟩⟩
    · simp only [tasks, queued, running, parked, ended, executors, hparked, hhand, Hand.tasks,
        List.map_cons, tally_append, tally_nil]
      rw [tally_cons p.task (rest.map Parked.task)]
      omega
    · constructor <;> simp [DelayList.Settled, hopen]
    · exact hb.parked q (by rw [hparked]; exact List.mem_cons_of_mem p hq)
    · rintro _ ⟨⟩
      exact hb.parked p (by rw [hparked]; exact List.mem_cons_self)

theorem conserves_resubmit (hb : s.Bound) : Conserves s [] s.resubmit [] := by
  cases hhand : s.delayed.hand with
  | empty => simpa only [resubmit, hhand] using Conserves.refl s
  | refused t i => simpa only [resubmit, hhand] using Conserves.refl s
  | due p =>
    have hi := hb.due p hhand
    have hout : Conserves s [] s.emptyHand [p.task] :=
      conserves_setHand _ (Or.inl rfl) (fun key => by simp [hhand, Hand.tasks])
        (by rintro _ ⟨⟩) (by rintro _ _ ⟨⟩)
    have he : s.emptyHand.executors[p.executor]? = some s.executors[p.executor] :=
      List.getElem?_eq_getElem hi
    simp only [resubmit, hhand, offerAgain]
    rcases submit_cases he p.task with ⟨-, h⟩ | ⟨-, -, h⟩ |
      ⟨policy, signals, hopen, henqueue, h⟩
    · rw [h]
      have hall := (hout.trans (.refuse _ p.task stoppingFault)).trans
        (.signalAll _ [.resume p.task.connection])
      exact hall.of_tally fun key => by simp
    · rw [h]
      refine conserves_setHand _ (Or.inr ?_) (fun key => by simp [hhand, Hand.tasks])
        (by rintro _ ⟨⟩) ?_
      · rw [hhand]
        rintro ⟨⟩
      · rintro _ _ ⟨⟩
        exact hi
    · rw [h]
      have hall := (hout.trans (conserves_accept he hopen henqueue)).trans
        (.signalAll _ [.resume p.task.connection])
      exact hall.of_tally fun key => by simp

theorem conserves_repark (hb : s.Bound) : Conserves s [] s.repark [] := by
  cases hhand : s.delayed.hand with
  | empty => simpa only [repark, hhand] using Conserves.refl s
  | due p => simpa only [repark, hhand] using Conserves.refl s
  | refused t i =>
    have hi := hb.refused t i hhand
    have hout : Conserves s [] { s with delayed.hand := .empty } [t] :=
      conserves_setHand _ (Or.inl rfl) (fun key => by simp [hhand, Hand.tasks])
        (by rintro _ ⟨⟩) (by rintro _ _ ⟨⟩)
    have hin := conserves_delay (s := { s with delayed.hand := .empty }) hi t
    simp only [repark, hhand]
    exact (hout.trans hin).of_tally fun key => by simp

/-- A step of the thread of the delay list takes no task away. -/
theorem conserves_delayThread (hb : s.Bound) (step : DelayStep) :
    Conserves s [] (s.delayThread step) [] := by
  cases step with
  | wake => exact conserves_wake s
  | resubmit => exact conserves_resubmit hb
  | repark => exact conserves_repark hb

/-! ### Shutdown -/

/-- Closing the delay list gives away what was parked. -/
theorem conserves_takeDelayed (s : Server) :
    Conserves s [] s.takeDelayed.2 (s.takeDelayed.1.map Parked.task) := by
  cases hclosed : s.delayed.closed with
  | true =>
    have h : s.takeDelayed = ([], s) := by simp [takeDelayed, DelayList.close, hclosed]
    rw [h]
    exact .refl s
  | false =>
    have h : s.takeDelayed = (s.delayed.parked,
        { s with delayed.parked := [], delayed.closed := true }) := by
      simp [takeDelayed, DelayList.close, hclosed]
    rw [h]
    refine ⟨fun key => ?_, rfl, fun _ e' he' => ⟨e', he', .refl e'⟩, ?_, List.prefix_refl _, rfl,
      fun hb => ⟨hb.binding, by rintro _ ⟨⟩, hb.due, hb.refused⟩⟩
    · simp only [tasks, queued, running, parked, ended, executors, tally_append, tally_nil,
        List.map_nil]
      omega
    · constructor <;> simp [DelayList.Settled, hclosed]

theorem conserves_closeExecutors (s : Server) : Conserves s [] s.closeExecutors [] where
  tally key := by
    have hqueued : s.closeExecutors.queued = s.queued := by
      simp [queued, executors, closeExecutors, Groups.close, List.flatMap_map, Executor.close,
        TaskQueue.close]
    have hrunning : s.closeExecutors.running = s.running := by
      simp only [running, executors, closeExecutors, Groups.close, List.flatMap_map]
      rfl
    simp only [tasks, hqueued, hrunning]
    rfl
  length_eq := List.length_map Executor.close
  executor i e' he' := by
    have hmap : (s.executors.map Executor.close)[i]? = some e' := he'
    rw [List.getElem?_map, Option.map_eq_some_iff] at hmap
    obtain ⟨e, he, rfl⟩ := hmap
    exact ⟨e, he, fun _ => rfl, fun _ => id, fun _ => id⟩
  delayed := .refl s.delayed
  endings := List.prefix_refl s.endings
  taken_eq := rfl
  bound hb := by
    have hlength : s.closeExecutors.executors.length = s.executors.length :=
      List.length_map Executor.close
    exact ⟨by rw [hlength]; exact hb.binding, by rw [hlength]; exact hb.parked,
      by rw [hlength]; exact hb.due, by rw [hlength]; exact hb.refused⟩

/-- Draining the queue of an executor gives away its tasks. -/
theorem conserves_drain {e : Executor} {i : ExecutorIndex} (he : s.executors[i]? = some e) :
    Conserves s [] (s.drain i).2 (s.drain i).1 := by
  have hset : Conserves s [] (s.setExecutor i e.drained) e.queue.tasks :=
    .setExecutor he ⟨id, fun _ _ => rfl, fun capacity hd => by rw [Executor.drained, hd]; rfl⟩
      fun key => by
      have hrunning : e.drained.running = e.running := rfl
      have hnone : e.drained.queue.tasks = [] := rfl
      rw [hrunning, hnone, tally_nil]
      omega
  rw [drain_eq he]
  exact (hset.trans (.signalAll _ (e.queue.policy.onDequeue 0).2)).of_tally fun key => by simp

/-- A step of a shutdown keeps the tasks that it has not answered. -/
theorem Shutdown.conserves_next (s : Server) (p : Shutdown) :
    Conserves s p.tasks (p.next s).2 (p.next s).1.tasks := by
  have hsame (tasks : List Task) : Conserves s tasks s tasks :=
    (Conserves.refl s).of_tally fun key => by simp
  cases p with
  | notBegun => exact .of_eq rfl rfl rfl rfl
  | begun => exact conserves_takeDelayed s
  | answering parked =>
    cases hhand : s.delayed.hand with
    | due p => simpa only [next, hhand] using hsame _
    | refused t i => simpa only [next, hhand] using hsame _
    | empty =>
      cases parked with
      | nil =>
        simp only [next, hhand]
        exact conserves_closeExecutors s
      | cons p parked =>
        have hrefuse := (Conserves.signalAll s [.resume p.task.connection]).trans
          (.refuse _ p.task stoppingFault)
        simp only [next, hhand]
        refine hrefuse.of_tally fun key => ?_
        simp only [Shutdown.tasks, List.map_cons]
        rw [tally_cons p.task]
        simp
        omega
  | draining i left =>
    unfold next
    dsimp only
    split
    · rename_i hi
      have hdrain := conserves_drain (List.getElem?_eq_getElem hi)
      refine hdrain.of_tally fun key => ?_
      simp [Shutdown.tasks]
    · exact hsame left
  | refusing left =>
    cases left with
    | nil => exact .refl s
    | cons t left =>
      refine (Conserves.refuse s t stoppingFault).of_tally fun key => ?_
      simp only [Shutdown.tasks]
      rw [tally_cons t left]
      simp [next]
      omega
  | returned => exact .refl s

end RemoteCall.Server
