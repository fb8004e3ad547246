import RemoteCall.Proofs.Server.Conservation
import RemoteCall.Proofs.Server.Groups

/-!
# No task is lost or ended twice

After every run of a server at work each of its tasks is in exactly one place: in the queue of one
executor, with one of its threads, parked, in the hand of the thread of the delay list, with the
reader that made it, with the shutdown that took it off a queue, or among those that have ended.
When a shutdown has returned, only readers and threads of executors can still have tasks: the
readers have theirs refused, and the threads run theirs.

## Main definitions

* `Quiet` : what a shutdown has closed and emptied.
* `Activity.Sound` : the invariant of the runs.

## Main results

* `Activity.sound_step`, `Activity.sound_run` : every move preserves the invariant.
* `Activity.tasks_end_once` : what holds of the tasks after every run.
-/

namespace RemoteCall.Server

variable {s s' : Server}

/-! ### What a shutdown has closed -/

/-- The delay list and all executors are closed, and the delay list and the first `n` queues are
empty. -/
structure Quiet (s : Server) (n : Nat) : Prop where
  closed : s.delayed.closed = true
  parked : s.delayed.parked = []
  hand : s.delayed.hand = .empty
  executor : ∀ (i : ExecutorIndex) (e : Executor), s.executors[i]? = some e →
    e.queue.closed = true ∧ (i < n → e.queue.tasks = [])

/-- What is closed when a shutdown has come so far. -/
def Shutdown.Closed (s : Server) : Shutdown → Prop
  | notBegun | begun => s.delayed.Settled
  | answering _ => s.delayed.closed = true ∧ s.delayed.parked = []
  | draining next _ => Quiet s next
  | refusing _ | returned => Quiet s s.executors.length

theorem Quiet.keep {given gone : List Task} {n : Nat} (h : Quiet s n)
    (hc : Conserves s given s' gone) : Quiet s' n where
  closed := hc.delayed.closed h.closed
  parked := hc.delayed.settled (fun _ => h.parked) (hc.delayed.closed h.closed)
  hand := hc.delayed.hand h.closed h.hand
  executor i e' he' := by
    obtain ⟨e, he, hk⟩ := hc.executor i e' he'
    obtain ⟨hclosed, hempty⟩ := h.executor i e he
    exact ⟨hk.closed hclosed, fun hi => hk.drained hclosed (hempty hi)⟩

/-- No operation opens again what a shutdown has closed. -/
theorem Shutdown.Closed.keep {given gone : List Task} {p : Shutdown} (h : p.Closed s)
    (hc : Conserves s given s' gone) : p.Closed s' := by
  cases p with
  | notBegun => exact hc.delayed.settled h
  | begun => exact hc.delayed.settled h
  | answering parked =>
    have hclosed := hc.delayed.closed h.1
    exact ⟨hclosed, hc.delayed.settled (fun _ => h.2) hclosed⟩
  | draining next left => exact Quiet.keep h hc
  | refusing left =>
    rw [Closed, hc.length_eq]
    exact Quiet.keep h hc
  | returned =>
    rw [Closed, hc.length_eq]
    exact Quiet.keep h hc

/-- Numbering a task closes and opens nothing. -/
theorem Shutdown.Closed.number {p : Shutdown} (h : p.Closed s) (taken : Nat) :
    p.Closed { s with taken } := by
  cases p with
  | notBegun => exact h
  | begun => exact h
  | answering parked => exact h
  | draining next left => exact ⟨h.closed, h.parked, h.hand, h.executor⟩
  | refusing left => exact ⟨h.closed, h.parked, h.hand, h.executor⟩
  | returned => exact ⟨h.closed, h.parked, h.hand, h.executor⟩

theorem quiet_closeExecutors (hclosed : s.delayed.closed = true) (hparked : s.delayed.parked = [])
    (hhand : s.delayed.hand = .empty) : Quiet s.closeExecutors 0 where
  closed := hclosed
  parked := hparked
  hand := hhand
  executor i e' he' := by
    have hmap : (s.executors.map Executor.close)[i]? = some e' := he'
    rw [List.getElem?_map, Option.map_eq_some_iff] at hmap
    obtain ⟨e, -, rfl⟩ := hmap
    exact ⟨rfl, fun hi => absurd hi (Nat.not_lt_zero i)⟩

theorem quiet_drain {e : Executor} {i : ExecutorIndex} (h : Quiet s i)
    (he : s.executors[i]? = some e) : Quiet (s.drain i).2 (i + 1) := by
  have hkept := h.keep (conserves_drain he)
  refine ⟨hkept.closed, hkept.parked, hkept.hand, fun j e' he' => ?_⟩
  obtain ⟨hclosed, hempty⟩ := hkept.executor j e' he'
  refine ⟨hclosed, fun hj => ?_⟩
  rcases Nat.lt_succ_iff_lt_or_eq.mp hj with hlt | rfl
  · exact hempty hlt
  · rw [drain_eq he] at he'
    cases (getElem?_setExecutor_self he e.drained).symm.trans he'
    rfl

/-- A step of a shutdown closes what is to be closed next. -/
theorem Shutdown.closed_next {p : Shutdown} (h : p.Closed s) :
    (p.next s).1.Closed (p.next s).2 := by
  have hkeep := h.keep (p.conserves_next s)
  cases p with
  | notBegun => exact hkeep
  | begun =>
    have hclosed : s.takeDelayed.2.delayed.closed = true := by
      cases hclosed : s.delayed.closed <;> simp [takeDelayed, DelayList.close, hclosed]
    exact ⟨hclosed, (conserves_takeDelayed s).delayed.settled h hclosed⟩
  | answering parked =>
    cases hhand : s.delayed.hand with
    | due p => simpa only [next, hhand] using h
    | refused t i => simpa only [next, hhand] using h
    | empty =>
      cases parked with
      | nil =>
        simp only [next, hhand]
        exact quiet_closeExecutors h.1 h.2 hhand
      | cons p parked =>
        simp only [next, hhand] at hkeep ⊢
        exact hkeep
  | draining i left =>
    unfold next
    dsimp only
    split
    · rename_i hi
      exact quiet_drain h (List.getElem?_eq_getElem hi)
    · rename_i hi
      refine ⟨h.closed, h.parked, h.hand, fun j e he => ?_⟩
      obtain ⟨hclosed, hempty⟩ := h.executor j e he
      exact ⟨hclosed, fun hj => hempty (Nat.lt_of_lt_of_le hj (Nat.le_of_not_lt hi))⟩
  | refusing left =>
    cases left with
    | nil => exact h
    | cons t left => exact hkeep
  | returned => exact h

/-! ### Servers at work -/

namespace Activity

/-- Every task that was made is in exactly one place, under a number of its own; it is on its way to
an executor that is there; and what a shutdown has closed is closed. -/
structure Sound (a : Activity) : Prop where
  tally : ∀ key, tally key a.tasks = tally key a.arrivals
  serials : a.arrivals.map Task.serial = List.range a.server.taken
  new : ∀ t ∈ a.arrivals, t.attempts = 0
  bound : a.server.Bound
  readers : ∀ h ∈ a.readers, h.executor < a.server.executors.length
  closed : a.shutdown.Closed a.server

variable {a : Activity}

theorem tally_tasks (key : Task → Bool) (a : Activity) :
    Server.tally key a.tasks = Server.tally key a.server.tasks +
      Server.tally key (a.readers.map Handing.task) + Server.tally key a.shutdown.tasks := by
  simp only [tasks, tally_append]

/-- Operations that neither take nor give tasks keep a server at work sound. -/
theorem Sound.server (h : a.Sound) {server : Server} (hc : Conserves a.server [] server []) :
    Sound { a with server } where
  tally key := by
    have ha := h.tally key
    have ht := hc.tally key
    rw [tally_tasks] at ha ⊢
    simp only [tally_nil] at ht ⊢
    omega
  serials := by
    rw [hc.taken_eq]
    exact h.serials
  new := h.new
  bound := hc.bound h.bound
  readers r hr := by
    rw [hc.length_eq]
    exact h.readers r hr
  closed := h.closed.keep hc

theorem sound_receive (h : a.Sound) (c : ConnectionId) (frame : Frame) :
    (a.step (.receive c frame)).Sound := by
  rcases a.server.receive_cases c frame with ⟨i, t, -, htask, hr⟩ | ⟨f, -, hr⟩
  · obtain ⟨hserial, hattempts, -, b, hb, hi⟩ := taskOf_eq_ok htask
    have hstep : a.step (.receive c frame) =
        { a with
          server := { a.server with taken := a.server.taken + 1 }
          readers := a.readers ++ [.offered t i]
          arrivals := a.arrivals ++ [t] } := by
      simp only [step, hr, Handing.task]
    rw [hstep]
    refine ⟨fun key => ?_, ?_, ?_, ?_, ?_, ?_⟩
    · have ha := h.tally key
      rw [tally_tasks] at ha ⊢
      simp only [List.map_append, List.map_cons, List.map_nil, Handing.task, tally_append]
      have hsame : { a.server with taken := a.server.taken + 1 }.tasks = a.server.tasks := rfl
      rw [hsame]
      omega
    · simp only [List.map_append, List.map_cons, List.map_nil, h.serials, hserial]
      exact List.range_succ.symm
    · intro u hu
      rcases List.mem_append.mp hu with hold | hnew
      · exact h.new u hold
      · rw [List.mem_singleton.mp hnew]
        exact hattempts
    · exact ⟨h.bound.binding, h.bound.parked, h.bound.due, h.bound.refused⟩
    · intro r hr
      rcases List.mem_append.mp hr with hold | hnew
      · exact h.readers r hold
      · rw [List.mem_singleton.mp hnew, Handing.executor, ← hi]
        exact h.bound.binding b hb
    · exact h.closed.number _
  · simpa only [step, hr] using h.server (.onConnection a.server c f)

theorem sound_handOver (h : a.Sound) (k : Nat) : (a.step (.handOver k)).Sound := by
  cases hk : a.readers[k]? with
  | none => simpa only [step, hk] using h
  | some r =>
    have hr := h.readers r (List.mem_of_getElem? hk)
    obtain ⟨hc, hexecutor⟩ := conserves_handOver hr
    rcases hout : a.server.handOver r with ⟨_ | r', s'⟩
    · rw [hout] at hc
      simp only [step, hk, hout]
      refine ⟨fun key => ?_, h.serials.trans (by rw [← hc.taken_eq]), h.new, hc.bound h.bound,
        fun q hq => ?_, h.closed.keep hc⟩
      · have ha := h.tally key
        have ht := hc.tally key
        have herase := tally_map_eraseIdx key Handing.task hk
        rw [tally_tasks] at ha ⊢
        simp only [Option.toList, List.map_nil, tally_nil] at ht ⊢
        omega
      · rw [hc.length_eq]
        exact h.readers q (List.mem_of_mem_eraseIdx hq)
    · have hr' := hexecutor r' (by rw [hout])
      rw [hout] at hc
      simp only [step, hk, hout]
      refine ⟨fun key => ?_, h.serials.trans (by rw [← hc.taken_eq]), h.new, hc.bound h.bound,
        fun q hq => ?_, h.closed.keep hc⟩
      · have ha := h.tally key
        have ht := hc.tally key
        have hset := tally_map_set key Handing.task r' hk
        rw [tally_tasks] at ha ⊢
        simp only [Option.toList, List.map_cons, List.map_nil] at ht ⊢
        omega
      · rw [hc.length_eq]
        rcases List.mem_or_eq_of_mem_set hq with hold | rfl
        · exact h.readers q hold
        · rw [hr']
          exact hr

theorem sound_shutdown (h : a.Sound) : (a.step .shutdown).Sound := by
  have hc := a.shutdown.conserves_next a.server
  refine ⟨fun key => ?_, ?_, h.new, hc.bound h.bound, fun r hr => ?_,
    Shutdown.closed_next h.closed⟩
  · have ha := h.tally key
    have ht := hc.tally key
    rw [tally_tasks] at ha ⊢
    simp only [step] at ht ⊢
    omega
  · exact h.serials.trans (by rw [← hc.taken_eq]; rfl)
  · exact Nat.lt_of_lt_of_eq (h.readers r hr) hc.length_eq.symm

/-- Every move keeps a server at work sound. -/
theorem sound_step (h : a.Sound) (m : Move) : (a.step m).Sound := by
  cases m with
  | receive c frame => exact sound_receive h c frame
  | handOver k => exact sound_handOver h k
  | thread i w step => exact h.server (threadStepped a.server i w step).conserves
  | delayThread step => exact h.server (conserves_delayThread h.bound step)
  | shutdown => exact sound_shutdown h
  | elapse ms => exact h.server (.of_eq rfl rfl rfl rfl)
  | release => exact h.server (.of_eq rfl rfl rfl rfl)
  | connection c change => exact h.server (.onConnection a.server c change)
  | connect c => exact h.server (.of_eq rfl rfl rfl rfl)

theorem tasks_start (registry : Registry) (config : DelayConfig) (connections : Connections) :
    (start registry config connections).tasks = [] := by
  have hbuilt := Groups.built_ofMethods registry.methods
  have hqueued : (Server.new registry config connections).queued = [] := by
    refine List.flatMap_eq_nil_iff.mpr fun e he => ?_
    obtain ⟨name, execution, rfl⟩ := hbuilt.executor e he
    rfl
  have hrunning : (Server.new registry config connections).running = [] := by
    refine List.flatMap_eq_nil_iff.mpr fun e he => ?_
    obtain ⟨name, execution, rfl⟩ := hbuilt.executor e he
    refine List.flatMap_eq_nil_iff.mpr fun w hw => ?_
    rw [List.eq_of_mem_replicate hw]
    rfl
  simp only [tasks, Server.tasks, start, hqueued, hrunning]
  rfl

/-- A server that has nothing to do is sound. -/
theorem sound_start (registry : Registry) (config : DelayConfig) (connections : Connections) :
    (start registry config connections).Sound where
  tally key := by
    rw [tasks_start]
    rfl
  serials := rfl
  new := by rintro _ ⟨⟩
  bound :=
    ⟨(Groups.built_ofMethods registry.methods).binding, by rintro _ ⟨⟩,
      by rintro _ ⟨⟩, by rintro _ _ ⟨⟩⟩
  readers := by rintro _ ⟨⟩
  closed := by rintro ⟨⟩

/-- A server at work is sound after every run. -/
theorem sound_run (registry : Registry) (config : DelayConfig) (connections : Connections)
    (moves : List Move) : ((start registry config connections).run moves).Sound :=
  run_induction (P := Sound) (fun _ h m => sound_step h m)
    (sound_start registry config connections) moves

/-! ### The tasks after a run -/

/-- The tasks that were made are those in all places. -/
theorem Sound.perm (h : a.Sound) : (a.tasks.map Task.original).Perm a.arrivals := by
  have hnew : a.arrivals.map Task.original = a.arrivals := by
    refine (List.map_congr_left fun t ht => ?_).trans (List.map_id a.arrivals)
    have hattempts := h.new t ht
    cases t
    cases hattempts
    rfl
  rw [← hnew]
  exact perm_of_tally h.tally

/-- No two tasks in whatever places have the same number. -/
theorem Sound.nodup (h : a.Sound) : (a.tasks.map Task.serial).Nodup := by
  have hperm : (a.tasks.map Task.serial).Perm (List.range a.server.taken) := by
    have hserials := h.perm.map Task.serial
    rw [List.map_map, h.serials] at hserials
    exact hserials
  exact hperm.nodup_iff.mpr List.nodup_range

/-- A task that has ended has ended for good, and the same way. -/
theorem Sound.endings_kept (h : a.Sound) (m : Move) :
    a.server.endings <+: (a.step m).server.endings := by
  cases m with
  | receive c frame =>
    rcases a.server.receive_cases c frame with ⟨i, t, -, -, hr⟩ | ⟨f, -, hr⟩
    · simp only [step, hr]
      exact List.prefix_refl _
    · simp only [step, hr]
      exact List.prefix_refl _
  | handOver k =>
    cases hk : a.readers[k]? with
    | none =>
      simp only [step, hk]
      exact List.prefix_refl _
    | some r =>
      have hc := (conserves_handOver (h.readers r (List.mem_of_getElem? hk))).1.endings
      rcases hout : a.server.handOver r with ⟨_ | r', s'⟩ <;> rw [hout] at hc <;>
        simpa only [step, hk, hout] using hc
  | thread i w step => exact (threadStepped a.server i w step).conserves.endings
  | delayThread step => exact (conserves_delayThread h.bound step).endings
  | shutdown => exact (a.shutdown.conserves_next a.server).endings
  | elapse ms => exact List.prefix_refl _
  | release => exact List.prefix_refl _
  | connection c change => exact List.prefix_refl _
  | connect c => exact List.prefix_refl _

/-- After a shutdown has returned, a reader that goes on has its task refused. -/
theorem Sound.readers_handOver (h : a.Sound) (hreturned : a.shutdown = .returned) (k : Nat) :
    (a.step (.handOver k)).readers = a.readers.eraseIdx k := by
  cases hk : a.readers[k]? with
  | none =>
    rw [List.eraseIdx_of_length_le (List.getElem?_eq_none_iff.mp hk)]
    simp only [step, hk]
  | some r =>
    have hclosed := h.closed
    rw [hreturned] at hclosed
    have hi := h.readers r (List.mem_of_getElem? hk)
    have hnone : (a.server.handOver r).1 = none := by
      cases r with
      | refused t i => rfl
      | offered t i =>
        have he : a.server.executors[i]? = some a.server.executors[i] := List.getElem?_eq_getElem hi
        have hexecutor := (hclosed.executor i _ he).1
        rcases submit_cases he t with ⟨-, hs⟩ | ⟨hopen, -⟩ | ⟨_, _, hopen, -⟩
        · simp only [handOver, hs]
        · cases hexecutor.symm.trans hopen
        · cases hexecutor.symm.trans hopen
    rcases hout : a.server.handOver r with ⟨_ | r', s'⟩
    · simp only [step, hk, hout]
    · rw [hout] at hnone
      cases hnone

/-- Once a shutdown has returned, only readers and threads of executors can have tasks that have not
ended. -/
theorem Sound.tasks_returned (h : a.Sound) (hreturned : a.shutdown = .returned) :
    a.tasks = a.server.running ++ a.server.ended ++ a.readers.map Handing.task := by
  have hclosed := h.closed
  rw [hreturned] at hclosed
  have hqueued : a.server.queued = [] := by
    refine List.flatMap_eq_nil_iff.mpr fun e he => ?_
    obtain ⟨i, hi, rfl⟩ := List.getElem_of_mem he
    exact (hclosed.executor i _ (List.getElem?_eq_getElem hi)).2 hi
  have hparked : a.server.parked = [] := by rw [parked, hclosed.parked, List.map_nil]
  simp only [tasks, Server.tasks, hqueued, hparked, hclosed.hand, hreturned, Hand.tasks,
    Shutdown.tasks, List.nil_append, List.append_nil]

/-- No request is lost or answered twice. A request that a server takes in becomes a task. After
every run of readers, threads of executors, the thread of the delay list and a shutdown, every task
is in exactly one place and has a number of its own; one that has ended, by being run or by being
refused, has ended for good. When the shutdown has returned, no reader can hand on a task any more,
and when the readers and the threads are done every task has ended. -/
theorem tasks_end_once (registry : Registry) (config : DelayConfig) (connections : Connections)
    (moves : List Move) :
    let a := (start registry config connections).run moves
    (∀ c frame i t, frame.header.type = .object ∨ frame.header.type = .empty →
        a.server.stopping = false → a.server.taskOf c frame = .ok (i, t) →
        (a.step (.receive c frame)).arrivals = a.arrivals ++ [t]) ∧
      (a.tasks.map Task.original).Perm a.arrivals ∧
      (a.tasks.map Task.serial).Nodup ∧
      (∀ m, a.server.endings <+: (a.step m).server.endings) ∧
      (a.shutdown = .returned →
        (∀ k, (a.step (.handOver k)).readers = a.readers.eraseIdx k) ∧
        (a.readers = [] → a.server.running = [] →
          (a.server.ended.map Task.original).Perm a.arrivals)) := by
  intro a
  have h : a.Sound := sound_run registry config connections moves
  refine ⟨?_, h.perm, h.nodup, h.endings_kept, fun hreturned => ⟨h.readers_handOver hreturned, ?_⟩⟩
  · intro c frame i t htype hrunning htask
    simp only [step, receive_of_taskOf htype hrunning htask, Handing.task]
  · intro hreaders hrunning
    have hperm := h.perm
    rw [h.tasks_returned hreturned, hreaders, hrunning, List.map_nil, List.nil_append,
      List.append_nil] at hperm
    exact hperm

end Activity

end RemoteCall.Server
