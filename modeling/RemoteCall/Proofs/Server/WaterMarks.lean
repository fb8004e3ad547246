import RemoteCall.Proofs.Server.Operations

/-!
# Queues with water marks

A queue with water marks takes every task while it is open. A task that brings it to the high mark
pauses the connection that it came from; when tasks are taken and no more than the low mark are
left, every connection that was paused is read again. Between the two marks nothing changes, so
whether a connection is paused depends on the history of the queue and not on its length alone.

The history is kept beside the queue: how long each accepted task made it, and how long each taking
left it.

## Main definitions

* `Reservoir` : a queue, the connections whose gates it moves, and the history of its length.
* `WaterMarks.Pauses` : what a history says about a connection.

## Main results

* `WaterMarks.ofCapacity_toNat` : the marks that 64-bit arithmetic gives.
* `Reservoir.gates_follow_marks` : the gates, the denied connections and the history agree.
-/

namespace RemoteCall.Server

/-! ### Marks -/

namespace WaterMarks

theorem toNat_of_product? {a b c : UInt64} (h : product? a b = some c) :
    c.toNat = a.toNat * b.toNat := by
  unfold product? at h
  split at h
  · rename_i hlt
    obtain rfl := Option.some.inj h
    rw [UInt64.toNat_mul, Nat.mod_eq_of_lt hlt]
  · simp at h

theorem toNat_max (a b : UInt64) : (max a b).toNat = max a.toNat b.toNat := by
  have hmax : max a b = if a ≤ b then b else a := rfl
  rw [hmax]
  split <;> rename_i hle <;> rw [UInt64.le_iff_toNat_le] at hle <;> omega

/-- Marks that can be computed in 64 bits are the marks of the capacity. -/
theorem ofCapacity_toNat {capacity low high : UInt64}
    (h : ofCapacity? capacity = some (low, high)) :
    ofCapacity capacity.toNat = ⟨low.toNat, high.toNat⟩ := by
  simp only [ofCapacity?, Option.bind_eq_bind, Option.bind_eq_some_iff, Option.pure_def,
    Option.some.injEq, Prod.mk.injEq] at h
  obtain ⟨l, hl, k, hk, rfl, rfl⟩ := h
  have hlow := toNat_of_product? hl
  have hhigh := toNat_of_product? hk
  simp only [toNat_max] at hlow hhigh
  simp [ofCapacity, toNat_max, UInt64.toNat_div, hlow, hhigh, lowPercent, highPercent]

end WaterMarks

/-! ### Histories -/

/-- What happened to the length of a queue. -/
inductive LevelChange where
  /-- A task of this connection was accepted, and the queue has this length now. -/
  | rise (c : ConnectionId) (length : Nat)
  /-- Tasks were taken, and the queue has this length now. -/
  | fall (length : Nat)

/-- Since a taking last left no more than the low mark, a task of the connection has brought the
queue to the high mark. -/
def WaterMarks.Pauses (marks : WaterMarks) (c : ConnectionId) (history : List LevelChange) : Prop :=
  ∃ before length after, history = before ++ .rise c length :: after ∧ marks.high ≤ length ∧
    ∀ left, LevelChange.fall left ∈ after → marks.low < left

namespace WaterMarks

variable (marks : WaterMarks) (c : ConnectionId) (history : List LevelChange)

theorem not_pauses_nil : ¬marks.Pauses c [] := by
  rintro ⟨before, length, after, h, -⟩
  simp at h

/-- A task pauses its own connection when it brings the queue to the high mark. -/
theorem pauses_rise (d : ConnectionId) (length : Nat) :
    marks.Pauses c (history ++ [.rise d length]) ↔
      marks.Pauses c history ∨ d = c ∧ marks.high ≤ length := by
  constructor
  · rintro ⟨before, n, after, h, hhigh, hleft⟩
    rcases List.eq_nil_or_concat after with rfl | ⟨after', x, rfl⟩
    · obtain ⟨-, hlast⟩ := List.append_inj' h rfl
      simp only [List.cons.injEq, LevelChange.rise.injEq, and_true] at hlast
      obtain ⟨rfl, rfl⟩ := hlast
      exact Or.inr ⟨rfl, hhigh⟩
    · have hsplit : history ++ [.rise d length] = (before ++ .rise c n :: after') ++ [x] := by
        simpa using h
      obtain ⟨hhistory, -⟩ := List.append_inj' hsplit rfl
      exact Or.inl ⟨before, n, after', hhistory, hhigh,
        fun left hfall => hleft left (by simp [hfall])⟩
  · rintro (⟨before, n, after, rfl, hhigh, hleft⟩ | ⟨rfl, hhigh⟩)
    · exact ⟨before, n, after ++ [.rise d length], by simp, hhigh,
        fun left hfall => hleft left (by simpa using hfall)⟩
    · exact ⟨history, length, [], rfl, hhigh, by simp⟩

/-- A taking that leaves more than the low mark changes nothing, another one resumes everybody. -/
theorem pauses_fall (left : Nat) :
    marks.Pauses c (history ++ [.fall left]) ↔ marks.Pauses c history ∧ marks.low < left := by
  constructor
  · rintro ⟨before, n, after, h, hhigh, hleft⟩
    rcases List.eq_nil_or_concat after with rfl | ⟨after', x, rfl⟩
    · obtain ⟨-, hlast⟩ := List.append_inj' h rfl
      simp at hlast
    · have hsplit : history ++ [.fall left] = (before ++ .rise c n :: after') ++ [x] := by
        simpa using h
      obtain ⟨hhistory, hlast⟩ := List.append_inj' hsplit rfl
      obtain rfl : LevelChange.fall left = x := by simpa using hlast
      exact ⟨⟨before, n, after', hhistory, hhigh, fun m hfall => hleft m (by simp [hfall])⟩,
        hleft left (by simp)⟩
  · rintro ⟨⟨before, n, after, rfl, hhigh, hafter⟩, hlow⟩
    refine ⟨before, n, after ++ [.fall left], by simp, hhigh, fun m hfall => ?_⟩
    rcases List.mem_append.mp hfall with hold | hnew
    · exact hafter m hold
    · obtain rfl : m = left := by simpa using hnew
      exact hlow

end WaterMarks

/-! ### Signals -/

namespace Connections

/-- A change of the connections of one number, connection by connection. -/
theorem mem_modify {cs : Connections} {c : ConnectionId} {f : Connection → Connection}
    {k : Connection} : k ∈ cs.modify c f ↔ ∃ j ∈ cs, k = if j.id = c then f j else j := by
  simp only [modify, List.mem_map, eq_comm]

/-- Resuming connections, connection by connection. -/
theorem mem_signalAll_resume {cs : Connections} {ids : List ConnectionId} {k : Connection} :
    k ∈ cs.signalAll (ids.map .resume) ↔
      ∃ j ∈ cs, k = if j.id ∈ ids then j.resume else j := by
  induction ids generalizing cs with
  | nil => simp [signalAll]
  | cons c ids ih =>
    have hcons : cs.signalAll ((c :: ids).map .resume) =
        (cs.modify c Connection.resume).signalAll (ids.map .resume) := rfl
    rw [hcons, ih]
    constructor
    · rintro ⟨i, hi, rfl⟩
      obtain ⟨j, hj, rfl⟩ := mem_modify.mp hi
      refine ⟨j, hj, ?_⟩
      by_cases hc : j.id = c <;> by_cases hids : c ∈ ids <;> simp [hc, hids, Connection.resume]
    · rintro ⟨j, hj, rfl⟩
      refine ⟨_, mem_modify.mpr ⟨j, hj, rfl⟩, ?_⟩
      by_cases hc : j.id = c <;> by_cases hids : c ∈ ids <;> simp [hc, hids, Connection.resume]

end Connections

/-! ### Reservoirs -/

/-- Something that is done to a queue. -/
inductive QueueMove where
  | offer (t : Task)
  | take
  | drain
  | close

/-- A queue, the connections that its signals reach and nothing else touches, and what has happened
to its length. -/
structure Reservoir where
  queue : TaskQueue
  connections : Connections
  history : List LevelChange

namespace Reservoir

/-- An empty queue. -/
def start (capacity : Nat) (policy : OverflowPolicy) (connections : Connections) : Reservoir :=
  { queue := .new capacity policy, connections, history := [] }

/-- Makes a move, and carries out its signals. -/
def step (r : Reservoir) : QueueMove → Reservoir
  | .offer t =>
    match r.queue.offer t with
    | (.accepted, queue, signals) =>
      { queue
        connections := r.connections.signalAll signals
        history := r.history ++ [.rise t.connection queue.size] }
    | (_, queue, signals) => { r with queue, connections := r.connections.signalAll signals }
  | .take =>
    let (_, queue, signals) := r.queue.take
    { queue
      connections := r.connections.signalAll signals
      history := r.history ++ [.fall queue.size] }
  | .drain =>
    let (_, queue, signals) := r.queue.drain
    { queue
      connections := r.connections.signalAll signals
      history := r.history ++ [.fall queue.size] }
  | .close => { r with queue := r.queue.close }

/-- Makes moves one after another. -/
def run (r : Reservoir) (moves : List QueueMove) : Reservoir :=
  moves.foldl step r

/-- The queue has these marks; the connections that it denies are those that its history pauses and
those whose gates are shut; and an empty queue denies nobody. -/
structure Level (marks : WaterMarks) (denied : List ConnectionId) (r : Reservoir) : Prop where
  policy : r.queue.policy = .waterMark marks denied
  nodup : denied.Nodup
  denies : ∀ c, c ∈ denied ↔ marks.Pauses c r.history
  gate : ∀ k ∈ r.connections, k.gateOpen = false ↔ k.id ∈ denied
  empty : r.queue.tasks = [] → denied = []

variable {marks : WaterMarks} {denied : List ConnectionId} {r : Reservoir}

/-- A queue with water marks accepts a task unless it is closed. -/
theorem Level.offer_cases (h : Level marks denied r) (t : Task) :
    (r.queue.closed = true ∧ r.queue.offer t = (.closed t, r.queue, [])) ∨
      ∃ policy signals, r.queue.closed = false ∧
        r.queue.policy.onEnqueue r.queue.size t.connection = (.accept, policy, signals) ∧
        r.queue.offer t =
          (.accepted, { r.queue with tasks := r.queue.tasks ++ [t], policy }, signals) := by
  rcases r.queue.offer_cases t with hclosed | ⟨-, hreject, -⟩ | haccepted
  · exact Or.inl hclosed
  · obtain ⟨capacity, hdelay⟩ := OverflowPolicy.eq_delay_of_reject hreject
    simp [h.policy] at hdelay
  · exact Or.inr haccepted

theorem mem_deny {c d : ConnectionId} :
    c ∈ (if d ∈ denied then denied else denied ++ [d]) ↔ c ∈ denied ∨ d = c := by
  by_cases hold : d ∈ denied
  · simp only [if_pos hold, iff_self_or]
    rintro rfl
    exact hold
  · simp [if_neg hold, eq_comm]

/-- A connection is denied once. -/
theorem nodup_deny {d : ConnectionId} (h : denied.Nodup) :
    (if d ∈ denied then denied else denied ++ [d]).Nodup := by
  by_cases hold : d ∈ denied
  · rwa [if_pos hold]
  · rw [if_neg hold, List.nodup_append]
    refine ⟨h, by simp, ?_⟩
    rintro c hc e he rfl
    exact hold (List.mem_singleton.mp he ▸ hc)

/-- An accepted task that reaches the high mark pauses its connection. -/
theorem Level.offer (h : Level marks denied r) (t : Task) :
    ∃ denied', Level marks denied' (r.step (.offer t)) := by
  rcases h.offer_cases t with ⟨-, hs⟩ | ⟨policy, signals, -, haccept, hs⟩
  · simp only [step, hs]
    exact ⟨denied, h⟩
  · have hsize : (⟨r.queue.tasks ++ [t], r.queue.closed, r.queue.capacity, policy⟩ :
        TaskQueue).size = r.queue.size + 1 := by
      simp [TaskQueue.size]
    simp only [step, hs, hsize]
    by_cases hhigh : marks.high ≤ r.queue.size + 1
    · simp only [h.policy, OverflowPolicy.onEnqueue, if_pos hhigh, Prod.mk.injEq, true_and]
        at haccept
      obtain ⟨rfl, rfl⟩ := haccept
      refine ⟨_, rfl, nodup_deny h.nodup, fun c => ?_, fun k hk => ?_, by simp⟩
      · rw [mem_deny, marks.pauses_rise, h.denies c]
        simp [hhigh]
      · rw [mem_deny]
        obtain ⟨j, hj, rfl⟩ := Connections.mem_modify.mp hk
        by_cases hc : j.id = t.connection
        · simp [hc, Connection.pause]
        · simp [hc, h.gate j hj, Ne.symm hc]
    · simp only [h.policy, OverflowPolicy.onEnqueue, if_neg hhigh, Prod.mk.injEq, true_and]
        at haccept
      obtain ⟨rfl, rfl⟩ := haccept
      refine ⟨denied, rfl, h.nodup, fun c => ?_, h.gate, by simp⟩
      rw [marks.pauses_rise]
      simp [hhigh, h.denies c]

/-- A taking that leaves no more than the low mark resumes all that was denied. -/
theorem Level.fall (h : Level marks denied r) {tasks : List Task} {policy : OverflowPolicy}
    {signals : List GateSignal}
    (hdequeue : r.queue.policy.onDequeue tasks.length = (policy, signals)) :
    ∃ denied', Level marks denied'
      { queue := { r.queue with tasks, policy }
        connections := r.connections.signalAll signals
        history := r.history ++ [.fall tasks.length] } := by
  by_cases hlow : marks.low < tasks.length
  · simp only [h.policy, OverflowPolicy.onDequeue, if_pos hlow, Prod.mk.injEq] at hdequeue
    obtain ⟨rfl, rfl⟩ := hdequeue
    refine ⟨denied, rfl, h.nodup, fun c => ?_, h.gate, ?_⟩
    · rw [marks.pauses_fall]
      simp [hlow, h.denies c]
    · rintro rfl
      simp at hlow
  · simp only [h.policy, OverflowPolicy.onDequeue, if_neg hlow, Prod.mk.injEq] at hdequeue
    obtain ⟨rfl, rfl⟩ := hdequeue
    refine ⟨[], rfl, List.nodup_nil, fun c => ?_, fun k hk => ?_, fun _ => rfl⟩
    · rw [marks.pauses_fall]
      simp [hlow]
    · obtain ⟨j, hj, rfl⟩ := Connections.mem_signalAll_resume.mp hk
      by_cases hdenied : j.id ∈ denied
      · simp [hdenied, Connection.resume]
      · simp [hdenied, h.gate j hj]

theorem Level.take (h : Level marks denied r) :
    ∃ denied', Level marks denied' (r.step .take) := by
  rcases htasks : r.queue.tasks with - | ⟨t, tasks⟩
  · -- Nothing is taken off an empty queue, whose gates are open already.
    have htake : r.queue.take = (if r.queue.closed then .closed else .nothing, r.queue, []) := by
      simp only [TaskQueue.take, htasks]
    have hsize : r.queue.size = 0 := by simp [TaskQueue.size, htasks]
    simp only [step, htake]
    refine ⟨denied, h.policy, h.nodup, fun c => ?_, h.gate, h.empty⟩
    rw [marks.pauses_fall, ← h.denies c, h.empty htasks, hsize]
    simp
  · rcases hdequeue : r.queue.policy.onDequeue tasks.length with ⟨policy, signals⟩
    have htake : r.queue.take = (.task t, { r.queue with tasks, policy }, signals) := by
      simp only [TaskQueue.take, htasks, hdequeue]
    simp only [step, htake]
    exact h.fall hdequeue

theorem Level.drain (h : Level marks denied r) :
    ∃ denied', Level marks denied' (r.step .drain) := by
  rcases hdequeue : r.queue.policy.onDequeue 0 with ⟨policy, signals⟩
  have hdrain : r.queue.drain = (r.queue.tasks, { r.queue with tasks := [], policy }, signals) := by
    simp only [TaskQueue.drain, hdequeue]
  simp only [step, hdrain]
  have hnone : r.queue.policy.onDequeue ([] : List Task).length = (policy, signals) := hdequeue
  exact h.fall hnone

/-- Every move keeps the gates as the history has them. -/
theorem Level.step (h : Level marks denied r) (m : QueueMove) :
    ∃ denied', Level marks denied' (r.step m) := by
  rcases m with t | - | - | -
  · exact h.offer t
  · exact h.take
  · exact h.drain
  · exact ⟨denied, h.policy, h.nodup, h.denies, h.gate, h.empty⟩

theorem Level.run (h : Level marks denied r) (moves : List QueueMove) :
    ∃ denied', Level marks denied' (r.run moves) := by
  induction moves generalizing r denied with
  | nil => exact ⟨denied, h⟩
  | cons m moves ih =>
    obtain ⟨denied', hstep⟩ := h.step m
    exact ih hstep

theorem level_start (capacity : Nat) {connections : Connections}
    (hopen : ∀ k ∈ connections, k.gateOpen = true) :
    Level marks [] (start capacity (.waterMark marks []) connections) where
  policy := rfl
  nodup := List.nodup_nil
  denies c := by simp [start, marks.not_pauses_nil c]
  gate k hk := by simp [hopen k hk]
  empty _ := rfl

/-- A queue is closed once it was told so, and for good. -/
theorem closed_run (moves : List QueueMove) (r : Reservoir) :
    (r.run moves).queue.closed = true ↔ r.queue.closed = true ∨ .close ∈ moves := by
  induction moves generalizing r with
  | nil => simp [run]
  | cons m moves ih =>
    have hstep : (r.step m).queue.closed = true ↔ r.queue.closed = true ∨ .close = m := by
      rcases m with t | - | - | -
      · rcases r.queue.offer_cases t with ⟨-, hs⟩ | ⟨-, -, hs⟩ | ⟨policy, signals, -, -, hs⟩ <;>
          simp [step, hs]
      · rcases htasks : r.queue.tasks with - | ⟨t, tasks⟩ <;>
          simp [step, TaskQueue.take, htasks]
      · simp [step, TaskQueue.drain]
      · simp [step, TaskQueue.close]
    have hrun : r.run (m :: moves) = (r.step m).run moves := rfl
    rw [hrun, ih, hstep, List.mem_cons, or_assoc]

/-- A queue with the marks of a capacity loses no task and leaves no connection paused. Whatever was
offered to it, taken off it and drained, in any order, it accepts every task until it is closed and
gives it back then. A connection is paused exactly if a task of it has brought the queue to the high
mark since a taking last left no more than the low mark; these are the connections that the queue
denies, each once; and while the queue is empty all connections are read. -/
theorem gates_follow_marks {capacity low high : UInt64}
    (hmarks : WaterMarks.ofCapacity? capacity = some (low, high)) (queueCapacity : Nat)
    {connections : Connections} (hopen : ∀ k ∈ connections, k.gateOpen = true)
    (moves : List QueueMove) :
    let marks : WaterMarks := ⟨low.toNat, high.toNat⟩
    let r := (start queueCapacity (.ofMode .waterMark capacity.toNat) connections).run moves
    (∀ t, (.close ∉ moves → (r.queue.offer t).1 = .accepted) ∧
        (.close ∈ moves → r.queue.offer t = (.closed t, r.queue, []))) ∧
      (∀ k ∈ r.connections, k.gateOpen = false ↔ marks.Pauses k.id r.history) ∧
      r.queue.policy.denied.Nodup ∧
      (∀ c, c ∈ r.queue.policy.denied ↔ marks.Pauses c r.history) ∧
      (r.queue.tasks = [] → ∀ k ∈ r.connections, k.gateOpen = true) := by
  intro marks r
  have hstart : Level marks [] (start queueCapacity (.ofMode .waterMark capacity.toNat)
      connections) := by
    have hlevel : Level marks [] (start queueCapacity (.waterMark marks []) connections) :=
      level_start queueCapacity hopen
    have hofCapacity : WaterMarks.ofCapacity capacity.toNat = marks :=
      WaterMarks.ofCapacity_toNat hmarks
    rwa [← hofCapacity] at hlevel ⊢
  obtain ⟨denied, h⟩ : ∃ denied, Level marks denied r := hstart.run moves
  have hclosed : r.queue.closed = true ↔ .close ∈ moves := by
    refine (closed_run moves _).trans ?_
    simp [start, TaskQueue.new]
  have hdenied : r.queue.policy.denied = denied := by rw [h.policy, OverflowPolicy.denied]
  refine ⟨fun t => ?_, fun k hk => (h.gate k hk).trans (h.denies k.id),
    by rw [hdenied]; exact h.nodup, by rw [hdenied]; exact h.denies, fun hempty k hk => ?_⟩
  · rcases h.offer_cases t with ⟨htold, hs⟩ | ⟨policy, signals, hopened, -, hs⟩
    · exact ⟨fun hnot => absurd (hclosed.mp htold) hnot, fun _ => hs⟩
    · refine ⟨fun _ => by rw [hs], fun htold => ?_⟩
      simp [hclosed.mpr htold] at hopened
  · have hgate := h.gate k hk
    rw [h.empty hempty] at hgate
    simpa using hgate

/-- A request that comes on this connection. -/
def requestOn (c : ConnectionId) : Task :=
  .new ⟨1, 1, 1, .empty⟩ (.ofSignature 1 1 (.ofName "echo") (some .echo) .standard) .empty c

/-- A queue of four tasks has the marks two and three. The third task pauses its connection, and the
taking, which leaves two, resumes it; the next two tasks pause theirs, which stay paused. -/
theorem gates_follow_marks_between :
    let marks : WaterMarks := ⟨2, 3⟩
    let moves : List QueueMove := [.offer (requestOn 1), .offer (requestOn 1),
      .offer (requestOn 1), .take, .offer (requestOn 2), .offer (requestOn 3)]
    let r := (start 4 (.ofMode .waterMark 4)
      [.new 1 (.v4 0 0) .standard, .new 2 (.v4 0 0) .standard,
        .new 3 (.v4 0 0) .standard]).run moves
    WaterMarks.ofCapacity? 4 = some (2, 3) ∧ .close ∉ moves ∧
      ¬marks.Pauses 1 r.history ∧ marks.Pauses 2 r.history ∧ marks.Pauses 3 r.history ∧
      (r.queue.offer (requestOn 1)).1 = .accepted := by
  intro marks moves r
  have hmarks : WaterMarks.ofCapacity? 4 = some (2, 3) := by decide
  have hopen : ∀ k ∈ [Connection.new 1 (.v4 0 0) .standard, .new 2 (.v4 0 0) .standard,
      .new 3 (.v4 0 0) .standard], k.gateOpen = true := by simp [Connection.new]
  have hclose : .close ∉ moves := by simp [moves]
  obtain ⟨hoffer, -, -, hdenies, -⟩ := gates_follow_marks hmarks 4 hopen moves
  have hdenied : r.queue.policy.denied = [2, 3] := rfl
  have hpauses (c : ConnectionId) : c ∈ r.queue.policy.denied ↔ marks.Pauses c r.history :=
    hdenies c
  simp only [hdenied] at hpauses
  exact ⟨hmarks, hclose, fun hpaused => by simpa using (hpauses 1).mpr hpaused,
    (hpauses 2).mp (by simp), (hpauses 3).mp (by simp), (hoffer (requestOn 1)).1 hclose⟩

end Reservoir

end RemoteCall.Server
