import RemoteCall.Proofs.Server.DelayBudget

/-!
# Read gates and the delay list

Parking a task shuts the read gate of its connection, and leaving the list opens it: when the task
is accepted, when it is given up, when its executor is closed, and when the list is closed while it
is parked. One way out does not. The thread may have taken a task into its hand before the list was
closed; when its executor rejects the task once more, the list is closed to it, and the task is
answered behind a shut gate.

## Main definitions

* `Delaying.Undisturbed` : the runs in which nobody but the delay list moves gates.
* `TurnedAway` : a task came back to a closed list.
* `Delaying.Guarded` : why a gate is shut.

## Main results

* `Delaying.gates_after_close` : what a closing leaves behind.
* `Delaying.gate_left_shut` : a gate that it leaves shut.
-/

namespace RemoteCall.Server

/-- The task was rejected again when the list was closed, and answered that the server stops. -/
def TurnedAway (dealings : List Dealing) : Prop :=
  [.offered .rejected, .ended (some stoppingFault)] <:+: dealings

namespace Delaying

variable {config : DelayConfig} {d d' : Delaying}

/-- The move is not one by which anybody but the delay list moves a gate. Delayed tasks were refused
by full queues, whose executors never move gates. -/
def Spares (d : Delaying) : DelayMove → Prop
  | .add _ i => d.server.Delays i
  | .thread _ | .close => True
  | .other s =>
    (∀ c, s.gate c = d.server.gate c) ∧ ∀ i, d.server.Delays i → s.Delays i

/-- The states of a delay list with this configuration that alone moves gates. -/
inductive Undisturbed (config : DelayConfig) : Delaying → Prop
  | start {s : Server} (hs : s.delayed = .new config) : Undisturbed config (start s)
  | step {d : Delaying} (h : Undisturbed config d) {m : DelayMove} (hm : d.Allows m)
      (hspares : d.Spares m) : Undisturbed config (d.step m)

theorem Undisturbed.reached (h : Undisturbed config d) : Reached config d := by
  induction h with
  | start hs => exact .start hs
  | step h hm hspares ih => exact ih.step hm

/-- There is a reason why the gate of the connection may be shut: the list has a task of it, or
turned one away, or never parked one. -/
def Excused (d : Delaying) (c : ConnectionId) : Prop :=
  (∃ k ∈ d.held, k.task.connection = c) ∨
    (∃ t ∈ d.given, t.connection = c ∧ TurnedAway (d.dealings t.serial)) ∨
    ∀ p nowMs, .parked p nowMs ∈ d.log → p.task.connection ≠ c

/-- Tasks are delayed for executors that refuse tasks when their queue is full, and shut gates are
excused. -/
structure Guarded (d : Delaying) : Prop where
  delays : ∀ k ∈ d.held, d.server.Delays k.executor
  excused : ∀ c, d.server.gate c = some false → d.Excused c

/-- A move that leaves other connections alone: the list has no task of them less and has parked
none more, and their gates are not shut. -/
structure Elsewhere (d d' : Delaying) (c : ConnectionId) : Prop where
  held : ∀ k ∈ d.held, k.task.connection ≠ c →
    ∃ l ∈ d'.held, l.task.connection = k.task.connection
  given : ∀ t ∈ d.given, t ∈ d'.given
  log : d.log <+: d'.log
  parked : ∀ p nowMs, .parked p nowMs ∈ d'.log → .parked p nowMs ∈ d.log ∨ p.task.connection = c
  gate : ∀ e, e ≠ c → d'.server.gate e = some false → d.server.gate e = some false
  delays : ∀ i, d.server.Delays i → d'.server.Delays i

/-- What excuses the gate of another connection still does. -/
theorem Elsewhere.excused {c e : ConnectionId} (h : d.Elsewhere d' c) (hne : e ≠ c)
    (he : d.Excused e) : d'.Excused e := by
  rcases he with ⟨k, hk, rfl⟩ | ⟨t, ht, htc, hturned⟩ | hnever
  · exact Or.inl (h.held k hk hne)
  · obtain ⟨log, hlog⟩ := h.log
    refine Or.inr (Or.inl ⟨t, h.given t ht, htc, ?_⟩)
    rw [dealings_append hlog.symm]
    exact hturned.trans (List.prefix_append _ _).isInfix
  · refine Or.inr (Or.inr fun p nowMs hp heq => ?_)
    rcases h.parked p nowMs hp with hold | hc
    · exact hnever p nowMs hold heq
    · exact hne (heq.symm.trans hc)

theorem Elsewhere.trans {d'' : Delaying} {c : ConnectionId} (h : d.Elsewhere d' c)
    (h' : d'.Elsewhere d'' c) : d.Elsewhere d'' c where
  held k hk hne := by
    obtain ⟨l, hl, heq⟩ := h.held k hk hne
    obtain ⟨m, hm, heq'⟩ := h'.held l hl (heq ▸ hne)
    exact ⟨m, hm, heq'.trans heq⟩
  given t ht := h'.given t (h.given t ht)
  log := h.log.trans h'.log
  parked p nowMs hp := (h'.parked p nowMs hp).elim (h.parked p nowMs) Or.inr
  gate e hne hshut := h.gate e hne (h'.gate e hne hshut)
  delays i hi := h'.delays i (h.delays i hi)

/-- A move that leaves the connections alone but for one. -/
theorem Guarded.move (h : d.Guarded) {c : ConnectionId} (helse : d.Elsewhere d' c)
    (hdelays : ∀ k ∈ d'.held, k ∈ d.held ∨ d'.server.Delays k.executor)
    (hown : d'.server.gate c = some false → d'.Excused c) : d'.Guarded where
  delays k hk := (hdelays k hk).elim (fun hold => helse.delays _ (h.delays k hold)) id
  excused e hshut := by
    by_cases hne : e = c
    · subst hne
      exact hown hshut
    · exact helse.excused hne (h.excused e (helse.gate e hne hshut))

/-- A move that leaves all connections alone. -/
theorem Guarded.keep (h : d.Guarded) (helse : ∀ c, d.Elsewhere d' c)
    (hdelays : ∀ k ∈ d'.held, k ∈ d.held ∨ d'.server.Delays k.executor) : d'.Guarded where
  delays k hk := (hdelays k hk).elim (fun hold => (helse 0).delays _ (h.delays k hold)) id
  excused e hshut := by
    have hne : e ≠ e + 1 := (Nat.succ_ne_self e).symm
    exact (helse (e + 1)).excused hne (h.excused e ((helse (e + 1)).gate e hne hshut))

/-- A move by which a task leaves the list and the gate of its connection is opened. -/
theorem Guarded.opened (h : d.Guarded) {k : Held} {rest : List Held}
    (hheld : d.held.Perm (k :: rest)) (hheld' : d'.held.Perm rest) (hgiven : d'.given = d.given)
    (hlog : d.log <+: d'.log)
    (hparked : ∀ p nowMs, .parked p nowMs ∈ d'.log → .parked p nowMs ∈ d.log)
    (hgate : ∀ e, d'.server.gate e =
      if e = k.task.connection then (d.server.gate e).map fun _ => true else d.server.gate e)
    (hdelays : ∀ i, d.server.Delays i → d'.server.Delays i) : d'.Guarded := by
  refine h.move (c := k.task.connection)
    ⟨fun l hl hne => ⟨l, ?_, rfl⟩, fun t ht => hgiven ▸ ht, hlog,
      fun p nowMs hp => Or.inl (hparked p nowMs hp), fun e hne => ?_, hdelays⟩
    (fun l hl => Or.inl (hheld.mem_iff.mpr (List.mem_cons_of_mem k (hheld'.mem_iff.mp hl))))
    fun hshut => ?_
  · refine hheld'.mem_iff.mpr ((List.mem_cons.mp (hheld.mem_iff.mp hl)).resolve_left ?_)
    rintro rfl
    exact hne rfl
  · rw [hgate, if_neg hne]
    exact id
  · rw [hgate, if_pos rfl] at hshut
    simp at hshut

/-! ### Moves -/

/-- Delaying a task shuts the gate of its connection while the list has the task, opens it, or finds
the list closed. -/
theorem advance_delay_gates (d : Delaying) (t : Task) (i : ExecutorIndex) :
    d.Elsewhere (d.advance (d.server.delay t i) (d.server.delayEvents t i)) t.connection ∧
      (∀ k ∈ (d.advance (d.server.delay t i) (d.server.delayEvents t i)).held,
        k ∈ d.held ∨ k.executor = i) ∧
      ((d.advance (d.server.delay t i) (d.server.delayEvents t i)).server.gate t.connection =
          some false →
        (∃ k ∈ (d.advance (d.server.delay t i) (d.server.delayEvents t i)).held,
          k.task.connection = t.connection) ∨
        d.server.gate t.connection = some false ∧
          (∀ c, d.Elsewhere (d.advance (d.server.delay t i) (d.server.delayEvents t i)) c) ∧
          (d.advance (d.server.delay t i) (d.server.delayEvents t i)).log =
            d.log ++ [.ended (.refused t stoppingFault)]) := by
  rcases d.advance_delay_cases t i with ⟨-, hs⟩ | ⟨-, -, hs⟩ | ⟨-, -, hs⟩
  · rw [hs]
    refine ⟨⟨fun k hk _ => ⟨k, hk, rfl⟩, fun _ => id, List.prefix_append _ _, fun p nowMs hp => ?_,
      fun e hne => ?_, fun _ => id⟩, fun k hk => Or.inl hk, fun hshut => ?_⟩
    · exact Or.inl (by simpa using hp)
    · rw [gate_resume, if_neg hne, gate_refuse]
      exact id
    · rw [gate_resume, if_pos rfl, gate_refuse] at hshut
      simp at hshut
  · rw [hs]
    have helse (c : ConnectionId) : d.Elsewhere
        { d with
          server := d.server.refuse t stoppingFault
          log := d.log ++ [.ended (.refused t stoppingFault)] } c := by
      refine ⟨fun k hk _ => ⟨k, hk, rfl⟩, fun _ => id, List.prefix_append _ _,
        fun p nowMs hp => Or.inl (by simpa using hp), fun e _ => ?_, fun _ => id⟩
      rw [gate_refuse]
      exact id
    refine ⟨helse _, fun k hk => Or.inl hk, fun hshut => Or.inr ⟨?_, helse, rfl⟩⟩
    rwa [gate_refuse] at hshut
  · rw [hs]
    generalize hp : d.server.delayed.parking d.server.nowMs t i = p
    have hconnection : p.task.connection = t.connection := by rw [← hp]; rfl
    have hperm := ((insertParked_perm p d.server.delayed.parked).map
      (Parked.heldAt .waiting)).append_right d.server.delayed.hand.held |>.append_right
      (d.sweep.left.map (Parked.heldAt .found))
    refine ⟨⟨fun k hk _ => ⟨k, hperm.mem_iff.mpr (List.mem_cons_of_mem _ hk), rfl⟩, fun _ => id,
      List.prefix_append _ _, fun q nowMs hq => ?_, fun e hne => ?_, fun _ => id⟩, fun k hk => ?_,
      fun _ => Or.inl ⟨p.heldAt .waiting, hperm.mem_iff.mpr List.mem_cons_self, hconnection⟩⟩
    · simp only [List.mem_append, List.mem_singleton, DelayEvent.parked.injEq] at hq
      rcases hq with hq | ⟨rfl, -⟩
      · exact Or.inl hq
      · exact Or.inr hconnection
    · rw [gate_pause, if_neg hne]
      exact id
    · rcases List.mem_cons.mp (hperm.mem_iff.mp hk) with rfl | hold
      · refine Or.inr ?_
        rw [← hp]
        rfl
      · exact Or.inl hold

theorem Guarded.add (h : d.Guarded) {t : Task} {i : ExecutorIndex} (hi : d.server.Delays i) :
    (d.step (.add t i)).Guarded := by
  obtain ⟨helse, hdelays, hown⟩ :=
    advance_delay_gates { d with given := d.given ++ [t] } t i
  have hgiven : d.Elsewhere { d with given := d.given ++ [t] } t.connection :=
    ⟨fun k hk _ => ⟨k, hk, rfl⟩, fun _ hu => List.mem_append_left _ hu, List.prefix_refl _,
      fun _ _ hp => Or.inl hp, fun _ _ => id, fun _ => id⟩
  refine h.move (hgiven.trans helse) (fun k hk => (hdelays k hk).imp id fun heq => ?_)
    fun hshut => ?_
  · rw [heq]
    exact helse.delays i hi
  · rcases hown hshut with hheld | ⟨hold, hsame, -⟩
    · exact Or.inl hheld
    · -- The list is closed to a new task, which leaves its gate as it was.
      have hgiven' : ({ d with given := d.given ++ [t] } : Delaying).Excused t.connection :=
        (h.excused _ hold).imp id (Or.imp (fun ⟨u, hu, hturned⟩ =>
          ⟨u, List.mem_append_left _ hu, hturned⟩) id)
      exact (hsame (t.connection + 1)).excused (Nat.succ_ne_self _).symm hgiven'

theorem Guarded.wake (h : d.Guarded) : (d.step (.thread .wake)).Guarded := by
  rcases d.wake_cases with hs | ⟨p, rest, hhand, hparked, -, -, hs⟩
  · rw [hs]
    exact h
  · rw [hs]
    have hmem (k : Held) : k ∈ Delaying.held { d with
        server := { d.server with delayed.parked := rest, delayed.hand := .due p }
        log := d.log ++ [.woken p d.server.nowMs] } ↔ k ∈ d.held := by
      simp only [held, Hand.held, hhand, hparked, List.map_cons, List.mem_append, List.mem_cons,
        List.not_mem_nil]
      tauto
    exact h.keep (fun c => ⟨fun k hk _ => ⟨k, (hmem k).mpr hk, rfl⟩, fun _ => id,
      List.prefix_append _ _, fun q nowMs hq => Or.inl (by simpa using hq), fun _ _ => id,
      fun _ => id⟩) fun k hk => Or.inl ((hmem k).mp hk)

/-- Executors that refuse tasks when their queue is full move no gates. -/
theorem gate_accept_eq {s : Server} {e e' : Executor} {i : ExecutorIndex} {queued : Nat} {t : Task}
    {policy : OverflowPolicy} {signals : List GateSignal} (hi : s.Delays i)
    (he : s.executors[i]? = some e)
    (henqueue : e.queue.policy.onEnqueue queued t.connection = (.accept, policy, signals))
    (c : ConnectionId) : ((s.setExecutor i e').signalAll signals).gate c = s.gate c := by
  obtain ⟨f, capacity, hf, hdelay⟩ := hi
  rcases OverflowPolicy.onEnqueue_cases henqueue with ⟨-, rfl⟩ | ⟨marks, denied, hmarks, -⟩
  · rfl
  · obtain rfl : e = f := Option.some.inj (he.symm.trans hf)
    simp [hmarks] at hdelay

/-- A task that is offered leaves its gate open, unless the thread keeps it. -/
theorem Guarded.resubmit (h : d.Guarded) (hsound : d.Sound config) :
    (d.step (.thread .resubmit)).Guarded := by
  rcases resubmit_cases hsound.due_bound with hs | ⟨p, hhand, hs⟩
  · rw [hs]
    exact h
  · have hheld := held_of_due hhand
    have hdelays : d.server.emptyHand.Delays p.executor :=
      h.delays _ (hheld.mem_iff.mpr List.mem_cons_self)
    generalize d.step (.thread .resubmit) = d' at hs ⊢
    cases hs with
    | closed =>
      refine h.opened hheld (held_of_empty rfl) rfl (List.prefix_append _ _)
        (fun q nowMs hq => by simpa using hq) (fun e => ?_) fun _ => id
      rw [gate_resume, gate_refuse]
      rfl
    | rejected =>
      have hheld' := held_of_refused (d := { d with
        server := { d.server.emptyHand with delayed.hand := .refused p.task p.executor }
        log := d.log ++ [.offered p .rejected] }) rfl
      refine h.keep (fun c => ⟨fun k hk _ => ?_, fun _ => id, List.prefix_append _ _,
        fun q nowMs hq => Or.inl (by simpa using hq), fun _ _ => id, fun _ => id⟩) fun k hk => ?_
      · rcases List.mem_cons.mp (hheld.mem_iff.mp hk) with rfl | hk
        · exact ⟨_, hheld'.mem_iff.mpr List.mem_cons_self, rfl⟩
        · exact ⟨k, hheld'.mem_iff.mpr (List.mem_cons_of_mem _ hk), rfl⟩
      · rcases List.mem_cons.mp (hheld'.mem_iff.mp hk) with rfl | hk
        · exact Or.inr hdelays
        · exact Or.inl (hheld.mem_iff.mpr (List.mem_cons_of_mem _ hk))
    | accepted he hopen henqueue =>
      refine h.opened hheld (held_of_empty rfl) rfl (List.prefix_append _ _)
        (fun q nowMs hq => by simpa using hq) (fun e => ?_) fun i hi => ?_
      · rw [gate_resume, gate_accept_eq (s := d.server.emptyHand) hdelays he henqueue]
        rfl
      · exact (conserves_accept he hopen henqueue).delays hi

/-- A refused task that is delayed again is excused by being parked or turned away, or its gate is
opened. -/
theorem Guarded.repark (h : d.Guarded) (hsound : d.Sound config) :
    (d.step (.thread .repark)).Guarded := by
  rcases d.repark_cases with hs | ⟨t, i, hhand, hs⟩
  · rw [hs]
    exact h
  · have hheld := held_of_refused hhand
    have hmem := hheld.mem_iff.mpr List.mem_cons_self
    have hi := h.delays _ hmem
    have hempty := held_of_empty (d := { d with server.delayed.hand := .empty }) rfl
    obtain ⟨helse, hdelays, hown⟩ :=
      advance_delay_gates { d with server.delayed.hand := .empty } t i
    have hemptied : d.Elsewhere { d with server.delayed.hand := .empty } t.connection := by
      refine ⟨fun k hk hne => ⟨k, hempty.mem_iff.mpr ?_, rfl⟩, fun _ => id, List.prefix_refl _,
        fun _ _ hp => Or.inl hp, fun _ _ => id, fun _ => id⟩
      refine (List.mem_cons.mp (hheld.mem_iff.mp hk)).resolve_left ?_
      rintro rfl
      exact hne rfl
    rw [hs]
    refine h.move (hemptied.trans helse) (fun k hk => ?_) fun hshut => ?_
    · rcases hdelays k hk with hold | rfl
      · exact Or.inl (hheld.mem_iff.mpr (List.mem_cons_of_mem _ (hempty.mem_iff.mp hold)))
      · exact Or.inr (helse.delays _ hi)
    · rcases hown hshut with hkept | ⟨-, -, hlog⟩
      · exact Or.inl hkept
      · obtain ⟨u, hu, htask, n, -, -, hdealings⟩ := hsound.underway _ hmem
        obtain ⟨hserial, hconnection⟩ : t.serial = u.serial ∧ t.connection = u.connection := by
          have hcongr := And.intro (congrArg Task.serial htask) (congrArg Task.connection htask)
          exact hcongr
        refine Or.inr (Or.inl ⟨u, hu, hconnection.symm, rounds n ++ [.parked], [], ?_⟩)
        rw [dealings_append hlog]
        have hbefore : dealings { d with server.delayed.hand := .empty } u.serial =
            rounds n ++ Place.dealings .refused := hdealings
        simp [hbefore, hserial, Place.dealings]

/-- A closing opens the gates of those that it answers. -/
theorem Guarded.close (h : d.Guarded) (hsound : d.Sound config) : (d.step .close).Guarded := by
  rcases close_cases hsound.begun with hs | ⟨hsweep, hs⟩ | ⟨p, left, hsweep, hhand, hs⟩ |
    ⟨hsweep, -, hs⟩
  · rw [hs]
    exact h
  · rw [hs]
    refine h.keep (fun c => ⟨fun k hk _ => ?_, fun _ => id, List.prefix_append _ _,
      fun q nowMs hq => Or.inl (by simpa [beginClosing] using hq), fun _ _ => id, fun _ => id⟩)
      fun k hk => ?_
    · rw [held_of_notBegun hsweep] at hk
      rw [held_beginClosing]
      rcases List.mem_append.mp hk with hk | hk
      · obtain ⟨p, hp, rfl⟩ := List.mem_map.mp hk
        exact ⟨p.heldAt .found, List.mem_append_right _ (List.mem_map_of_mem hp), rfl⟩
      · exact ⟨k, List.mem_append_left _ hk, rfl⟩
    · rw [held_beginClosing] at hk
      rcases List.mem_append.mp hk with hk | hk
      · exact Or.inl (held_of_notBegun hsweep ▸ List.mem_append_right _ hk)
      · obtain ⟨p, hp, rfl⟩ := List.mem_map.mp hk
        exact Or.inr (h.delays (p.heldAt .waiting) (heldAt_mem_held hp))
  · rw [hs]
    refine h.opened (held_of_answering hhand hsweep) (held_of_empty hhand) rfl
      (List.prefix_append _ _) (fun q nowMs hq => by simpa using hq) (fun e => ?_) fun _ => id
    rw [gate_refuse, gate_resume]
    rfl
  · rw [hs]
    have hheld := held_returned hsweep
    exact h.keep (fun c => ⟨fun k hk _ => ⟨k, hheld ▸ hk, rfl⟩, fun _ => id, List.prefix_refl _,
      fun _ _ => Or.inl, fun _ _ => id, fun _ => id⟩) fun k hk => Or.inl (hheld ▸ hk)

/-- Every move of a list that alone moves gates keeps shut gates excused. -/
theorem Guarded.step (h : d.Guarded) (hsound : d.Sound config) {m : DelayMove} (hm : d.Allows m)
    (hspares : d.Spares m) : (d.step m).Guarded := by
  rcases m with ⟨t, i⟩ | ⟨- | - | -⟩ | - | s
  · exact h.add hspares
  · exact h.wake
  · exact h.resubmit hsound
  · exact h.repark hsound
  · exact h.close hsound
  · obtain ⟨hgate, hdelays⟩ := hspares
    have hheld : (d.step (.other s)).held = d.held := by
      simp only [held, Delaying.step, hm.1]
    exact h.keep (fun c => ⟨fun k hk _ => ⟨k, hheld ▸ hk, rfl⟩, fun _ => id, List.prefix_refl _,
      fun _ _ => Or.inl, fun e _ hshut => (hgate e).symm.trans hshut, hdelays⟩)
      fun k hk => Or.inl (hheld ▸ hk)

/-- Shut gates are excused in every run in which the list alone moves gates. -/
theorem Undisturbed.guarded (h : Undisturbed config d) : d.Guarded := by
  induction h with
  | start hs =>
    refine ⟨?_, fun c _ => Or.inr (Or.inr (by rintro _ _ ⟨⟩))⟩
    simp [held, Delaying.start, hs, DelayList.new, Hand.held, Sweep.left]
  | step h hm hspares ih => exact ih.step h.reached.sound hm hspares

/-! ### What a closing leaves -/

theorem Sound.held_returned (h : d.Sound config) (hreturned : d.sweep = .returned) :
    d.held = [] := by
  have hclosed := h.closed
  rw [hreturned] at hclosed
  obtain ⟨-, hparked, hhand⟩ := hclosed
  simp [held, hparked, hhand, hreturned, Hand.held, Sweep.left]

/-- When the closing of a delay list has returned, every task that was given to the list was
accepted by its executor and not answered, or answered once. The gate of a connection of which a
task was parked is open, unless a task of this connection was turned away: it was in the hand of the
thread when the list was closed, and its executor rejected it. -/
theorem gates_after_close (h : Undisturbed config d) (hreturned : d.sweep = .returned) :
    (∀ t ∈ d.given, (.accepted ∈ d.offersOf t.serial ∧ d.endsOf t.serial = []) ∨
        ∃ fault, d.endsOf t.serial = [some fault]) ∧
      ∀ p nowMs, .parked p nowMs ∈ d.log → d.server.gate p.task.connection = some false →
        ∃ t ∈ d.given, t.connection = p.task.connection ∧ TurnedAway (d.dealings t.serial) := by
  have hsound := h.reached.sound
  have hnone := hsound.held_returned hreturned
  refine ⟨fun t ht => ?_, fun p nowMs hp hshut => ?_⟩
  · have hover := hsound.settled t ht (by simp [hnone])
    simp only [offersOf, endsOf]
    generalize d.dealings t.serial = dealings at hover ⊢
    cases hover with
    | accepted hn => simp [List.filterMap_cons, Dealing.verdict?, Dealing.end?]
    | stopped hn => simp [List.filterMap_cons, Dealing.end?]
    | spent => simp [Dealing.end?]
    | late hn => simp [Dealing.end?]
    | swept hn => simp [List.filterMap_cons, Dealing.end?]
  · rcases h.guarded.excused _ hshut with ⟨k, hk, -⟩ | hturned | hnever
    · simp [hnone] at hk
    · exact hturned
    · exact absurd rfl (hnever p nowMs hp)

/-- A task is parked while its queue is full, and its time comes. -/
def parkedAndDue : Delaying :=
  let parked := (besideFullQueue ⟨100, 3⟩).step (.add (delayedRequest 1) 0)
  parked.step (.other { parked.server with nowMs := 100 })

/-- The thread takes the task into its hand; then the list is closed, the executor rejects the task,
and the closing returns. -/
def raced : Delaying :=
  ((((parkedAndDue.step (.thread .wake)).step .close).step (.thread .resubmit)).step
    (.thread .repark)).step .close

theorem undisturbed_raced : Undisturbed ⟨100, 3⟩ raced := by
  have hdue : Undisturbed ⟨100, 3⟩ parkedAndDue :=
    ((Undisturbed.start rfl).step (m := .add (delayedRequest 1) 0) ⟨by decide, by rintro _ ⟨⟩⟩
      ⟨_, 1, rfl, rfl⟩).step (m := .other _) ⟨rfl, rfl⟩ ⟨fun _ => rfl, fun _ => id⟩
  exact ((((hdue.step (m := .thread .wake) trivial trivial).step (m := .close) trivial
    trivial).step (m := .thread .resubmit) trivial trivial).step (m := .thread .repark) trivial
    trivial).step (m := .close) trivial trivial

theorem parked_raced : ∃ p nowMs, .parked p nowMs ∈ raced.log ∧ p.task.connection = 1 :=
  ⟨_, _, List.mem_cons_self, rfl⟩

theorem gate_raced : raced.server.gate 1 = some false := by
  decide +kernel

/-- The gate is shut because the task was turned away. -/
theorem gates_after_close_raced :
    Undisturbed ⟨100, 3⟩ raced ∧ raced.sweep = .returned ∧ raced.server.gate 1 = some false ∧
      ∃ t ∈ raced.given, t.connection = 1 ∧ TurnedAway (raced.dealings t.serial) := by
  obtain ⟨p, nowMs, hp, hconnection⟩ := parked_raced
  have hreturned : raced.sweep = .returned := rfl
  have hshut : raced.server.gate p.task.connection = some false := by
    rw [hconnection]
    exact gate_raced
  have hturned := (gates_after_close undisturbed_raced hreturned).2 p nowMs hp hshut
  rw [hconnection] at hturned
  exact ⟨undisturbed_raced, hreturned, gate_raced, hturned⟩

/-- So a closing does not open the gates of all connections of which tasks were parked. -/
theorem gate_left_shut :
    ¬∀ (config : DelayConfig) (d : Delaying), Undisturbed config d → d.sweep = .returned →
      ∀ p nowMs, .parked p nowMs ∈ d.log → d.server.gate p.task.connection = some true := by
  intro hall
  obtain ⟨p, nowMs, hp, hconnection⟩ := parked_raced
  have hopen := hall _ raced undisturbed_raced rfl p nowMs hp
  rw [hconnection, gate_raced] at hopen
  simp at hopen

end Delaying

end RemoteCall.Server
