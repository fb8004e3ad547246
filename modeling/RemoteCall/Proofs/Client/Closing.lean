import RemoteCall.Proofs.Client.Moves

/-!
# Pools that are shut down

A pool is marked, its reconnects are ended and the connections on its ring are closed one by one,
while connections that were being opened for it go on to enter the ring. Each of them looks after it
has entered whether the pool was marked, so a connection that is in use on the ring of a marked pool
is still to be closed: by the shutdown, which lists the ring after the mark is set, or by the task
that has just put it there. When none of these tasks is left, none of the connections on the ring is
in use, and only an attach that begins later can bring another one there, for as long as it takes to
look at the mark.

## Main definitions

* `Task.recheck?` : the connection that a task may have to close again.
* `Task.Guards` : the task is still to close a connection on the ring of a pool.
* `Activity.Guarded` : connections in use on the ring of a marked pool have such a task.
* `Activity.Settled` : a marked pool after its shutdown.

## Main results

* `Activity.guarded_run` : the connections are guarded after every run.
* `Activity.closed_rings_stay_closed` : what remains on the ring of a pool that was shut down.
-/

namespace RemoteCall.Client

/-! ### Tasks that close connections -/

namespace Closing

/-- The shutdown is still to close this connection if it is on the ring. -/
def Covers (l : LinkId) : Closing → Prop
  | marked | listing => True
  | sweeping left => l ∈ left
  | asking | ended => False

/-- The pool was marked by this shutdown, which is not over. -/
def isUnderway : Closing → Bool
  | marked | listing | sweeping _ => true
  | asking | ended => false

theorem Covers.isUnderway {l : LinkId} {s : Closing} (h : s.Covers l) : s.isUnderway = true := by
  cases s with
  | asking => exact h.elim
  | ended => exact h.elim
  | _ => rfl

end Closing

/-- The task opens connections of the pool. -/
def Job.opens (p : PoolId) : Job → Bool
  | attach q _ => q == p
  | reopen r => r.pool == p
  | _ => false

namespace Task

/-- The connection that the task has put on the ring of a pool and closes if the pool was shut
down. -/
def recheck? : Task → Option (PoolId × LinkId)
  | attach p _ (.rechecking l) => some (p, l)
  | reopen r (.rechecking l) => some (r.pool, l)
  | _ => none

/-- The task is still to close the connection on the ring of the pool. -/
def Guards (t : Task) (p : PoolId) (l : LinkId) : Prop :=
  t.recheck? = some (p, l) ∨ ∃ s, t.closing? = some (p, s) ∧ s.Covers l

/-- The task is in the middle of shutting the pool down. -/
def isClosing (t : Task) (p : PoolId) : Bool :=
  t.closing?.any fun c => c.1 == p && c.2.isUnderway

/-- The task is in the middle of opening a connection of the pool. -/
def isOpening (t : Task) (p : PoolId) : Bool :=
  t.job.opens p && !t.hasEnded

/-- A task that looks at the mark again has not ended. -/
theorem isOpening_of_recheck? {t : Task} {p : PoolId} {l : LinkId}
    (h : t.recheck? = some (p, l)) : t.isOpening p = true := by
  unfold recheck? at h
  split at h <;> cases h <;> simp [isOpening, Task.job, Job.opens, hasEnded]

theorem isClosing_eq_true_iff {t : Task} {p : PoolId} :
    t.isClosing p = true ↔ ∃ s, t.closing? = some (p, s) ∧ s.isUnderway = true := by
  rw [isClosing, Option.any_eq_true]
  simp

/-- The task is in the middle of opening a connection of the pool, and will put it on the ring; a
placeholder is not in use. -/
def Holds (c : Client) : Task → Prop
  | attach _ _ (.opened l) => l < c.links.length
  | attach _ _ (.refused l) => l < c.links.length ∧ c.isActive l = false
  | reopen _ (.opened l) => l < c.links.length
  | _ => True

variable {c c' : Client} {t : Task} {p : PoolId} {l : LinkId}

theorem Holds.steady (h : t.Holds c) (hc : Steady c c') : t.Holds c' := by
  unfold Holds at h ⊢
  split
  · exact Nat.lt_of_lt_of_le h hc.length
  · obtain ⟨hl, hactive⟩ := h
    refine ⟨Nat.lt_of_lt_of_le hl hc.length, ?_⟩
    cases hc' : c'.isActive _ with
    | false => rfl
    | true => exact (hc.isActive _ hl hc').symm.trans hactive
  · exact Nat.lt_of_lt_of_le h hc.length
  · trivial

theorem holds_of_isFresh (h : Activity.IsFresh t) : t.Holds c := by
  unfold Activity.IsFresh at h
  split at h <;> trivial

theorem holds_of_isNew {a : Activity} (h : a.IsNew t) : t.Holds c := by
  unfold Activity.IsNew at h
  split at h <;> trivial

/-- A task that another one begins does not shut a pool down. -/
theorem not_isClosing_of_isFresh (h : Activity.IsFresh t) : ¬t.isClosing p = true := by
  unfold Activity.IsFresh at h
  split at h <;> first | exact h.elim | exact Bool.false_ne_true

/-- Of the tasks that another one begins only attaches open connections. -/
theorem job_of_isOpening_of_isFresh (h : Activity.IsFresh t) (hopen : t.isOpening p = true) :
    ∃ slot, t.job = .attach p slot := by
  unfold Activity.IsFresh at h
  split at h
  · rename_i q slot
    have hq : (q == p && true) = true := hopen
    rw [Bool.and_true, beq_iff_eq] at hq
    subst hq
    exact ⟨slot, rfl⟩
  · exact (Bool.false_ne_true hopen).elim
  · exact (Bool.false_ne_true hopen).elim
  · exact h.elim

/-- What begins from outside is not in the middle of shutting a pool down. -/
theorem not_isClosing_of_isNew {a : Activity} (h : a.IsNew t) : ¬t.isClosing p = true := by
  unfold Activity.IsNew at h
  split at h <;> first | exact h.elim | simp [isClosing, closing?, Closing.isUnderway]

/-- What begins from outside opens no connection for a pool that was shut down. -/
theorem not_isOpening_of_isNew {a : Activity} (h : a.IsNew t)
    (hshut : a.client.isShutdown p = true) : ¬t.isOpening p = true := by
  unfold Activity.IsNew at h
  split at h <;> try exact Bool.false_ne_true
  · rename_i r
    intro hopen
    have hr : r.pool = p := by simpa [isOpening, Task.job, Job.opens, hasEnded] using hopen
    rw [hr, hshut] at h
    cases h.2
  · exact h.elim

/-- A task that shuts a pool down opens no connection. -/
theorem of_closing {s : Closing} (h : t.closing? = some (p, s)) {a : Activity} (luck : Bool) :
    t.recheck? = none ∧ (a.act luck t).task.Holds c := by
  cases t with
  | closePool q s => exact ⟨rfl, trivial⟩
  | connect service location s => cases s <;> exact ⟨rfl, trivial⟩
  | shutdown s => cases s <;> exact ⟨rfl, trivial⟩
  | _ => cases h

theorem not_guards_of_none (hrecheck : t.recheck? = none) (hclosing : t.closing? = none) :
    ¬t.Guards p l := by
  rintro (h | ⟨s, h, -⟩)
  · rw [hrecheck] at h
    cases h
  · rw [hclosing] at h
    cases h

end Task

/-- A shutdown goes on to cover the connections on the ring until it has closed them. -/
theorem Closing.covers_next {c : Client} {p : PoolId} {l : LinkId} {s : Closing} (h : s.Covers l)
    (hl : l ∈ (c.ring p).owners) (hactive : (s.next c p).2.isActive l = true) :
    (s.next c p).1.Covers l := by
  cases s with
  | asking => exact h.elim
  | marked => trivial
  | listing => exact hl
  | sweeping left =>
    cases left with
    | nil => cases h
    | cons m left =>
      rcases List.mem_cons.mp h with rfl | h
      · exact (Bool.false_ne_true ((c.isActive_close l).symm.trans hactive)).elim
      · exact h
  | ended => exact h.elim

namespace Activity

variable {a : Activity} {c : Client} {t : Task} {k : TaskId} {e : Effect} {p : PoolId}
  {l : LinkId} {begun : List Task}

/-! ### Guarded connections -/

/-- A connection that is in use on the ring of a pool that was shut down is still to be closed. -/
structure Guarded (a : Activity) : Prop where
  known : ∀ p, ∀ l ∈ (a.client.ring p).owners, l < a.client.links.length
  held : ∀ t ∈ a.tasks, t.Holds a.client
  guarded : ∀ p l, a.client.isShutdown p = true → l ∈ (a.client.ring p).owners →
    a.client.isActive l = true → ∃ t ∈ a.tasks, t.Guards p l

namespace Guarded

/-- A task makes a step. What it has put on a ring or marked it guards, and what it no longer guards
is not in use. -/
theorem perform (h : a.Guarded) (ht : a.tasks[k]? = some t) (hsteady : Steady a.client e.client)
    (hknown : ∀ p, ∀ l ∈ (e.client.ring p).owners,
      l ∈ (a.client.ring p).owners ∨ l < a.client.links.length)
    (hheld : e.task.Holds e.client) (hbegun : ∀ u ∈ e.begun, IsFresh u)
    (hguard : ∀ p l, e.client.isShutdown p = true → l ∈ (e.client.ring p).owners →
      e.client.isActive l = true → e.task.Guards p l ∨
        a.client.isShutdown p = true ∧ l ∈ (a.client.ring p).owners ∧ ¬t.Guards p l) :
    (a.perform k e).Guarded where
  known p l hl := by
    have hlt : l < a.client.links.length := (hknown p l hl).elim (h.known p l) id
    exact Nat.lt_of_lt_of_le hlt hsteady.length
  held u hu := by
    rcases mem_perform hu with hu | rfl | hu
    · exact (h.held u hu).steady hsteady
    · exact hheld
    · exact Task.holds_of_isFresh (hbegun u hu)
  guarded p l hshut hl hactive := by
    rcases hguard p l hshut hl hactive with hself | ⟨hshut', hl', hnot⟩
    · exact ⟨e.task, task_mem_perform ht, hself⟩
    · have hactive' := hsteady.isActive l (h.known p l hl') hactive
      obtain ⟨u, hu, hguards⟩ := h.guarded p l hshut' hl' hactive'
      have hne : u ≠ t := fun hut => hnot (hut ▸ hguards)
      exact ⟨u, mem_perform_of_ne ht hu hne, hguards⟩

/-- A task makes a step that changes no ring and marks no pool. -/
theorem perform_still (h : a.Guarded) (ht : a.tasks[k]? = some t)
    (hstill : Still a.client e.client)
    (hheld : e.task.Holds e.client) (hbegun : ∀ u ∈ e.begun, IsFresh u)
    (hkeep : ∀ p l, t.Guards p l → a.client.isShutdown p = true → l ∈ (a.client.ring p).owners →
      e.client.isActive l = true → e.task.Guards p l) : (a.perform k e).Guarded := by
  refine h.perform ht hstill.toSteady (fun p l hl => Or.inl (hstill.ring p ▸ hl)) hheld hbegun
    fun p l hshut hl hactive => ?_
  rw [hstill.isShutdown] at hshut
  rw [hstill.ring] at hl
  by_cases hguards : t.Guards p l
  · exact Or.inl (hkeep p l hguards hshut hl hactive)
  · exact Or.inr ⟨hshut, hl, hguards⟩

/-- A task that guards nothing makes such a step. -/
theorem perform_unguarding (h : a.Guarded) (ht : a.tasks[k]? = some t)
    (hrecheck : t.recheck? = none) (hclosing : t.closing? = none)
    (hstill : Still a.client e.client) (hheld : e.task.Holds e.client)
    (hbegun : ∀ u ∈ e.begun, IsFresh u) : (a.perform k e).Guarded :=
  h.perform_still ht hstill hheld hbegun fun _ _ hguards =>
    (Task.not_guards_of_none hrecheck hclosing hguards).elim

/-- Something happens to the client from outside. -/
theorem outside (h : a.Guarded) (hstill : Still a.client c) (hbegun : ∀ u ∈ begun, a.IsNew u) :
    Guarded { a with client := c, tasks := a.tasks ++ begun } where
  known p l hl := Nat.lt_of_lt_of_le (h.known p l (hstill.ring p ▸ hl)) hstill.length
  held u hu := by
    rcases List.mem_append.mp hu with hu | hu
    · exact (h.held u hu).steady hstill.toSteady
    · exact Task.holds_of_isNew (hbegun u hu)
  guarded p l hshut hl hactive := by
    have hl' : l ∈ (a.client.ring p).owners := hstill.ring p ▸ hl
    have hactive' := hstill.isActive l (h.known p l hl') hactive
    obtain ⟨u, hu, hguards⟩ := h.guarded p l (hstill.isShutdown p ▸ hshut) hl' hactive'
    exact ⟨u, List.mem_append_left _ hu, hguards⟩

/-! ### Each step keeps them guarded -/

theorem attach {slot : Slot} {s : Attaching} (h : a.Guarded)
    (ht : a.tasks[k]? = some (.attach p slot s)) (connects : Bool) :
    (a.perform k (a.attachNext p slot connects s)).Guarded := by
  have hheld := h.held _ (List.mem_of_getElem? ht)
  cases s with
  | connecting =>
    rw [attachNext]
    split
    · obtain ⟨link, -, hopened⟩ := a.client.opened_eq p slot
      rw [hopened]
      refine h.perform_unguarding ht rfl rfl (a.client.still_addLink link) ?_
        (List.forall_mem_nil _)
      exact a.client.lt_length_addLink link
    · split
      · exact h.perform_unguarding ht rfl rfl (Calm.refl _).toStill trivial (List.forall_mem_nil _)
      · refine h.perform_unguarding ht rfl rfl (a.client.still_addLink _)
          ⟨a.client.lt_length_addLink _, ?_⟩ (List.forall_mem_nil _)
        exact congrArg (Option.any Link.isActive) (a.client.link?_addLink_self (.placeholder slot))
  | opened l =>
    refine h.perform ht (a.client.steady_putOnRing p l) (fun q m hm => ?_) trivial
      (List.forall_mem_nil _) fun q m hshut hm _ => ?_
    · refine (mem_owners_putOnRing hm).imp_right ?_
      rintro ⟨-, rfl⟩
      exact hheld
    · rcases mem_owners_putOnRing hm with hm | ⟨rfl, rfl⟩
      · refine Or.inr ⟨?_, hm, Task.not_guards_of_none rfl rfl⟩
        rwa [attachNext, isShutdown_putOnRing] at hshut
      · exact Or.inl (Or.inl rfl)
  | refused l =>
    obtain ⟨hl, hinactive⟩ := hheld
    refine h.perform ht (a.client.steady_putOnRing p l) (fun q m hm => ?_) trivial
      (by simp [attachNext, IsFresh]) fun q m hshut hm hactive => ?_
    · refine (mem_owners_putOnRing hm).imp_right ?_
      rintro ⟨-, rfl⟩
      exact hl
    · rcases mem_owners_putOnRing hm with hm | ⟨rfl, rfl⟩
      · refine Or.inr ⟨?_, hm, Task.not_guards_of_none rfl rfl⟩
        rwa [attachNext, isShutdown_putOnRing] at hshut
      · have hactive' := (a.client.steady_putOnRing q m).isActive m hl hactive
        exact (Bool.false_ne_true (hinactive.symm.trans hactive')).elim
  | rechecking l =>
    refine h.perform_still ht (a.client.calm_recheck p l).toStill trivial (List.forall_mem_nil _) ?_
    rintro q m (hrecheck | ⟨s, hclosing, -⟩) hshut - hactive
    · cases hrecheck
      rw [attachNext, isActive_recheck hshut] at hactive
      cases hactive
    · cases hclosing
  | ended l =>
    exact h.perform_unguarding ht rfl rfl (Calm.refl _).toStill trivial (List.forall_mem_nil _)

theorem reopen {r : Reconnect} {s : Reopening} (h : a.Guarded)
    (ht : a.tasks[k]? = some (.reopen r s)) (connects : Bool) :
    (a.perform k (a.reopenNext r connects s)).Guarded := by
  have hheld := h.held _ (List.mem_of_getElem? ht)
  have hsteady := steady_withPositions a r.old
  cases s with
  | connecting =>
    rw [reopenNext]
    split
    · split
      · obtain ⟨link, -, hopened⟩ := a.client.opened_eq r.pool _
        rw [hopened]
        refine h.perform_unguarding ht rfl rfl (a.client.still_addLink link) ?_
          (List.forall_mem_nil _)
        exact a.client.lt_length_addLink link
      · exact h.perform_unguarding ht rfl rfl (Calm.refl _).toStill trivial (List.forall_mem_nil _)
    · refine h.perform ht (hsteady.trans (steady_notReplaced _ r)) (fun q m hm => ?_) trivial
        (List.forall_mem_nil _) fun q m hshut hm _ => ?_
      · have hm' := mem_owners_notReplaced hm
        exact Or.inl (ring_withPositions a r.old q ▸ hm')
      · have hm' := mem_owners_notReplaced hm
        rw [ring_withPositions] at hm'
        rw [isShutdown_notReplaced, isShutdown_withPositions] at hshut
        exact Or.inr ⟨hshut, hm', Task.not_guards_of_none rfl rfl⟩
  | opened l =>
    refine h.perform ht (hsteady.trans (steady_replaced _ r l)) (fun q m hm => ?_) trivial
      (List.forall_mem_nil _) fun q m hshut hm _ => ?_
    · rcases mem_owners_replaced hm with hm | ⟨-, rfl⟩
      · exact Or.inl (ring_withPositions a r.old q ▸ hm)
      · exact Or.inr hheld
    · rcases mem_owners_replaced hm with hm | ⟨rfl, rfl⟩
      · rw [ring_withPositions] at hm
        rw [reopenNext, isShutdown_replaced, isShutdown_withPositions] at hshut
        exact Or.inr ⟨hshut, hm, Task.not_guards_of_none rfl rfl⟩
      · exact Or.inl (Or.inl rfl)
  | rechecking l =>
    refine h.perform_still ht (a.client.calm_recheck r.pool l).toStill trivial
      (List.forall_mem_nil _) ?_
    rintro q m (hrecheck | ⟨s, hclosing, -⟩) hshut - hactive
    · cases hrecheck
      rw [reopenNext, isActive_recheck hshut] at hactive
      cases hactive
    · cases hclosing
  | ended =>
    exact h.perform_unguarding ht rfl rfl (Calm.refl _).toStill trivial (List.forall_mem_nil _)

/-- A task that shuts a pool down goes on. -/
theorem closing {s : Closing} (h : a.Guarded) (ht : a.tasks[k]? = some t)
    (hclosing : t.closing? = some (p, s)) (luck : Bool) :
    (a.perform k (a.act luck t)).Guarded := by
  have hbegun := a.isFresh_begun luck t
  obtain ⟨hrecheck, hheld⟩ := Task.of_closing hclosing luck
  have hcovered {q : PoolId} {m : LinkId} (hguards : t.Guards q m) : q = p ∧ s.Covers m := by
    rcases hguards with hr | ⟨s', hs, hcovers⟩
    · cases hrecheck.symm.trans hr
    · cases hclosing.symm.trans hs
      exact ⟨rfl, hcovers⟩
  by_cases hended : s = .ended
  · subst hended
    refine h.perform_still ht ?_ hheld hbegun fun q m hguards => (hcovered hguards).2.elim
    rw [a.client_act_closed luck hclosing]
    exact (Calm.refl _).toStill
  obtain ⟨hclient, hnext, -⟩ := a.act_closing luck hclosing hended
  by_cases hmarks : s = .asking ∧ a.client.isShutdown p = false
  · -- the step sets the mark; from now on the shutdown covers whatever is on the ring
    obtain ⟨rfl, hshut⟩ := hmarks
    have hmark : Closing.next a.client p .asking = (.marked, a.client.mark p) := by
      rw [Closing.next, hshut]
      rfl
    rw [hmark] at hclient hnext
    refine h.perform ht (a.steady_act luck t) (fun q m hm => Or.inl ?_) hheld hbegun
      fun q m hshut' hm _ => ?_
    · rwa [hclient, ring_mark] at hm
    · rw [hclient, ring_mark] at hm
      by_cases hqp : q = p
      · subst hqp
        exact Or.inl (Or.inr ⟨_, hnext, trivial⟩)
      · rw [hclient, isShutdown_mark_of_ne hqp] at hshut'
        exact Or.inr ⟨hshut', hm, fun hguards => hqp (hcovered hguards).1⟩
  · have hcalm : Calm a.client (a.act luck t).client := by
      rw [hclient]
      refine Closing.calm_next a.client p s fun hs => ?_
      cases hshut : a.client.isShutdown p with
      | true => rfl
      | false => exact (hmarks ⟨hs, hshut⟩).elim
    refine h.perform_still ht hcalm.toStill hheld hbegun fun q m hguards _ hm hactive => ?_
    obtain ⟨rfl, hcovers⟩ := hcovered hguards
    exact Or.inr ⟨_, hnext, Closing.covers_next hcovers hm (hclient ▸ hactive)⟩

/-- Every step of a task keeps the connections guarded. -/
theorem act (h : a.Guarded) (ht : a.tasks[k]? = some t) (luck : Bool) :
    (a.perform k (a.act luck t)).Guarded := by
  have hbegun := a.isFresh_begun luck t
  cases hclosing : t.closing? with
  | some closing => exact h.closing ht hclosing luck
  | none =>
    have hstill (hstill : t.IsStill a.client) (hrecheck : t.recheck? = none)
        (hheld : (a.act luck t).task.Holds (a.act luck t).client) :
        (a.perform k (a.act luck t)).Guarded :=
      h.perform_unguarding ht hrecheck hclosing (a.still_act luck hstill) hheld hbegun
    cases t with
    | attach p slot s => exact h.attach ht luck
    | plan p l s => exact hstill (by rintro _ ⟨⟩) rfl (by cases s <;> trivial)
    | reopen r s => exact h.reopen ht luck
    | describe p s =>
      refine hstill (by rintro _ ⟨⟩) rfl ?_
      rw [Activity.act]
      cases s <;> rw [describeNext]
      · split <;> trivial
      · split <;> trivial
      · trivial
    | fanOut f ks ended =>
      refine hstill (by rintro _ ⟨⟩) rfl ?_
      rw [Activity.act, fanOutNext]
      split <;> trivial
    | closePool p s => cases hclosing
    | connect service location s =>
      exact hstill (fun q hq => by rw [hclosing] at hq; cases hq) rfl trivial
    | invoke p m parameter s => exact hstill (by rintro _ ⟨⟩) rfl trivial
    | shutdown s => exact hstill (fun q hq => by rw [hclosing] at hq; cases hq) rfl trivial

theorem start (config : ClientConfig) (serializers : Serializers) (directory : Option Directory)
    (worker : UInt64) : (start config serializers directory worker).Guarded where
  known p l hl := by cases hl
  held t ht := by cases ht
  guarded p l hshut := by cases hshut

/-- Every move keeps the connections guarded. -/
theorem stepped {b : Activity} (hs : Stepped a b) (h : a.Guarded) : b.Guarded := by
  cases hs with
  | task ht luck => exact h.act ht luck
  | abort ht hshut =>
    exact h.perform_unguarding ht rfl rfl (Calm.refl _).toStill trivial (List.forall_mem_nil _)
  | outside hcalm hbegun => exact h.outside hcalm.toStill hbegun

end Guarded

/-- The connections are guarded after every run. -/
theorem guarded_run (h : a.Guarded) (moves : List Move) : (a.run moves).Guarded :=
  run_induction (fun _ _ => Guarded.stepped) h moves

/-! ### After a shutdown -/

/-- A pool that was shut down stays so: whoever begins to shut it down again sees the mark. -/
theorem isClosing_of_act {luck : Bool} (hshut : a.client.isShutdown p = true)
    (h : (a.act luck t).task.isClosing p = true) : t.isClosing p = true := by
  obtain ⟨s', hnext, hunderway⟩ := Task.isClosing_eq_true_iff.mp h
  by_cases hs : ∀ q s, t.closing? = some (q, s) → s = .ended
  · rcases a.closing?_act luck hs hnext with rfl | rfl <;> cases hunderway
  · obtain ⟨q, s, hclosing, hended⟩ : ∃ q s, t.closing? = some (q, s) ∧ s ≠ .ended := by
      simpa using hs
    have hkept := (a.act_closing luck hclosing hended).2.1
    cases hkept.symm.trans hnext
    refine Task.isClosing_eq_true_iff.mpr ⟨s, hclosing, ?_⟩
    cases s with
    | asking =>
      rw [Closing.next, if_pos hshut] at hunderway
      cases hunderway
    | ended => exact (hended rfl).elim
    | _ => rfl

theorem isOpening_of_act {luck : Bool} (h : (a.act luck t).task.isOpening p = true) :
    t.isOpening p = true := by
  cases hended : t.hasEnded with
  | true => rwa [a.task_act_of_hasEnded luck hended] at h
  | false =>
    rw [Task.isOpening, job_act] at h
    rw [Task.isOpening, hended]
    exact Bool.and_eq_true_iff.mpr ⟨(Bool.and_eq_true_iff.mp h).1, rfl⟩

/-- A pool was shut down and nobody is in the middle of it; among the tasks from the first `n` on
there may be attaches for it. -/
structure Settled (a : Activity) (p : PoolId) (n : TaskId) : Prop where
  marked : a.client.isShutdown p = true
  closed : ∀ t ∈ a.tasks, ¬t.isClosing p = true
  later : n ≤ a.tasks.length
  opening : ∀ k t, a.tasks[k]? = some t → t.isOpening p = true →
    n ≤ k ∧ ∃ slot, t.job = .attach p slot

namespace Settled

variable {n : TaskId}

theorem perform (h : a.Settled p n) (ht : a.tasks[k]? = some t) (hsteady : Steady a.client e.client)
    (hjob : e.task.job = t.job)
    (hclosing : e.task.isClosing p = true → t.isClosing p = true)
    (hopening : e.task.isOpening p = true → t.isOpening p = true)
    (hbegun : ∀ u ∈ e.begun, IsFresh u) : (a.perform k e).Settled p n where
  marked := hsteady.marked p h.marked
  closed u hu hunderway := by
    rcases mem_perform hu with hu | rfl | hu
    · exact h.closed u hu hunderway
    · exact h.closed t (List.mem_of_getElem? ht) (hclosing hunderway)
    · exact Task.not_isClosing_of_isFresh (hbegun u hu) hunderway
  later := Nat.le_trans h.later (a.length_le_perform k e)
  opening i u hu hopen := by
    rcases getElem?_perform hu with ⟨rfl, rfl⟩ | hu | ⟨hi, hu⟩
    · have ht' := h.opening i t ht (hopening hopen)
      rwa [hjob]
    · exact h.opening i u hu hopen
    · exact ⟨Nat.le_trans h.later hi, Task.job_of_isOpening_of_isFresh (hbegun u hu) hopen⟩

theorem stepped {b : Activity} (hs : Stepped a b) (h : a.Settled p n) : b.Settled p n := by
  cases hs with
  | task ht luck =>
    exact h.perform ht (a.steady_act luck _) (a.job_act luck _) (isClosing_of_act h.marked)
      isOpening_of_act (a.isFresh_begun luck _)
  | abort ht hshut =>
    exact h.perform ht (Calm.refl _).toSteady rfl (fun hunderway => by cases hunderway)
      (fun hopen => by simp [Task.isOpening, Task.hasEnded] at hopen) (List.forall_mem_nil _)
  | outside hcalm hbegun =>
    refine ⟨hcalm.marked p h.marked, fun u hu => ?_,
      Nat.le_trans h.later (length_le_stepped (.outside hcalm hbegun)), fun i u hu hopen => ?_⟩
    · rcases List.mem_append.mp hu with hu | hu
      · exact h.closed u hu
      · exact Task.not_isClosing_of_isNew (hbegun u hu)
    · rcases getElem?_begun hu with hu | hu
      · exact h.opening i u hu hopen
      · exact (Task.not_isOpening_of_isNew (hbegun u hu) h.marked hopen).elim

end Settled

/-- Whatever is in use on the ring was put there by an attach that looks at the mark next. -/
theorem Settled.attach_of_isActive {n : TaskId} (h : a.Settled p n) (hguarded : a.Guarded)
    (hl : l ∈ (a.client.ring p).owners) (hactive : a.client.isActive l = true) :
    ∃ k ≥ n, ∃ slot, a.tasks[k]? = some (.attach p slot (.rechecking l)) := by
  obtain ⟨t, ht, hguards⟩ := hguarded.guarded p l h.marked hl hactive
  obtain ⟨k, hk⟩ := List.mem_iff_getElem?.mp ht
  rcases hguards with hrecheck | ⟨s, hs, hcovers⟩
  · obtain ⟨hkn, slot, hjob⟩ := h.opening k t hk (Task.isOpening_of_recheck? hrecheck)
    obtain ⟨s, rfl⟩ := Task.job_eq_attach hjob
    cases s with
    | rechecking m =>
      cases hrecheck
      exact ⟨k, hkn, slot, hk⟩
    | _ => cases hrecheck
  · have hunderway := Task.isClosing_eq_true_iff.mpr ⟨s, hs, hcovers.isUnderway⟩
    exact (h.closed t ht hunderway).elim

/-- A pool that was shut down when nothing that opens connections for it is underway. -/
theorem settled_of_idle (hshut : a.client.isShutdown p = true)
    (hclosing : ∀ t ∈ a.tasks, t.isClosing p = false)
    (hopening : ∀ t ∈ a.tasks, t.isOpening p = false) : a.Settled p a.tasks.length where
  marked := hshut
  closed t ht hunderway := Bool.false_ne_true ((hclosing t ht).symm.trans hunderway)
  later := Nat.le_refl _
  opening _ t ht hopen :=
    (Bool.false_ne_true ((hopening t (List.mem_of_getElem? ht)).symm.trans hopen)).elim

/-- None of the connections on its ring is in use. -/
theorem Settled.isActive_eq_false (h : a.Settled p a.tasks.length) (hguarded : a.Guarded)
    (hl : l ∈ (a.client.ring p).owners) : a.client.isActive l = false := by
  cases hactive : a.client.isActive l with
  | false => rfl
  | true =>
    obtain ⟨k, hk, slot, ht⟩ := h.attach_of_isActive hguarded hl hactive
    exact (Nat.not_lt.mpr hk (List.getElem?_eq_some_iff.mp ht).1).elim

/-- A connection that is not in use never is again. -/
theorem isActive_run (a : Activity) (later : List Move) (hl : l < a.client.links.length)
    (h : a.client.isActive l = false) : (a.run later).client.isActive l = false := by
  have hkept : Steady a.client (a.run later).client :=
    run_induction (P := fun b => Steady a.client b.client)
      (fun b b' hs hb => hb.trans (steady_stepped hs)) (Calm.refl _).toSteady later
  cases hactive : (a.run later).client.isActive l with
  | false => rfl
  | true => exact (hkept.isActive l hl hactive).symm.trans h

/-- When a pool was shut down and nothing that opens connections for it is underway, no connection
on its ring is in use, and none of them comes back into use. A connection that is in use on the ring
later was put there by an attach that begins later, and is closed by the next step of this attach.
Reconnects that wait may be left; they end when their wait is over. -/
theorem closed_rings_stay_closed (config : ClientConfig) (serializers : Serializers)
    (directory : Option Directory) (worker : UInt64) (moves : List Move) (p : PoolId) :
    let a := (start config serializers directory worker).run moves
    a.client.isShutdown p = true → (∀ t ∈ a.tasks, t.isClosing p = false) →
      (∀ t ∈ a.tasks, t.isOpening p = false) →
      (∀ l ∈ (a.client.ring p).owners, a.client.isActive l = false) ∧
      ∀ later, (∀ l ∈ (a.client.ring p).owners, (a.run later).client.isActive l = false) ∧
        ∀ l ∈ ((a.run later).client.ring p).owners, (a.run later).client.isActive l = true →
          ∃ k ≥ a.tasks.length,
            (∃ slot, (a.run later).tasks[k]? = some (.attach p slot (.rechecking l))) ∧
            ∀ luck, ((a.run later).step (.task k luck)).client.isActive l = false := by
  intro a hshut hclosing hopening
  have hguarded : a.Guarded := guarded_run (.start config serializers directory worker) moves
  have hsettled : a.Settled p a.tasks.length := settled_of_idle hshut hclosing hopening
  have hidle (l : LinkId) (hl : l ∈ (a.client.ring p).owners) : a.client.isActive l = false :=
    hsettled.isActive_eq_false hguarded hl
  refine ⟨hidle, fun later => ⟨fun l hl => ?_, fun l hl hactive => ?_⟩⟩
  · exact a.isActive_run later (hguarded.known p l hl) (hidle l hl)
  · have hsettled' : (a.run later).Settled p a.tasks.length :=
      run_induction (fun _ _ => Settled.stepped) hsettled later
    obtain ⟨k, hk, slot, ht⟩ :=
      hsettled'.attach_of_isActive (guarded_run hguarded later) hl hactive
    refine ⟨k, hk, ⟨slot, ht⟩, fun luck => ?_⟩
    rw [step, ht]
    exact isActive_recheck hsettled'.marked

/-- A pool is shut down between the opening of its first connection and its way to the ring. -/
def shutDownWhileOpening : List Move :=
  [.connect "echo" "local://127.0.0.1:9000", .task 0 true, .task 0 true, .task 0 true, .task 1 true,
    .shutdownPool 0, .task 2 true, .task 2 true, .task 2 true, .task 2 true, .task 1 true,
    .task 1 true]

theorem closed_rings_stay_closed_while_opening :
    let a := (start .standard .standard none 1).run shutDownWhileOpening
    (a.client.isShutdown 0 = true ∧ (∀ t ∈ a.tasks, t.isClosing 0 = false) ∧
      (∀ t ∈ a.tasks, t.isOpening 0 = false) ∧ a.client.links.length = 1) ∧
      ∀ l ∈ (a.client.ring 0).owners, a.client.isActive l = false := by
  have hshut : ((start .standard .standard none 1).run shutDownWhileOpening).client.isShutdown 0 =
    true := by decide +kernel
  have hclosing : ∀ t ∈ ((start .standard .standard none 1).run shutDownWhileOpening).tasks,
    t.isClosing 0 = false := by decide +kernel
  have hopening : ∀ t ∈ ((start .standard .standard none 1).run shutDownWhileOpening).tasks,
    t.isOpening 0 = false := by decide +kernel
  exact ⟨⟨hshut, hclosing, hopening, by decide +kernel⟩,
    (closed_rings_stay_closed .standard .standard none 1 shutDownWhileOpening 0 hshut hclosing
      hopening).1⟩

end Activity

end RemoteCall.Client
