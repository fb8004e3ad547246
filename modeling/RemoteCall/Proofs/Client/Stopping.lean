import RemoteCall.Proofs.Client.Closing
import RemoteCall.Proofs.Client.Endings

/-!
# Clients that are shut down

A client that is shut down takes no requests any more: those that come later see the mark and end
with an error, and do nothing else. The shutdown lists the pools after it has set the mark and shuts
down each of them, and ends the calls that wait; a call that is registered after this ends on its
own, when its answer comes or the wait is over, so no call is left when none is underway. What the
shutdown does not reach is the pool of a request that has seen no mark and registers its pool after
the pools were listed: this pool is not shut down, its connections stay in use, and the request for
it succeeds.

## Main definitions

* `Activity.AttendsTo`, `Activity.Attended` : calls in the table have a task that waits for them.
* `Stopping.HasShut` : the pools that a shutdown has been through.
* `Activity.Late` : requests that begin after a shutdown.

## Main results

* `Activity.shutdown_is_final` : what a shutdown leaves behind.
* `Activity.open_after_shutdown` : a request that its shutdown does not reach.
-/

namespace RemoteCall.Client

variable {c c' : Client} {p : PoolId}

/-- The task makes a call. -/
def Job.isCall : Job → Bool
  | invoke _ _ _ => true
  | _ => false

/-- The request that the task has registered and waits for, or is about to. -/
def Task.sent? : Task → Option Sent
  | invoke _ _ _ (.registered _ s _) | invoke _ _ _ (.tracked _ s _)
  | invoke _ _ _ (.waiting _ s) => some s
  | _ => none

/-- A task that waits for an answer makes a call, which is not over. -/
theorem Task.of_sent? {t : Task} {s : Sent} (h : t.sent? = some s) :
    t.job.isCall = true ∧ t.hasEnded = false := by
  unfold sent? at h
  split at h <;> first | exact ⟨rfl, rfl⟩ | cases h

theorem Task.eq_invoke_of_isCall {t : Task} (h : t.job.isCall = true) :
    ∃ p m parameter s, t = .invoke p m parameter s := by
  cases t with
  | invoke p m parameter s => exact ⟨p, m, parameter, s, rfl⟩
  | _ => cases h

theorem Task.job_eq_shutdown {t : Task} (h : t.job = .shutdown) : ∃ s, t = .shutdown s := by
  cases t with
  | shutdown s => exact ⟨s, rfl⟩
  | _ => cases h

/-- A call that stays in the table when another one leaves is one of another request. -/
theorem mem_calls_settle {p : Pending} {id : RequestId} {how : PendingCall → Settlement}
    {call : PendingCall} (h : call ∈ (p.settle id how).2.calls) :
    call ∈ p.calls ∧ call.id ≠ id := by
  rw [Pending.calls_settle_eq] at h
  obtain ⟨hmem, hne⟩ := List.mem_filter.mp h
  exact ⟨hmem, by simpa using hne⟩

namespace Activity

/-- A task attends to every call in the table. -/
def Attended (a : Activity) : Prop :=
  ∀ call ∈ a.client.pending.calls, ∃ t ∈ a.tasks, ∃ s, t.sent? = some s ∧
    s.request = call.id ∧ s.ticket = call.ticket

/-- A task attends to the call of this request, if one is in the table. -/
def AttendsTo (a : Activity) (r : RequestId) : Prop :=
  ∀ call ∈ a.client.pending.calls, call.id = r → ∃ t ∈ a.tasks, ∃ s, t.sent? = some s ∧
    s.request = call.id ∧ s.ticket = call.ticket

theorem attended_iff {a : Activity} : a.Attended ↔ ∀ r, a.AttendsTo r :=
  ⟨fun h _ call hcall _ => h call hcall, fun h call hcall => h call.id call hcall rfl⟩

namespace AttendsTo

variable {a : Activity} {t : Task} {k : TaskId} {e : Effect} {r : RequestId}

/-- A task makes a step. The calls that it attended to it still does, or they are gone. -/
theorem perform (h : a.AttendsTo r) (ht : a.tasks[k]? = some t)
    (hcalls : ∀ call ∈ e.client.pending.calls, (call ∈ a.client.pending.calls ∧
      ∀ s, t.sent? = some s → s.request = call.id → s.ticket = call.ticket →
        e.task.sent? = some s) ∨
      ∃ s, e.task.sent? = some s ∧ s.request = call.id ∧ s.ticket = call.ticket) :
    (a.perform k e).AttendsTo r := by
  intro call hcall hid
  rcases hcalls call hcall with ⟨hold, hkept⟩ | hself
  · obtain ⟨u, hu, s, hs, hrequest, hticket⟩ := h call hold hid
    by_cases hut : u = t
    · subst hut
      exact ⟨e.task, task_mem_perform ht, s, hkept s hs hrequest hticket, hrequest, hticket⟩
    · exact ⟨u, mem_perform_of_ne ht hu hut, s, hs, hrequest, hticket⟩
  · exact ⟨e.task, task_mem_perform ht, hself⟩

/-- A task that registers no call goes on with the one that it attends to. -/
theorem kept (h : a.AttendsTo r) (ht : a.tasks[k]? = some t)
    (hcalls : e.client.pending.calls ⊆ a.client.pending.calls)
    (hsent : ∀ s, t.sent? = some s → e.task.sent? = some s) : (a.perform k e).AttendsTo r :=
  h.perform ht fun _ hcall => Or.inl ⟨hcalls hcall, fun s hs _ _ => hsent s hs⟩

/-- A task gives its call up. -/
theorem givenUp {s : Sent} {how : PendingCall → Settlement} (h : a.AttendsTo r)
    (ht : a.tasks[k]? = some t) (hsent : t.sent? = some s)
    (hcalls : e.client.pending.calls ⊆ (a.client.pending.settle s.request how).2.calls) :
    (a.perform k e).AttendsTo r := by
  refine h.perform ht fun call hcall => Or.inl ?_
  obtain ⟨hmem, hne⟩ := mem_calls_settle (hcalls hcall)
  refine ⟨hmem, fun s' hs' hrequest _ => ?_⟩
  cases hsent.symm.trans hs'
  exact (hne hrequest.symm).elim

/-- A task has seen that its call does not wait any more. -/
theorem settled {s : Sent} (h : a.AttendsTo r) (ht : a.tasks[k]? = some t) (hsent : t.sent? = some s)
    (hstatus : a.client.pending.status s.ticket ≠ .waiting)
    (hcalls : e.client.pending.calls ⊆ a.client.pending.calls) : (a.perform k e).AttendsTo r := by
  refine h.perform ht fun call hcall => Or.inl ⟨hcalls hcall, fun s' hs' _ hticket => ?_⟩
  cases hsent.symm.trans hs'
  exact (hstatus (Pending.status_eq_waiting_iff.mpr ⟨call, hcalls hcall, hticket.symm⟩)).elim

/-- A call goes on. -/
theorem invoke {m : Method} {parameter : Value} {s : Invoking} (h : a.AttendsTo r)
    (ht : a.tasks[k]? = some (.invoke p m parameter s)) (luck : Bool) :
    (a.perform k (a.act luck (.invoke p m parameter s))).AttendsTo r := by
  have hidle (hsent : (Task.invoke p m parameter s).sent? = none)
      (hpicked : ∀ progress request l frame, s ≠ .picked progress request l frame) :
      (a.perform k (a.act luck (.invoke p m parameter s))).AttendsTo r := by
    refine h.kept ht ?_ fun s' hs' => by cases hsent.symm.trans hs'
    exact (Invoking.calm_next a.client p m parameter (!luck) s hpicked).calls
  cases s with
  | asking progress => exact hidle rfl (by rintro _ _ _ _ ⟨⟩)
  | allowed progress => exact hidle rfl (by rintro _ _ _ _ ⟨⟩)
  | picked progress request l frame =>
    refine h.perform ht fun call hcall => ?_
    rcases List.mem_append.mp hcall with hcall | hcall
    · exact Or.inl ⟨calls_settle _ _ _ hcall, by rintro _ ⟨⟩⟩
    · obtain rfl := List.mem_singleton.mp hcall
      exact Or.inr ⟨_, rfl, rfl, rfl⟩
  | registered progress s frame => exact h.kept ht (List.Subset.refl _) fun _ => id
  | tracked progress s frame =>
    rw [act, Invoking.next]
    split
    · exact h.kept ht (List.Subset.refl _) fun _ => id
    · exact h.givenUp ht rfl (List.Subset.refl _)
  | waiting progress s =>
    have hfinished (how : Client.Waited) (hhow : how ≠ .timedOut) :
        (a.client.finish s how).2.pending.calls ⊆ a.client.pending.calls := by
      rw [pending_finish]
      cases how with
      | timedOut => exact (hhow rfl).elim
      | _ => exact List.Subset.refl _
    rw [act, Invoking.next]
    split
    · exact h.givenUp ht rfl (List.Subset.refl _)
    · split
      · exact h.kept ht (List.Subset.refl _) fun _ => id
      all_goals
        rename_i hstatus
        refine h.settled ht rfl ?_ (hfinished _ (by rintro ⟨⟩))
        rw [hstatus]
        rintro ⟨⟩
  | returned result => exact hidle rfl (by rintro _ _ _ _ ⟨⟩)

/-- Every step of a task keeps the call attended. -/
theorem act (h : a.AttendsTo r) (ht : a.tasks[k]? = some t) (luck : Bool) :
    (a.perform k (a.act luck t)).AttendsTo r := by
  by_cases hinvoke : t.job.isCall = true
  · obtain ⟨p, m, parameter, s, rfl⟩ := Task.eq_invoke_of_isCall hinvoke
    exact h.invoke ht luck
  · have hcalls := (a.kept_act luck (t := t)).1 fun _ _ _ _ _ _ _ hpicked =>
      hinvoke (hpicked ▸ rfl)
    exact h.kept ht hcalls fun s hs => (hinvoke (Task.of_sent? hs).1).elim

/-- Every move keeps the call attended. -/
theorem stepped {b : Activity} (hs : Stepped a b) (h : a.AttendsTo r) : b.AttendsTo r := by
  cases hs with
  | task ht luck => exact h.act ht luck
  | abort ht hshut =>
    exact h.kept ht (List.Subset.refl _) (by rintro _ ⟨⟩)
  | outside hcalm hbegun =>
    intro call hcall hid
    obtain ⟨u, hu, hattends⟩ := h call (hcalm.calls hcall) hid
    exact ⟨u, List.mem_append_left _ hu, hattends⟩

end AttendsTo

namespace Attended

variable {a : Activity}

theorem stepped {b : Activity} (hs : Stepped a b) (h : a.Attended) : b.Attended :=
  attended_iff.mpr fun r => (attended_iff.mp h r).stepped hs

/-- When every call is over none is left in the table. -/
theorem calls_eq_nil (h : a.Attended)
    (hover : ∀ t ∈ a.tasks, t.job.isCall = true → t.hasEnded = true) :
    a.client.pending.calls = [] := by
  refine List.eq_nil_iff_forall_not_mem.mpr fun call hcall => ?_
  obtain ⟨t, ht, s, hs, -⟩ := h call hcall
  obtain ⟨hinvoke, hunderway⟩ := Task.of_sent? hs
  exact Bool.false_ne_true (hunderway.symm.trans (hover t ht hinvoke))

end Attended

end Activity

/-! ### What a shutdown has been through -/

/-- The pools that a shutdown of the client has been through are shut down. -/
def Stopping.HasShut (c : Client) : Stopping → Prop
  | asking | returned none => True
  | marked => c.stopping = true
  | closing p total s =>
    c.stopping = true ∧ (∀ q < total, (c.location? q).isSome = true) ∧
      (∀ q < p, q < total → c.isShutdown q = true) ∧
      (s ≠ .asking → p < total → c.isShutdown p = true)
  | listing total | failing total _ | returned (some total) =>
    c.stopping = true ∧ ∀ q < total, c.isShutdown q = true

namespace Stopping

variable {s : Stopping}

theorem HasShut.steady (h : s.HasShut c) (hc : Steady c c') : s.HasShut c' := by
  unfold HasShut at h ⊢
  split
  · trivial
  · trivial
  · exact hc.stopping h
  · obtain ⟨hstopping, hknown, hbefore, hthis⟩ := h
    refine ⟨hc.stopping hstopping, fun q hq => ?_, fun q hq hlt => hc.marked q (hbefore q hq hlt),
      fun hs hlt => hc.marked _ (hthis hs hlt)⟩
    obtain ⟨place, hplace⟩ := Option.isSome_iff_exists.mp (hknown q hq)
    rw [hc.location? q place hplace]
    rfl
  all_goals
    obtain ⟨hstopping, hshut⟩ := h
    exact ⟨hc.stopping hstopping, fun q hq => hc.marked q (hshut q hq)⟩

end Stopping

/-- Shutting a pool down is steady. -/
theorem Closing.steady_next (c : Client) (p : PoolId) (s : Closing) : Steady c (s.next c p).2 := by
  by_cases h : s = .asking ∧ c.isShutdown p = false
  · obtain ⟨rfl, hshut⟩ := h
    rw [Closing.next, hshut]
    exact c.steady_mark p
  · refine (Closing.calm_next c p s fun hs => ?_).toSteady
    cases hshut : c.isShutdown p with
    | true => rfl
    | false => exact (h ⟨hs, hshut⟩).elim

/-- A pool that the client has is shut down as soon as somebody has asked whether it is. -/
theorem Closing.isShutdown_next {s : Closing} (hknown : (c.location? p).isSome = true)
    (h : s ≠ .asking → c.isShutdown p = true) : (s.next c p).2.isShutdown p = true := by
  by_cases hs : s = .asking
  · subst hs
    rw [Closing.next]
    split
    · assumption
    · rw [location?, Option.isSome_map] at hknown
      obtain ⟨pool, hpool⟩ := Option.isSome_iff_exists.mp hknown
      rw [isShutdown, pool?_onPool, hpool]
      simp
  · rw [(Closing.calm_next c p s fun hasking => (hs hasking).elim).isShutdown]
    exact h hs

/-- A shutdown of the client goes on. -/
theorem Stopping.HasShut.next {s : Stopping} (h : s.HasShut c) :
    (s.next c).1.HasShut (s.next c).2 := by
  cases s with
  | asking =>
    rw [Stopping.next]
    split
    · trivial
    · exact (rfl : ({ c with stopping := true } : Client).stopping = true)
  | marked =>
    rw [Stopping.next]
    refine ⟨h, fun q hq => ?_, fun q hq => (Nat.not_lt_zero q hq).elim, fun hs => (hs rfl).elim⟩
    rw [location?, Option.isSome_map, pool?, List.getElem?_eq_getElem hq]
    rfl
  | closing p total s =>
    obtain ⟨hstopping, hknown, hbefore, hthis⟩ := h
    rw [Stopping.next]
    split
    · rename_i hlast
      exact ⟨hstopping, fun q hq => hbefore q (Nat.lt_of_lt_of_le hq hlast) hq⟩
    · rename_i hlast
      have hlt : p < total := Nat.not_le.mp hlast
      split
      · rename_i hs
        refine ⟨hstopping, hknown, fun q hq hqt => ?_, fun hs => (hs rfl).elim⟩
        rcases Nat.lt_succ_iff_lt_or_eq.mp hq with hq | rfl
        · exact hbefore q hq hqt
        · exact hthis (by rw [hs]; decide) hqt
      · have hsteady := Closing.steady_next c p s
        obtain ⟨hstopping', hknown', hbefore', -⟩ :=
          HasShut.steady (s := .closing p total s) ⟨hstopping, hknown, hbefore, hthis⟩ hsteady
        exact ⟨hstopping', hknown', hbefore', fun _ _ =>
          Closing.isShutdown_next (hknown p hlt) fun hs => hthis hs hlt⟩
  | listing total => exact h
  | failing total left => cases left <;> exact h
  | returned total => exact h

namespace Activity

/-- Each shutdown of the client has shut down the pools that it has been through. -/
def Stopped (a : Activity) : Prop :=
  ∀ s, .shutdown s ∈ a.tasks → s.HasShut a.client

/-- Every move keeps that. -/
theorem Stopped.stepped {a b : Activity} (hs : Stepped a b) (h : a.Stopped) : b.Stopped := by
  have hsteady := steady_stepped hs
  intro s hmem
  cases hs with
  | task ht luck =>
    rcases mem_perform hmem with hmem | hself | hbegun
    · exact (h s hmem).steady hsteady
    · have hjob := a.job_act luck _ ▸ congrArg Task.job hself.symm
      obtain ⟨s, rfl⟩ := Task.job_eq_shutdown hjob
      cases hself
      exact (h s (List.mem_of_getElem? ht)).next
    · exact (a.isFresh_begun luck _ _ hbegun).elim
  | abort ht hshut =>
    rcases mem_perform hmem with hmem | hself | hbegun
    · exact h s hmem
    · cases hself
    · cases hbegun
  | outside hcalm hbegun =>
    rcases List.mem_append.mp hmem with hmem | hmem
    · exact (h s hmem).steady hsteady
    · cases s with
      | asking => trivial
      | _ => exact (hbegun _ hmem).elim

end Activity

/-! ### Requests that come late -/

/-- The task asks for a service or makes a call. -/
def Job.isRequest : Job → Bool
  | connect _ _ | invoke _ _ _ => true
  | _ => false

namespace Task

/-- The request has ended with the error that the client stops. -/
def turnedAway : Task → Task
  | connect service location _ => .connect service location (.returned (.error stoppingError))
  | invoke p m parameter _ => .invoke p m parameter (.returned (.error stoppingError))
  | t => t

/-- The task is no request, or one that is about to look at the mark or was turned away. -/
def IsLate : Task → Prop
  | connect _ _ s => s = .asking ∨ s = .returned (.error stoppingError)
  | invoke _ _ _ s => (∃ progress, s = .asking progress) ∨ s = .returned (.error stoppingError)
  | _ => True

variable {t : Task}

theorem isLate_of_not_isRequest (h : ¬t.job.isRequest = true) : t.IsLate := by
  cases t with
  | connect service location s => exact (h rfl).elim
  | invoke p m parameter s => exact (h rfl).elim
  | _ => trivial

theorem isLate_turnedAway (t : Task) : t.turnedAway.IsLate := by
  cases t with
  | connect service location s => exact Or.inr rfl
  | invoke p m parameter s => exact Or.inr rfl
  | _ => trivial

theorem isLate_of_isFresh (h : Activity.IsFresh t) : t.IsLate := by
  unfold Activity.IsFresh at h
  split at h <;> first | exact h.elim | trivial

theorem isLate_of_isNew {a : Activity} (h : a.IsNew t) : t.IsLate := by
  unfold Activity.IsNew at h
  split at h
  · exact Or.inl rfl
  · exact Or.inl ⟨_, rfl⟩
  · trivial
  · trivial
  · trivial
  · trivial
  · trivial
  · exact h.elim

/-- A request that looks at the mark is turned away, and nothing else happens. -/
theorem IsLate.act_eq (h : t.IsLate) (hrequest : t.job.isRequest = true) {a : Activity}
    (hstopping : a.client.stopping = true) (luck : Bool) :
    a.act luck t = { task := t.turnedAway, client := a.client } := by
  cases t with
  | connect service location s =>
    rcases h with rfl | rfl
    · rw [Activity.act, Activity.connectNext, if_pos hstopping]
      rfl
    · rfl
  | invoke p m parameter s =>
    rcases h with ⟨progress, rfl⟩ | rfl
    · rw [Activity.act, Invoking.next, if_pos hstopping]
      rfl
    · rfl
  | _ => cases hrequest

end Task

namespace Activity

/-- The client is marked, and the requests among the tasks from the first `n` on come late. -/
structure Late (a : Activity) (n : TaskId) : Prop where
  stopping : a.client.stopping = true
  later : n ≤ a.tasks.length
  late : ∀ k ≥ n, ∀ t, a.tasks[k]? = some t → t.IsLate

theorem late_of_stopping {a : Activity} (h : a.client.stopping = true) :
    a.Late a.tasks.length where
  stopping := h
  later := Nat.le_refl _
  late _ hk _ ht := (Nat.not_lt.mpr hk (List.getElem?_eq_some_iff.mp ht).1).elim

/-- Requests that come late stay so. -/
theorem Late.stepped {a b : Activity} {n : TaskId} (hs : Stepped a b) (h : a.Late n) :
    b.Late n := by
  refine ⟨(steady_stepped hs).stopping h.stopping, Nat.le_trans h.later (length_le_stepped hs),
    fun i hi u hu => ?_⟩
  cases hs with
  | @task _ t ht luck =>
    rcases getElem?_perform hu with ⟨rfl, rfl⟩ | hu | ⟨-, hu⟩
    · by_cases hrequest : t.job.isRequest = true
      · rw [(h.late i hi t ht).act_eq hrequest h.stopping luck]
        exact t.isLate_turnedAway
      · exact Task.isLate_of_not_isRequest (a.job_act luck t ▸ hrequest)
    · exact h.late i hi u hu
    · exact Task.isLate_of_isFresh (a.isFresh_begun luck _ u hu)
  | abort ht hshut =>
    rcases getElem?_perform hu with ⟨rfl, rfl⟩ | hu | ⟨-, hu⟩
    · trivial
    · exact h.late i hi u hu
    · cases hu
  | outside hcalm hbegun =>
    rcases getElem?_begun hu with hu | hu
    · exact h.late i hi u hu
    · exact Task.isLate_of_isNew (hbegun u hu)

end Activity

/-! ### What a shutdown leaves behind -/

/-- The number of pools that the shutdown of the client has listed, when it is over. -/
def Task.listed? : Task → Option PoolId
  | shutdown (.returned total) => total
  | _ => none

theorem Task.eq_shutdown_of_listed? {t : Task} {total : PoolId} (h : t.listed? = some total) :
    t = .shutdown (.returned (some total)) := by
  unfold listed? at h
  split at h <;> cases h
  rfl

namespace Activity

/-- When every call is over none is left in the table. After a shutdown of the client the pools that
it has listed are shut down, and the connections on their rings are not in use when nothing is
underway for them; every request or call that begins later, whatever happens meanwhile, is turned
away, and its step changes nothing else. -/
theorem shutdown_is_final (config : ClientConfig) (serializers : Serializers)
    (directory : Option Directory) (worker : UInt64) (moves : List Move) :
    let a := (start config serializers directory worker).run moves
    ((∀ t ∈ a.tasks, t.job.isCall = true → t.hasEnded = true) → a.client.pending.calls = []) ∧
    ∀ total, (∃ t ∈ a.tasks, t.listed? = some total) →
      (∀ p < total, a.client.isShutdown p = true ∧
        ((∀ t ∈ a.tasks, t.isClosing p = false) → (∀ t ∈ a.tasks, t.isOpening p = false) →
          ∀ l ∈ (a.client.ring p).owners, a.client.isActive l = false)) ∧
      ∀ later k t luck, a.tasks.length ≤ k → (a.run later).tasks[k]? = some t →
        t.job.isRequest = true →
          (a.run later).step (.task k luck) =
            { a.run later with tasks := (a.run later).tasks.set k t.turnedAway } := by
  intro a
  have hattended : a.Attended :=
    run_induction (fun _ _ => Attended.stepped) (fun call hcall => by cases hcall) moves
  have hstopped : a.Stopped :=
    run_induction (fun _ _ => Stopped.stepped) (fun s hs => by cases hs) moves
  have hguarded : a.Guarded := guarded_run (.start config serializers directory worker) moves
  refine ⟨hattended.calls_eq_nil, ?_⟩
  rintro total ⟨t, ht, hlisted⟩
  obtain rfl := Task.eq_shutdown_of_listed? hlisted
  obtain ⟨hstopping, hshut⟩ := hstopped _ ht
  refine ⟨fun p hp => ⟨hshut p hp, fun hclosing hopening l hl => ?_⟩,
    fun later k t luck hk ht hrequest => ?_⟩
  · exact (settled_of_idle (hshut p hp) hclosing hopening).isActive_eq_false hguarded hl
  · have hlate : (a.run later).Late a.tasks.length :=
      run_induction (fun _ _ => Late.stepped) (late_of_stopping hstopping) later
    rw [step, ht]
    dsimp only
    rw [(hlate.late k hk t ht).act_eq hrequest hlate.stopping luck]
    simp [perform]

/-- The client is shut down while a pool opens its first connection and a call begins. -/
def shutDownWhileAttaching : List Move :=
  [.connect "echo" "local://127.0.0.1:9000", .task 0 true, .task 0 true, .task 0 true, .task 1 true,
    .invoke 0 (.ofInfo (serviceId "echo") ⟨"ping", "N/A", "N/A", 1⟩ .standard) .empty, .shutdown] ++
    List.replicate 10 (.task 3 true) ++
    [.task 1 true, .task 1 true, .task 2 true, .task 0 true, .task 0 true, .task 0 true,
      .task 0 true]

theorem shutdown_is_final_while_attaching :
    let a := (start .standard .standard none 1).run shutDownWhileAttaching
    ((∀ t ∈ a.tasks, t.hasEnded = true) ∧ a.homes.map Home.pool = [0] ∧
      ∃ t ∈ a.tasks, t.listed? = some 1) ∧
      a.client.pending.calls = [] ∧ a.client.isShutdown 0 = true ∧
      (∀ l ∈ (a.client.ring 0).owners, a.client.isActive l = false) ∧
      (a.step (.connect "echo" "local://127.0.0.1:9000")).step (.task 4 true) =
        { a with
          tasks := a.tasks ++
            [.connect "echo" "local://127.0.0.1:9000" (.returned (.error stoppingError))] } := by
  have hended : ∀ t ∈ ((start .standard .standard none 1).run shutDownWhileAttaching).tasks,
    t.hasEnded = true := by decide +kernel
  have hlisted : ∃ t ∈ ((start .standard .standard none 1).run shutDownWhileAttaching).tasks,
    t.listed? = some 1 := by decide +kernel
  have hclosing : ∀ t ∈ ((start .standard .standard none 1).run shutDownWhileAttaching).tasks,
    t.isClosing 0 = false := by decide +kernel
  have hopening : ∀ t ∈ ((start .standard .standard none 1).run shutDownWhileAttaching).tasks,
    t.isOpening 0 = false := by decide +kernel
  have hlength : ((start .standard .standard none 1).run shutDownWhileAttaching).tasks.length =
    4 := by decide +kernel
  obtain ⟨hcalls, hlater⟩ := shutdown_is_final .standard .standard none 1 shutDownWhileAttaching
  obtain ⟨hpools, hrequests⟩ := hlater 1 hlisted
  obtain ⟨hshut, hidle⟩ := hpools 0 (by decide)
  have hhomes : ((start .standard .standard none 1).run shutDownWhileAttaching).homes.map
    Home.pool = [0] := by decide +kernel
  refine ⟨⟨hended, hhomes, hlisted⟩, hcalls fun t ht _ => hended t ht, hshut,
    hidle hclosing hopening, ?_⟩
  generalize (start .standard .standard none 1).run shutDownWhileAttaching = a at hlength hrequests
  have hturned := hrequests [.connect "echo" "local://127.0.0.1:9000"] 4 (.connect "echo"
    "local://127.0.0.1:9000" .asking) true hlength.le (hlength ▸ List.getElem?_concat_length) rfl
  refine hturned.trans ?_
  rw [← hlength]
  simp [run, step, begin, Task.turnedAway]

/-- The client is shut down between the question whether it stops and the registration of a pool. -/
def shutDownWhileConnecting : List Move :=
  [.learn (Service.new "echo" (.loopback 9000)), .connect "echo" "local://127.0.0.1:9000",
    .task 0 true, .shutdown, .task 1 true, .task 1 true, .task 1 true, .task 1 true, .task 1 true,
    .task 0 true, .task 0 true, .task 2 true, .task 2 true, .task 2 true, .task 0 true,
    .task 3 true, .task 0 true, .task 0 true]

/-- The shutdown is over and has listed no pool, and yet the request succeeds, with a connection
that is in use. -/
theorem open_after_shutdown :
    let a := (start .standard .standard none 1).run shutDownWhileConnecting
    (∀ t ∈ a.tasks, t.hasEnded = true) ∧ (∃ t ∈ a.tasks, t.listed? = some 0) ∧
      (∃ t ∈ a.tasks, t matches .connect "echo" _ (.returned (.ok _))) ∧
      a.homes.map Home.pool = [0] ∧ a.client.isActive 0 = true := by
  decide +kernel

end Activity

end RemoteCall.Client
