import RemoteCall.Proofs.Client.Calm

/-!
# What moves do

A move is the next step of one task, the end of a reconnect that connects for a pool that was shut
down, or something calm that happens from outside and may begin one new task. Of the steps of tasks
only those that add a connection, enter or change a ring, mark a pool, register a call or plan a
reconnect are not calm.

## Main definitions

* `Task.IsCalm` : the next step of the task is calm.
* `Activity.Stepped` : what a move can do.

## Main results

* `Activity.calm_act` : steps of tasks that are calm.
* `Activity.stepped` : every move is one of those of `Activity.Stepped`.
-/

namespace RemoteCall.Client

variable {c : Client} {p : PoolId} {l : LinkId}

/-- A connection that learns the positions of its slot. -/
theorem steady_withPositions (a : Activity) (l : LinkId) :
    Steady a.client (a.withPositions l) := by
  rw [Activity.withPositions]
  split
  · exact (Calm.refl _).toSteady
  · rename_i slot _
    exact a.client.steady_onSlot l fun _ => slot

theorem ring_withPositions (a : Activity) (l : LinkId) (p : PoolId) :
    (a.withPositions l).ring p = a.client.ring p := by
  rw [Activity.withPositions]
  split <;> rfl

theorem isShutdown_withPositions (a : Activity) (l : LinkId) (p : PoolId) :
    (a.withPositions l).isShutdown p = a.client.isShutdown p := by
  rw [Activity.withPositions]
  split <;> rfl

/-- Neither calls nor reconnects are touched when connections change their places. -/
theorem kept_withPositions (a : Activity) (l : LinkId) :
    (a.withPositions l).pending = a.client.pending ∧
      (a.withPositions l).reconnects = a.client.reconnects := by
  rw [Activity.withPositions]
  split <;> exact ⟨rfl, rfl⟩

theorem kept_putOnRing (c : Client) (p : PoolId) (l : LinkId) :
    (c.putOnRing p l).pending = c.pending ∧ (c.putOnRing p l).reconnects = c.reconnects := by
  rw [putOnRing]
  split <;> exact ⟨rfl, rfl⟩

theorem kept_replaced (c : Client) (r : Reconnect) (l : LinkId) :
    (c.replaced r l).pending = c.pending ∧ (c.replaced r l).reconnects = c.reconnects := by
  rw [replaced]
  split <;> exact ⟨rfl, rfl⟩

/-! ### Steps of tasks -/

/-- Shutting a pool down is calm once it is marked. -/
theorem Closing.calm_next (c : Client) (p : PoolId) (s : Closing)
    (h : s = .asking → c.isShutdown p = true) : Calm c (s.next c p).2 := by
  cases s with
  | asking =>
    rw [Closing.next, if_pos (h rfl)]
    exact .refl c
  | marked =>
    exact .of_eq rfl rfl id (List.Subset.refl _) List.filter_sublist.subset
  | listing => exact .refl c
  | sweeping left =>
    cases left with
    | nil => exact c.calm_markReady p _
    | cons l left => exact c.calm_close l
  | ended => exact .refl c

/-- A call is calm, but for its registration. -/
theorem Invoking.calm_next (c : Client) (p : PoolId) (m : Method) (parameter : Value)
    (timedOut : Bool) (s : Invoking) (h : ∀ progress request l frame,
      s ≠ .picked progress request l frame) : Calm c (s.next c p m parameter timedOut).2 := by
  cases s with
  | asking progress => exact .refl c
  | allowed progress =>
    refine .trans c.calm_nextId ?_
    rw [Invoking.next]
    dsimp only
    split
    · exact .refl _
    · split <;> exact .refl _
  | picked progress request l frame => exact (h progress request l frame rfl).elim
  | registered progress s frame =>
    refine c.calm_onLink s.link (fun link _ => ?_) fun link _ => ?_ <;> rw [Link.track]
    · split <;> rfl
    · split <;> exact id
  | tracked progress s frame =>
    rw [Invoking.next]
    split
    · rename_i link hsent
      obtain ⟨link', hlink, hsend⟩ := Option.bind_eq_some_iff.mp hsent
      rw [Link.send?, Option.map_eq_some_iff] at hsend
      obtain ⟨q, -, rfl⟩ := hsend
      refine c.calm_onLink s.link (fun m hm => ?_) fun m hm => ?_ <;>
        obtain rfl := Option.some.inj (hlink.symm.trans hm)
      · rfl
      · exact id
    · exact c.calm_finish s .timedOut
  | waiting progress s =>
    rw [Invoking.next]
    split
    · exact c.calm_finish s .timedOut
    · split
      · exact .refl c
      · exact c.calm_finish s _
      · exact c.calm_finish s .dropped
      · exact c.calm_finish s .dropped
  | returned result => exact .refl c

namespace Activity

variable (a : Activity)

theorem calm_describeNext (p : PoolId) (s : Describing) :
    Calm a.client (a.describeNext p s).client := by
  cases s with
  | arrived l body =>
    have hcalm := a.client.calm_understand p l body
    rw [describeNext]
    rcases h : a.client.understand p l body with ⟨_ | ⟨address, weight⟩, client⟩ <;>
      rwa [h] at hcalm
  | understood address weight =>
    have hcalm := a.client.calm_settleNumber p
    rw [describeNext]
    rcases h : a.client.settleNumber p with ⟨_ | _, client⟩ <;> rwa [h] at hcalm
  | ended => exact .refl _

theorem calm_fanOutNext (f : FanOut) (attaches : List TaskId) (ended : Bool) :
    Calm a.client (a.fanOutNext f attaches ended).client := by
  rw [fanOutNext]
  split
  · exact a.client.calm_markReady f.pool _
  · exact .refl _

/-- A request for a service is calm, but for the mark of its pool when it fails. -/
theorem calm_connectNext {service location : String} {timedOut : Bool} {s : Connecting}
    (h : ∀ p e, s = .failing p e .asking → a.client.isShutdown p = true) :
    Calm a.client (a.connectNext service location timedOut s).2.1 := by
  rcases hnext : a.connectNext service location timedOut s with ⟨s', client, begun⟩
  cases a.connects hnext with
  | registered service place => exact a.client.calm_addPool service place
  | attaching hpool hslots => exact calm_firstSlots hslots
  | listed => exact a.client.calm_readyIfKnown _ _
  | @closing p e stage hstage =>
    exact Closing.calm_next a.client p stage fun hasking => h p e (hasking ▸ rfl)
  | _ => exact .refl _

end Activity

/-- The shutdown of a client is calm, but for the marks of its pools. -/
theorem Stopping.calm_next (c : Client) (s : Stopping)
    (h : ∀ p total, ¬total ≤ p → s = .closing p total .asking → c.isShutdown p = true) :
    Calm c (s.next c).2 := by
  cases s with
  | asking =>
    rw [Stopping.next]
    split
    · exact .refl c
    · exact .of_eq rfl rfl (fun _ => rfl) (List.Subset.refl _) (List.Subset.refl _)
  | marked => exact .refl c
  | closing p total s =>
    rw [Stopping.next]
    split
    · exact .refl c
    · rename_i hlast
      split
      · exact .refl c
      · exact Closing.calm_next c p s fun hasking => h p total hlast (hasking ▸ rfl)
  | listing total => exact .refl c
  | failing total left =>
    cases left with
    | nil => exact .refl c
    | cons id left => exact c.calm_pending (calls_settle _ _ _)
  | returned total => exact .refl c

/-- The pool that the task shuts down, and how far it has come. -/
def Task.closing? : Task → Option (PoolId × Closing)
  | closePool p s => some (p, s)
  | connect _ _ (.failing p _ s) => some (p, s)
  | shutdown (.closing p total s) => if total ≤ p then none else some (p, s)
  | _ => none

/-- The next step of the task changes no ring and marks no pool. -/
def Task.IsStill (c : Client) : Task → Prop
  | attach _ _ (.opened _) | attach _ _ (.refused _) => False
  | reopen _ .connecting | reopen _ (.opened _) => False
  | t => ∀ p, t.closing? = some (p, .asking) → c.isShutdown p = true

/-- In addition it adds no connection, registers no call and plans no reconnect. -/
def Task.IsCalm (c : Client) : Task → Prop
  | attach _ _ .connecting | plan _ _ .allowed | invoke _ _ _ (.picked _ _ _ _) => False
  | t => t.IsStill c

/-- Most steps of tasks are calm. -/
theorem Activity.calm_act (a : Activity) (luck : Bool) {t : Task} (h : t.IsCalm a.client) :
    Calm a.client (a.act luck t).client := by
  cases t with
  | attach p slot s =>
    cases s with
    | connecting => exact h.elim
    | opened l => exact h.elim
    | refused l => exact h.elim
    | rechecking l => exact a.client.calm_recheck p l
    | ended l => exact .refl _
  | plan p l s =>
    cases s with
    | asking => exact .refl _
    | allowed => exact h.elim
    | ended => exact .refl _
  | reopen r s =>
    cases s with
    | connecting => exact h.elim
    | opened l => exact h.elim
    | rechecking l => exact a.client.calm_recheck r.pool l
    | ended => exact .refl _
  | describe p s => exact a.calm_describeNext p s
  | fanOut f ks ended => exact a.calm_fanOutNext f ks ended
  | closePool p s => exact Closing.calm_next a.client p s fun hs => h p (hs ▸ rfl)
  | connect service location s =>
    exact a.calm_connectNext fun p e hs => h p (hs ▸ rfl)
  | invoke p m parameter s =>
    refine Invoking.calm_next a.client p m parameter (!luck) s ?_
    rintro progress request l frame rfl
    exact h
  | shutdown s =>
    refine Stopping.calm_next a.client s ?_
    rintro p total hlast rfl
    exact h p (if_neg hlast)

/-- Of the steps that leave rings and marks only three are not calm. -/
theorem Activity.still_act (a : Activity) (luck : Bool) {t : Task} (h : t.IsStill a.client) :
    Still a.client (a.act luck t).client := by
  by_cases hcalm : t.IsCalm a.client
  · exact (a.calm_act luck hcalm).toStill
  · unfold Task.IsCalm at hcalm
    split at hcalm
    · rw [act, attachNext]
      split
      · exact a.client.still_opened _ _
      · split
        · exact (Calm.refl _).toStill
        · exact a.client.still_addLink _
    · exact a.client.still_plan _ _
    · exact .of_eq rfl rfl id
    · exact (hcalm h).elim

/-! ### What tasks are for -/

/-- What a task is for. -/
inductive Job where
  | attach (p : PoolId) (slot : Slot)
  | plan (p : PoolId) (l : LinkId)
  | reopen (r : Reconnect)
  | describe (p : PoolId)
  | fanOut (f : FanOut)
  | closePool (p : PoolId)
  | connect (service location : String)
  | invoke (p : PoolId) (m : Method) (parameter : Value)
  | shutdown

/-- What the task is for. -/
def Task.job : Task → Job
  | attach p slot _ => .attach p slot
  | plan p l _ => .plan p l
  | reopen r _ => .reopen r
  | describe p _ => .describe p
  | fanOut f _ _ => .fanOut f
  | closePool p _ => .closePool p
  | connect service location _ => .connect service location
  | invoke p m parameter _ => .invoke p m parameter
  | shutdown _ => .shutdown

theorem Task.job_eq_attach {t : Task} {slot : Slot} (h : t.job = .attach p slot) :
    ∃ s, t = .attach p slot s := by
  cases t with
  | attach q slot' s =>
    cases h
    exact ⟨s, rfl⟩
  | _ => cases h

theorem Task.job_eq_reopen {t : Task} {r : Reconnect} (h : t.job = .reopen r) :
    ∃ s, t = .reopen r s := by
  cases t with
  | reopen r' s =>
    cases h
    exact ⟨s, rfl⟩
  | _ => cases h

/-- A task stays what it is for. -/
theorem Activity.job_act (a : Activity) (luck : Bool) (t : Task) :
    (a.act luck t).task.job = t.job := by
  cases t with
  | attach p slot s =>
    cases s with
    | connecting =>
      rw [act, attachNext]
      split
      · rfl
      · split <;> rfl
    | _ => rfl
  | plan p l s => cases s <;> rfl
  | reopen r s =>
    cases s with
    | connecting =>
      rw [act, reopenNext]
      split
      · split <;> rfl
      · rfl
    | _ => rfl
  | describe p s =>
    cases s with
    | ended => rfl
    | _ =>
      rw [act, describeNext]
      split <;> rfl
  | fanOut f ks ended =>
    rw [act, fanOutNext]
    split <;> rfl
  | closePool p s => rfl
  | connect service location s => rfl
  | invoke p m parameter s => rfl
  | shutdown s => rfl

/-- A task that has nothing left to do stays as it is. -/
theorem Activity.task_act_of_hasEnded (a : Activity) (luck : Bool) {t : Task}
    (h : t.hasEnded = true) : (a.act luck t).task = t := by
  cases t with
  | attach p slot s => cases s <;> first | rfl | cases h
  | plan p l s => cases s <;> first | rfl | cases h
  | reopen r s => cases s <;> first | rfl | cases h
  | describe p s => cases s <;> first | rfl | cases h
  | fanOut f ks ended =>
    cases ended with
    | false => cases h
    | true => rfl
  | closePool p s => cases s <;> first | rfl | cases h
  | connect service location s => cases s <;> first | rfl | cases h
  | invoke p m parameter s => cases s <;> first | rfl | cases h
  | shutdown s => cases s <;> first | rfl | cases h

/-! ### Shutting pools down -/

section Closing

variable (a : Activity) (luck : Bool) {t : Task} {s : Closing}

/-- Whoever shuts a pool down does so by the same steps. -/
theorem Activity.act_closing (h : t.closing? = some (p, s)) (hs : s ≠ .ended) :
    (a.act luck t).client = (s.next a.client p).2 ∧
      (a.act luck t).task.closing? = some (p, (s.next a.client p).1) ∧
      (a.act luck t).begun = [] := by
  cases t with
  | closePool q s' =>
    cases h
    exact ⟨rfl, rfl, rfl⟩
  | connect service location s' =>
    cases s' with
    | failing q e s' =>
      cases h
      rw [Activity.act, connectNext, if_neg hs]
      exact ⟨rfl, rfl, rfl⟩
    | _ => cases h
  | shutdown s' =>
    cases s' with
    | closing q total s' =>
      rw [Task.closing?] at h
      split at h
      · cases h
      · rename_i hlast
        cases h
        rw [Activity.act, Stopping.next, if_neg hlast, if_neg hs]
        exact ⟨rfl, if_neg hlast, rfl⟩
    | _ => cases h
  | _ => cases h

/-- When the pool is shut down this is over. -/
theorem Activity.client_act_closed (h : t.closing? = some (p, .ended)) :
    (a.act luck t).client = a.client := by
  cases t with
  | closePool q s =>
    cases h
    rfl
  | connect service location s =>
    cases s with
    | failing q e s =>
      cases h
      rfl
    | _ => cases h
  | shutdown s =>
    cases s with
    | closing q total s =>
      rw [Task.closing?] at h
      split at h
      · cases h
      · rename_i hlast
        cases h
        rw [Activity.act, Stopping.next, if_neg hlast, if_pos rfl]
    | _ => cases h
  | _ => cases h

/-- A request for a service does not go beyond beginning to shut its pool down, unless it has begun
before. -/
theorem Activity.eq_asking_of_connects {s s' : Connecting} {client : Client} {begun : List Task}
    {q : PoolId} {e : Error} {stage : Closing} (h : a.Connects s s' client begun)
    (hs : ∀ q e stage, s = .failing q e stage → stage = .ended) (hs' : s' = .failing q e stage) :
    stage = .asking := by
  cases h with
  | stays hstays => exact (hstays q e stage hs').elim
  | fails =>
    cases hs'
    rfl
  | closing hstage => exact (hstage (hs _ _ _ rfl)).elim
  | _ => cases hs'

/-- A task that is not in the middle of shutting a pool down at most begins to. -/
theorem Activity.closing?_act {q : PoolId} {s' : Closing}
    (hs : ∀ q s, t.closing? = some (q, s) → s = .ended)
    (h : (a.act luck t).task.closing? = some (q, s')) : s' = .asking ∨ s' = .ended := by
  have hjob := a.job_act luck t
  cases t with
  | closePool p s =>
    obtain rfl := hs p s rfl
    cases h
    exact Or.inr rfl
  | connect service location s =>
    rw [act] at h
    rcases hnext : a.connectNext service location (!luck) s with ⟨s'', client, begun⟩
    rw [hnext] at h
    cases s'' with
    | failing q e s'' =>
      cases h
      refine Or.inl (eq_asking_of_connects a (a.connects hnext) (fun q e s' hs' => ?_) rfl)
      exact hs q s' (by rw [hs']; rfl)
    | _ => cases h
  | shutdown s =>
    cases s with
    | marked =>
      rw [act, Stopping.next, Task.closing?] at h
      split at h <;> cases h
      exact Or.inl rfl
    | closing p total s =>
      rw [act, Stopping.next] at h
      by_cases hlast : total ≤ p
      · rw [if_pos hlast] at h
        cases h
      · obtain rfl := hs p s (if_neg hlast)
        rw [if_neg hlast, if_pos rfl, Task.closing?] at h
        split at h <;> cases h
        exact Or.inl rfl
    | asking =>
      rw [act, Stopping.next] at h
      split at h <;> cases h
    | failing total left => cases left <;> cases h
    | _ => cases h
  | _ =>
    generalize (a.act luck _).task = u at h hjob
    cases u with
    | closePool p s => cases hjob
    | connect service location s => cases hjob
    | shutdown s => cases hjob
    | _ => cases h

end Closing

/-- Every step of a task is steady. -/
theorem Activity.steady_act (a : Activity) (luck : Bool) (t : Task) :
    Steady a.client (a.act luck t).client := by
  by_cases hstill : t.IsStill a.client
  · exact (a.still_act luck hstill).toSteady
  · unfold Task.IsStill at hstill
    split at hstill
    · exact a.client.steady_putOnRing _ _
    · exact a.client.steady_putOnRing _ _
    · rename_i r
      rw [act, reopenNext]
      split
      · split
        · exact (a.client.still_opened _ _).toSteady
        · exact (Calm.refl _).toSteady
      · exact (steady_withPositions a r.old).trans (steady_notReplaced _ r)
    · rename_i r l
      exact (steady_withPositions a r.old).trans (steady_replaced _ r l)
    · obtain ⟨p, hp⟩ := not_forall.mp hstill
      obtain ⟨hclosing, hshut⟩ := Classical.not_imp.mp hp
      rw [(a.act_closing luck hclosing (by decide)).1, Closing.next, if_neg hshut]
      exact a.client.steady_mark p

/-- What changes a ring registers no call and plans a reconnect at most for the connection that it
is about. -/
theorem Activity.kept_act_of_not_isStill (a : Activity) (luck : Bool) {t : Task}
    (h : ¬t.IsStill a.client) :
    (a.act luck t).client.pending = a.client.pending ∧
      ∀ r ∈ (a.act luck t).client.reconnects, r ∈ a.client.reconnects ∨
        ∃ r', t = .reopen r' .connecting ∧ r.pool = r'.pool ∧ r.old = r'.old := by
  have hsame (hpending : (a.act luck t).client.pending = a.client.pending)
      (hreconnects : (a.act luck t).client.reconnects = a.client.reconnects) :
      (a.act luck t).client.pending = a.client.pending ∧
        ∀ r ∈ (a.act luck t).client.reconnects, r ∈ a.client.reconnects ∨
          ∃ r', t = .reopen r' .connecting ∧ r.pool = r'.pool ∧ r.old = r'.old :=
    ⟨hpending, fun r hr => Or.inl (hreconnects ▸ hr)⟩
  unfold Task.IsStill at h
  split at h
  · rename_i p slot l
    exact hsame (kept_putOnRing a.client p l).1 (kept_putOnRing a.client p l).2
  · rename_i p slot l
    exact hsame (kept_putOnRing a.client p l).1 (kept_putOnRing a.client p l).2
  · rename_i r'
    obtain ⟨hpending, hreconnects⟩ := kept_withPositions a r'.old
    rw [act, reopenNext]
    split
    · split
      · rename_i home slot _ _
        obtain ⟨link, -, hopened⟩ := a.client.opened_eq r'.pool slot
        rw [hopened]
        exact ⟨rfl, fun r => Or.inl⟩
      · exact ⟨rfl, fun r => Or.inl⟩
    · rcases (a.withPositions r'.old).notReplaced_cases r' with
        ⟨old, -, -, hc⟩ | ⟨later, hlater, hc⟩
      · rw [hc]
        exact ⟨hpending, fun r hr => Or.inl (hreconnects ▸ hr)⟩
      · rw [hc]
        refine ⟨hpending, fun r hr => ?_⟩
        rcases List.mem_append.mp hr with hr | hr
        · exact Or.inl (hreconnects ▸ hr)
        · exact Or.inr ⟨r', rfl, hlater r hr⟩
  · rename_i r' l
    obtain ⟨hpending, hreconnects⟩ := kept_withPositions a r'.old
    obtain ⟨hpending', hreconnects'⟩ := kept_replaced (a.withPositions r'.old) r' l
    exact hsame (hpending'.trans hpending) (hreconnects'.trans hreconnects)
  · obtain ⟨p, hp⟩ := not_forall.mp h
    obtain ⟨hclosing, hshut⟩ := Classical.not_imp.mp hp
    have hclient : (a.act luck t).client = a.client.mark p := by
      rw [(a.act_closing luck hclosing (by decide)).1, Closing.next, if_neg hshut]
      rfl
    exact hsame (hclient ▸ rfl) (hclient ▸ rfl)

/-- The reconnects that a step of a task plans are for connections that it mentions, and the calls
that it registers are those of calls. -/
theorem Activity.kept_act (a : Activity) (luck : Bool) {t : Task} :
    ((∀ p m parameter progress request l frame,
        t ≠ .invoke p m parameter (.picked progress request l frame)) →
      (a.act luck t).client.pending.calls ⊆ a.client.pending.calls) ∧
    ∀ r ∈ (a.act luck t).client.reconnects, r ∈ a.client.reconnects ∨
      t = .plan r.pool r.old .allowed ∨
      ∃ r', t = .reopen r' .connecting ∧ r.pool = r'.pool ∧ r.old = r'.old := by
  by_cases hcalm : t.IsCalm a.client
  · have hcalm := a.calm_act luck hcalm
    exact ⟨fun _ => hcalm.calls, fun r hr => Or.inl (hcalm.reconnects hr)⟩
  unfold Task.IsCalm at hcalm
  split at hcalm
  · rename_i p slot
    rw [act, attachNext]
    split
    · obtain ⟨link, -, hopened⟩ := a.client.opened_eq p slot
      rw [hopened]
      exact ⟨fun _ => List.Subset.refl _, fun r => Or.inl⟩
    · split <;> exact ⟨fun _ => List.Subset.refl _, fun r => Or.inl⟩
  · refine ⟨fun _ => List.Subset.refl _, fun r hr => ?_⟩
    rcases List.mem_append.mp hr with hr | hr
    · exact Or.inl hr
    · obtain rfl := List.mem_singleton.mp hr
      exact Or.inr (Or.inl rfl)
  · exact ⟨fun h => (h _ _ _ _ _ _ _ rfl).elim, fun r => Or.inl⟩
  · obtain ⟨hpending, hreconnects⟩ := a.kept_act_of_not_isStill luck hcalm
    refine ⟨fun _ => ?_, fun r hr => (hreconnects r hr).imp_right Or.inr⟩
    rw [hpending]
    exact List.Subset.refl _

/-! ### Tasks after a step -/

namespace Activity

section Perform

variable {a : Activity} {t : Task} {k : TaskId} {e : Effect}

theorem mem_perform {u : Task} (hu : u ∈ (a.perform k e).tasks) :
    u ∈ a.tasks ∨ u = e.task ∨ u ∈ e.begun := by
  rcases List.mem_append.mp hu with hu | hu
  · exact (List.mem_or_eq_of_mem_set hu).imp_right Or.inl
  · exact Or.inr (Or.inr hu)

theorem task_mem_perform (ht : a.tasks[k]? = some t) : e.task ∈ (a.perform k e).tasks := by
  have hk := (List.getElem?_eq_some_iff.mp ht).1
  exact List.mem_append_left _ (List.mem_set hk e.task)

/-- After a step of a task there are its new state, the other tasks and those that were begun. -/
theorem getElem?_perform {i : TaskId} {u : Task} (hu : (a.perform k e).tasks[i]? = some u) :
    (i = k ∧ u = e.task) ∨ a.tasks[i]? = some u ∨ a.tasks.length ≤ i ∧ u ∈ e.begun := by
  rw [Activity.perform] at hu
  rcases Nat.lt_or_ge i a.tasks.length with hi | hi
  · rw [List.getElem?_append_left (by rwa [List.length_set])] at hu
    by_cases hik : k = i
    · subst hik
      rw [List.getElem?_set_self hi] at hu
      exact Or.inl ⟨rfl, (Option.some.inj hu).symm⟩
    · rw [List.getElem?_set_ne hik] at hu
      exact Or.inr (Or.inl hu)
  · rw [List.getElem?_append_right (by rwa [List.length_set])] at hu
    exact Or.inr (Or.inr ⟨hi, List.mem_of_getElem? hu⟩)

/-- The other tasks stay as they are. -/
theorem mem_perform_of_ne {u : Task} (ht : a.tasks[k]? = some t) (hu : u ∈ a.tasks)
    (hne : u ≠ t) : u ∈ (a.perform k e).tasks := by
  obtain ⟨i, hi⟩ := List.mem_iff_getElem?.mp hu
  have hik : k ≠ i := by
    rintro rfl
    exact hne (Option.some.inj (hi.symm.trans ht))
  have hset : (a.tasks.set k e.task)[i]? = some u := by
    rw [List.getElem?_set_ne hik, hi]
  exact List.mem_append_left _ (List.mem_of_getElem? hset)

theorem length_le_perform (a : Activity) (k : TaskId) (e : Effect) :
    a.tasks.length ≤ (a.perform k e).tasks.length := by
  rw [Activity.perform, List.length_append, List.length_set]
  exact Nat.le_add_right _ _

/-- Tasks that are begun come after the others. -/
theorem getElem?_begun {begun : List Task} {i : TaskId} {u : Task}
    (hu : (a.tasks ++ begun)[i]? = some u) : a.tasks[i]? = some u ∨ u ∈ begun := by
  rcases Nat.lt_or_ge i a.tasks.length with hi | hi
  · exact Or.inl ((List.getElem?_append_left hi).symm.trans hu)
  · exact Or.inr (List.mem_of_getElem? ((List.getElem?_append_right hi).symm.trans hu))

end Perform

/-! ### Moves -/

/-- A task that is begun from outside. -/
def IsNew (a : Activity) : Task → Prop
  | .connect _ _ .asking | .invoke _ _ _ (.asking _) | .shutdown .asking | .closePool _ .asking =>
    True
  | .describe p (.arrived l _) | .plan p l .asking => a.homes[l]?.map Home.pool = some p
  | .reopen r .connecting => r ∈ a.client.reconnects ∧ a.client.isShutdown r.pool = false
  | _ => False

/-- What a move can do. -/
inductive Stepped (a : Activity) : Activity → Prop
  /-- A task makes its next step. -/
  | task {k : TaskId} {t : Task} (ht : a.tasks[k]? = some t) (luck : Bool) :
    Stepped a (a.perform k (a.act luck t))
  /-- A reconnect is ended. -/
  | abort {k : TaskId} {r : Reconnect} (ht : a.tasks[k]? = some (.reopen r .connecting))
    (hshutdown : a.client.isShutdown r.pool = true) :
    Stepped a (a.perform k { task := .reopen r .ended, client := a.client })
  /-- Something happens from outside. -/
  | outside {c : Client} {begun : List Task} (hcalm : Calm a.client c)
    (hbegun : ∀ u ∈ begun, a.IsNew u) :
    Stepped a { a with client := c, tasks := a.tasks ++ begun }

variable (a : Activity)

theorem stepped_client {c : Client} (hcalm : Calm a.client c) :
    Stepped a { a with client := c } := by
  have h := Stepped.outside hcalm (List.forall_mem_nil a.IsNew)
  rwa [List.append_nil] at h

theorem stepped_begin {u : Task} (hu : a.IsNew u) : Stepped a (a.begin u) :=
  .outside (.refl _) (List.forall_mem_singleton.mpr hu)

theorem stepped_wake (i : Nat) : Stepped a (a.wake i) := by
  rw [wake]
  split
  · exact a.stepped_client (.refl _)
  · rename_i r hr
    have hcalm : Calm a.client { a.client with reconnects := a.client.reconnects.eraseIdx i } :=
      .of_eq rfl rfl id (List.Subset.refl _) (List.eraseIdx_sublist _ i).subset
    dsimp only
    split
    · exact a.stepped_client hcalm
    · rename_i hshut
      exact .outside hcalm (List.forall_mem_singleton.mpr
        ⟨List.mem_of_getElem? hr, Bool.eq_false_iff.mpr hshut⟩)

theorem stepped_abort (k : TaskId) : Stepped a (a.abort k) := by
  rw [Activity.abort]
  split
  · rename_i r ht
    split
    · rename_i hshut
      exact .abort ht hshut
    · exact a.stepped_client (.refl _)
  · exact a.stepped_client (.refl _)

theorem stepped_receive (l : LinkId) (frame : Frame) : Stepped a (a.receive l frame) := by
  rw [Activity.receive]
  split
  · exact a.stepped_client (.refl _)
  · rename_i home hhome
    split
    · refine a.stepped_begin ?_
      rw [IsNew, hhome]
      rfl
    · rename_i htype
      exact a.stepped_client (a.client.calm_receive home.pool l htype)

theorem stepped_lose (l : LinkId) : Stepped a (a.lose l) := by
  rw [lose]
  split
  · rename_i home client hhome hcut
    have hcalm := a.client.calm_cutOff l
    rw [hcut] at hcalm
    refine .outside hcalm (List.forall_mem_singleton.mpr ?_)
    rw [IsNew, hhome]
    rfl
  · exact a.stepped_client (.refl _)

/-- Every move is one of those of `Stepped`. -/
theorem stepped (m : Move) : Stepped a (a.step m) := by
  cases m with
  | task k luck =>
    rw [step]
    split
    · exact a.stepped_client (.refl _)
    · rename_i ht
      exact .task ht luck
  | connect service location => exact a.stepped_begin trivial
  | invoke p m parameter => exact a.stepped_begin trivial
  | shutdown => exact a.stepped_begin trivial
  | shutdownPool p => exact a.stepped_begin trivial
  | close l => exact a.stepped_client (a.client.calm_close l)
  | learn s => exact a.stepped_client (a.client.calm_learn s)
  | frame l frame => exact a.stepped_receive l frame
  | unreadable l e => exact a.stepped_client (a.client.calm_readFailure e)
  | lose l => exact a.stepped_lose l
  | write l =>
    refine a.stepped_client (a.client.calm_onLink l (fun link _ => ?_) fun link _ => ?_) <;>
      rw [Link.takeFrame]
    · split <;> rfl
    · split <;> exact id
  | abandon l => exact a.stepped_client (a.client.calm_onLink l (fun _ _ => rfl) fun _ _ => id)
  | wake i => exact a.stepped_wake i
  | abort k => exact a.stepped_abort k
  | elapse ms =>
    exact a.stepped_client (.of_eq rfl rfl id (List.Subset.refl _) (List.Subset.refl _))

/-- Every move is steady. -/
theorem steady_stepped {a b : Activity} (h : Stepped a b) : Steady a.client b.client := by
  cases h with
  | task ht luck => exact a.steady_act luck _
  | abort ht hshutdown => exact (Calm.refl _).toSteady
  | outside hcalm hbegun => exact hcalm.toSteady

/-- Tasks keep their numbers. -/
theorem length_le_stepped {a b : Activity} (h : Stepped a b) :
    a.tasks.length ≤ b.tasks.length := by
  cases h with
  | task ht luck => exact a.length_le_perform _ _
  | abort ht hshutdown => exact a.length_le_perform _ _
  | outside hcalm hbegun => exact (List.sublist_append_left _ _).length_le

/-- A property that every move preserves holds after every run. -/
theorem run_induction {P : Activity → Prop} (hstep : ∀ a b, Stepped a b → P a → P b)
    {a : Activity} (ha : P a) (moves : List Move) : P (a.run moves) := by
  induction moves generalizing a with
  | nil => exact ha
  | cons m moves ih => exact ih (hstep a (a.step m) (a.stepped m) ha)

end Activity

end RemoteCall.Client
