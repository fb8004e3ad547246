import RemoteCall.Proofs.Client.Attempts
import RemoteCall.Proofs.Client.InFlight
import RemoteCall.Proofs.Client.Stopping

/-!
# What attempts leave behind

An attempt writes its request down twice: in the table of calls that wait and on the connection that
it is sent on. Both traces belong to the task that makes the attempt, whatever else happens, and
both are gone when the attempt ends, whichever way it does: nothing was written down, the connection
does not take the frame after all, an answer or a failure settles the call, the connection is lost,
the wait is over, or the client stops. The steps of a call leave all other entries alone.

That an attempt leaves nothing behind needs requests of their own: an id that was in use before the
call drew it, or that two calls drew, could be found afterwards with somebody else.

## Main definitions

* `Forgotten` : the request is neither in the table nor on a connection.
* `SameBut` : no entries were changed but those of one request.
* `Activity.TracksFor` : a connection remembers the request for a task that has sent it there.
* `Activity.Unused` : the request has no traces, and no call is making it.

## Main results

* `Activity.TracksFor.step` : every move keeps what connections remember with the tasks.
* `Calling.balanced_run` : the requests that a call drew are those of its attempts.
* `Calling.attempts_leave_nothing` : what attempts and lost connections do to the entries.
-/

namespace RemoteCall.Client

variable {c c' : Client} {p : PoolId} {l : LinkId} {r : RequestId}

/-- Neither the table of calls nor a connection knows of the request. -/
structure Forgotten (c : Client) (r : RequestId) : Prop where
  calls : ∀ call ∈ c.pending.calls, call.id ≠ r
  inflight : ∀ l, r ∉ c.inflight l

/-! ### Other entries -/

/-- The entries of other requests are what they were. -/
structure SameBut (r : RequestId) (c c' : Client) : Prop where
  calls : (c'.pending.calls.filter fun call => call.id != r) =
    c.pending.calls.filter fun call => call.id != r
  inflight : ∀ l, (c'.inflight l).filter (· != r) = (c.inflight l).filter (· != r)

namespace SameBut

theorem of_eq (hpending : c'.pending = c.pending) (hlinks : c'.links = c.links) :
    SameBut r c c' where
  calls := by rw [hpending]
  inflight l := by rw [Client.inflight, Client.inflight, link?, link?, hlinks]

theorem trans {c'' : Client} (h : SameBut r c c') (h' : SameBut r c' c'') : SameBut r c c'' where
  calls := h'.calls.trans h.calls
  inflight l := (h'.inflight l).trans (h.inflight l)

/-- A change to what a connection remembers of the request. -/
theorem onLink (c : Client) (l : LinkId) {f : Link → Link}
    (h : ∀ link, c.link? l = some link →
      (f link).inflight.filter (· != r) = link.inflight.filter (· != r)) :
    SameBut r c (c.onLink l f) where
  calls := rfl
  inflight m := by
    by_cases hlm : l = m
    · subst hlm
      rw [inflight_onLink_self, Client.inflight]
      cases hlink : c.link? l with
      | none => rfl
      | some link => exact h link hlink
    · rw [inflight_onLink_of_ne c f hlm]

/-- The call of the request leaves the table. -/
theorem settle (c : Client) (r : RequestId) (how : PendingCall → Settlement) :
    SameBut r c { c with pending := (c.pending.settle r how).2 } where
  calls := by
    rw [Pending.calls_settle_eq, List.filter_filter]
    simp only [Bool.and_self]
  inflight _ := rfl

theorem finish (c : Client) (s : Sent) (how : Waited) :
    SameBut s.request c (c.finish s how).2 := by
  have huntrack : SameBut s.request c (c.onLink s.link fun link => link.untrack s.request) := by
    refine .onLink c s.link fun link _ => ?_
    rw [Link.untrack, List.filter_filter]
    simp only [Bool.and_self]
  cases how with
  | answered result => cases result <;> exact huntrack
  | dropped => exact huntrack
  | timedOut => exact huntrack.trans (.settle _ s.request fun _ => .dropped)

/-- A call is registered, in place of one of the same request. -/
theorem register (c : Client) (r : RequestId) (serializer : Serializer) :
    SameBut r c { c with pending := (c.pending.register r serializer).2 } where
  calls := by
    have hremoved := (SameBut.settle c r fun _ => .dropped).calls
    change ((c.pending.remove r).2.calls ++ [_]).filter (fun call : PendingCall => call.id != r) = _
    rw [List.filter_append]
    simpa [Pending.remove] using hremoved
  inflight _ := rfl

/-- A step of a call changes no entries but those of its own request. -/
theorem next (c : Client) (p : PoolId) (m : Method) (parameter : Value) (timedOut : Bool)
    {s : Invoking} (h : ∀ own, s.request? = some own → own = r) :
    SameBut r c (s.next c p m parameter timedOut).2 := by
  cases s with
  | asking progress => exact .of_eq rfl rfl
  | allowed progress =>
    have hnext : SameBut r c c.nextId.2 := by
      rw [nextId]
      split <;> exact .of_eq rfl rfl
    refine hnext.trans ?_
    rw [Invoking.next]
    dsimp only
    split
    · exact .of_eq rfl rfl
    · split <;> exact .of_eq rfl rfl
  | picked progress request l frame =>
    obtain rfl := h request rfl
    exact .register c request m.returnSerializer
  | registered progress s frame =>
    obtain rfl := h s.request rfl
    refine .onLink c s.link fun link _ => ?_
    rw [Link.track]
    split
    · rfl
    · simp
  | tracked progress s frame =>
    obtain rfl := h s.request rfl
    rw [Invoking.next]
    split
    · rename_i link hsent
      obtain ⟨link', hlink, hsend⟩ := Option.bind_eq_some_iff.mp hsent
      refine .onLink c s.link fun m hm => ?_
      obtain rfl := Option.some.inj (hlink.symm.trans hm)
      rw [inflight_of_send? hsend]
    · exact .finish c s .timedOut
  | waiting progress s =>
    obtain rfl := h s.request rfl
    rw [Invoking.next]
    split
    · exact .finish c s .timedOut
    · split
      · exact .of_eq rfl rfl
      · exact .finish c s _
      · exact .finish c s .dropped
      · exact .finish c s .dropped
  | returned result => exact .of_eq rfl rfl

end SameBut

/-! ### What connections remember, and for whom -/

/-- The request that a connection remembers for the task. -/
def Task.tracked? : Task → Option Sent
  | invoke _ _ _ (.tracked _ s _) | invoke _ _ _ (.waiting _ s) => some s
  | _ => none

/-- A task that has sent a request is a call that makes it. -/
theorem Task.request?_of_sent? {t : Task} {s : Sent} (h : t.sent? = some s) :
    ∃ stage, t.stage? = some stage ∧ stage.request? = some s.request := by
  unfold sent? at h
  split at h <;> cases h <;> exact ⟨_, rfl, rfl⟩

theorem Task.sent?_of_tracked? {t : Task} {s : Sent} (h : t.tracked? = some s) :
    t.sent? = some s := by
  unfold tracked? at h
  split at h <;> cases h <;> rfl

namespace Activity

/-- A connection that remembers the request does so for a task that has sent it there, or is about
to. -/
def TracksFor (a : Activity) (r : RequestId) : Prop :=
  ∀ l, r ∈ a.client.inflight l →
    ∃ t ∈ a.tasks, ∃ s, t.tracked? = some s ∧ s.request = r ∧ s.link = l

namespace TracksFor

variable {a : Activity} {t : Task} {k : TaskId} {e : Effect}

/-- A task makes a step. What a connection remembers for it, it still does, or this is gone. -/
theorem perform (h : a.TracksFor r) (ht : a.tasks[k]? = some t)
    (hinflight : ∀ l, r ∈ e.client.inflight l → (r ∈ a.client.inflight l ∧
      ∀ s, t.tracked? = some s → s.request = r → s.link = l → e.task.tracked? = some s) ∨
      ∃ s, e.task.tracked? = some s ∧ s.request = r ∧ s.link = l) :
    (a.perform k e).TracksFor r := by
  intro l hl
  rcases hinflight l hl with ⟨hold, hkept⟩ | hself
  · obtain ⟨u, hu, s, hs, hrequest, hlink⟩ := h l hold
    by_cases hut : u = t
    · subst hut
      exact ⟨e.task, task_mem_perform ht, s, hkept s hs hrequest hlink, hrequest, hlink⟩
    · exact ⟨u, mem_perform_of_ne ht hu hut, s, hs, hrequest, hlink⟩
  · exact ⟨e.task, task_mem_perform ht, hself⟩

/-- A task goes on with the request that a connection remembers for it. -/
theorem kept (h : a.TracksFor r) (ht : a.tasks[k]? = some t) (hforgets : Forgets a.client e.client)
    (htracked : ∀ s, t.tracked? = some s → e.task.tracked? = some s) :
    (a.perform k e).TracksFor r :=
  h.perform ht fun l hl => Or.inl ⟨hforgets l hl, fun s hs _ _ => htracked s hs⟩

/-- A task ends its attempt. -/
theorem finished {s : Sent} {how : Client.Waited} (h : a.TracksFor r) (ht : a.tasks[k]? = some t)
    (hsent : t.tracked? = some s) (hclient : e.client = (a.client.finish s how).2) :
    (a.perform k e).TracksFor r := by
  refine h.perform ht fun l hl => Or.inl ?_
  rw [hclient] at hl
  refine ⟨a.client.forgets_finish s how l hl, fun s' hs' hrequest hlink => ?_⟩
  cases hsent.symm.trans hs'
  subst hrequest hlink
  exact (a.client.not_mem_inflight_finish s how hl).elim

/-- A call goes on. -/
theorem invoke {m : Method} {parameter : Value} {s : Invoking} (h : a.TracksFor r)
    (ht : a.tasks[k]? = some (.invoke p m parameter s)) (luck : Bool) :
    (a.perform k (a.act luck (.invoke p m parameter s))).TracksFor r := by
  have hidle (htracked : (Task.invoke p m parameter s).tracked? = none)
      (htracks : (Task.invoke p m parameter s).tracks = false) :
      (a.perform k (a.act luck (.invoke p m parameter s))).TracksFor r :=
    h.kept ht (a.forgets_act luck htracks) fun s' hs' => by cases htracked.symm.trans hs'
  cases s with
  | asking progress => exact hidle rfl rfl
  | allowed progress => exact hidle rfl rfl
  | picked progress request l frame => exact hidle rfl rfl
  | registered progress s frame =>
    refine h.perform ht fun l hl => ?_
    rcases mem_inflight_track hl with hold | ⟨rfl, rfl⟩
    · exact Or.inl ⟨hold, by rintro _ ⟨⟩⟩
    · exact Or.inr ⟨s, rfl, rfl, rfl⟩
  | tracked progress s frame =>
    have hforgets := a.forgets_act luck (t := .invoke p m parameter (.tracked progress s frame)) rfl
    rw [act, Invoking.next] at hforgets ⊢
    split at hforgets
    · exact h.kept ht hforgets fun _ => id
    · exact h.finished ht rfl rfl
  | waiting progress s =>
    rw [act, Invoking.next]
    split
    · exact h.finished ht rfl rfl
    · split
      · exact h.kept ht (.of_links rfl) fun _ => id
      all_goals exact h.finished ht rfl rfl
  | returned result => exact hidle rfl rfl

/-- Every step of a task keeps what connections remember with the tasks. -/
theorem act (h : a.TracksFor r) (ht : a.tasks[k]? = some t) (luck : Bool) :
    (a.perform k (a.act luck t)).TracksFor r := by
  by_cases hinvoke : t.job.isCall = true
  · obtain ⟨p, m, parameter, s, rfl⟩ := Task.eq_invoke_of_isCall hinvoke
    exact h.invoke ht luck
  · have htracks : t.tracks = false := by
      cases t with
      | invoke p m parameter s => exact (hinvoke rfl).elim
      | _ => rfl
    refine h.kept ht (a.forgets_act luck htracks) fun s hs => ?_
    exact (hinvoke (Task.of_sent? (Task.sent?_of_tracked? hs)).1).elim

/-- Every move keeps what connections remember with the tasks. -/
theorem step (h : a.TracksFor r) (m : Move) : (a.step m).TracksFor r := by
  rcases a.forgets_or_task m with hforgets | ⟨k, t, luck, ht, hstep⟩
  · have hs := a.stepped m
    generalize a.step m = b at hforgets hs
    cases hs with
    | task ht luck => exact h.act ht luck
    | abort ht hshut => exact h.kept ht hforgets (by rintro _ ⟨⟩)
    | outside hcalm hbegun =>
      intro l hl
      obtain ⟨t, ht, htracked⟩ := h l (hforgets l hl)
      exact ⟨t, List.mem_append_left _ ht, htracked⟩
  · rw [hstep]
    exact h.act ht luck

theorem run (h : a.TracksFor r) (moves : List Move) : (a.run moves).TracksFor r := by
  induction moves generalizing a with
  | nil => exact h
  | cons m moves ih => exact ih (h.step m)

end TracksFor

end Activity

/-! ### Requests and calls -/

/-- The request of the attempt that the call of this number is making. -/
def Activity.underway? (a : Activity) (k : TaskId) : Option RequestId :=
  (a.stage? k).bind Invoking.request?

/-- The request has no traces, and no call is making it. -/
structure Activity.Unused (a : Activity) (r : RequestId) : Prop where
  forgotten : a.client.Forgotten r
  idle : ∀ k, a.underway? k ≠ some r

/-- A request for which no call is underway has no traces. -/
theorem Activity.forgotten_of_idle {a : Activity} (hattends : a.AttendsTo r)
    (htracks : a.TracksFor r) (hidle : ∀ k, a.underway? k ≠ some r) : a.client.Forgotten r := by
  have hnone {t : Task} {s : Sent} (ht : t ∈ a.tasks) (hsent : t.sent? = some s) :
      s.request ≠ r := by
    obtain ⟨k, hk⟩ := List.mem_iff_getElem?.mp ht
    obtain ⟨stage, hstage, hrequest⟩ := Task.request?_of_sent? hsent
    rintro rfl
    refine hidle k ?_
    rw [underway?, stage?, hk, Option.bind_some, hstage, Option.bind_some, hrequest]
  constructor
  · rintro call hcall rfl
    obtain ⟨t, ht, s, hsent, hrequest, -⟩ := hattends call hcall rfl
    exact hnone ht hsent hrequest
  · intro l hl
    obtain ⟨t, ht, s, htracked, hrequest, -⟩ := htracks l hl
    exact hnone ht (Task.sent?_of_tracked? htracked) hrequest

theorem mem_entries {α : Type} {k : TaskId} {x : α} {log : List (TaskId × α)} :
    x ∈ entries k log ↔ (k, x) ∈ log := by
  rw [entries, List.mem_filterMap]
  constructor
  · rintro ⟨⟨i, y⟩, hmem, hentry⟩
    split at hentry <;> cases hentry
    rename_i hik
    rwa [← hik]
  · intro hmem
    exact ⟨(k, x), hmem, if_pos rfl⟩

theorem entries_sublist {α : Type} (k : TaskId) (log : List (TaskId × α)) :
    (entries k log).Sublist (log.map Prod.snd) := by
  induction log with
  | nil => exact .slnil
  | cons entry log ih =>
    rw [entries, List.filterMap_cons, List.map_cons]
    split
    · exact ih.cons _
    · rename_i hentry
      split at hentry <;> cases hentry
      exact ih.cons_cons _

namespace Calling

/-- The requests of the attempts that are over and of the one underway are those that the call drew,
and the one that it was making at first. -/
def Balanced (a : Activity) (s : Calling) : Prop :=
  ∀ k, (s.activity.underway? k).toList ++ (entries k s.tried).map Tried.request =
    entries k s.drawn ++ (a.underway? k).toList

variable {a : Activity} {s : Calling}

/-- Every move keeps the requests of the calls in balance. -/
theorem Balanced.step (h : Balanced a s) (m : Move) : Balanced a (s.step m) := by
  intro i
  rw [Calling.step]
  dsimp only
  rcases s.activity.stage?_step m with
    ⟨k, luck, p, method, parameter, stage, hstage, hdrawn, htried, hnext, hothers⟩ |
    ⟨hdrawn, htried, hothers⟩
  · rw [hdrawn, htried]
    by_cases hik : i = k
    · subst hik
      have hrequests := (stage.advance_next s.activity.client p method parameter (!luck)).requests
      have hbefore := h i
      rw [Activity.underway?, hstage, Option.bind_some] at hbefore
      rw [entries_self, entries_self, Activity.underway?, hnext, Option.bind_some, List.map_append,
        ← List.append_assoc, hrequests, List.append_assoc, hbefore, List.append_assoc]
    · rw [entries_of_ne hik, entries_of_ne hik, Activity.underway?, hothers i hik]
      exact h i
  · rw [hdrawn, htried]
    have hsame : (s.activity.step m).underway? i = s.activity.underway? i := by
      rw [Activity.underway?, Activity.underway?]
      rcases hothers i with hsame | ⟨hnone, hbegun⟩
      · rw [hsame]
      · rw [hnone, hbegun]
        rfl
    rw [hsame]
    exact h i

theorem balanced_run (a : Activity) (moves : List Move) :
    Balanced a ((Calling.mk a [] []).run moves) := by
  suffices h : ∀ s, Balanced a s → Balanced a (s.run moves) from
    h _ fun k => List.append_nil _
  induction moves with
  | nil => exact fun _ h => h
  | cons m moves ih => exact fun s h => ih (s.step m) (h.step m)

/-- A request that no call was making at first was drawn by the call that tried it or is making
it. -/
theorem Balanced.mem_drawn (h : Balanced a s) {k : TaskId} (hfresh : a.underway? k ≠ some r)
    (hr : r ∈ (s.activity.underway? k).toList ++ (entries k s.tried).map Tried.request) :
    (k, r) ∈ s.drawn := by
  rw [h k] at hr
  rcases List.mem_append.mp hr with hr | hr
  · exact mem_entries.mp hr
  · exact (hfresh (Option.mem_toList.mp hr)).elim

/-- Two calls that drew the same request are one, if it was drawn once. -/
theorem eq_of_mem_drawn {drawn : List (TaskId × RequestId)}
    (honce : (drawn.map Prod.snd).count r ≤ 1) {i k : TaskId} (hi : (i, r) ∈ drawn)
    (hk : (k, r) ∈ drawn) : i = k := by
  have hlength : (drawn.filter fun entry => entry.2 == r).length ≤ 1 := by
    rw [← List.countP_eq_length_filter]
    rwa [List.count, List.countP_map] at honce
  have hmem {n : TaskId} (hn : (n, r) ∈ drawn) : (n, r) ∈ drawn.filter fun entry => entry.2 == r :=
    List.mem_filter.mpr ⟨hn, beq_self_eq_true r⟩
  have hi := hmem hi
  have hk := hmem hk
  generalize drawn.filter (fun entry => entry.2 == r) = same at hlength hi hk
  match same, hlength with
  | [entry], _ =>
    exact congrArg Prod.fst ((List.mem_singleton.mp hi).trans (List.mem_singleton.mp hk).symm)

/-- The request of an attempt that is over is not made again. -/
theorem Balanced.idle (h : Balanced a s) (honce : (s.drawn.map Prod.snd).count r ≤ 1)
    (hfresh : ∀ i, a.underway? i ≠ some r) {k : TaskId} {t : Tried} (ht : (k, t) ∈ s.tried)
    (hr : t.request = r) (i : TaskId) : s.activity.underway? i ≠ some r := by
  intro hi
  have htried : r ∈ (entries k s.tried).map Tried.request :=
    hr ▸ List.mem_map_of_mem (mem_entries.mpr ht)
  have hk := h.mem_drawn (hfresh k) (List.mem_append_right _ htried)
  have hdrawn : (i, r) ∈ s.drawn := by
    refine h.mem_drawn (hfresh i) (List.mem_append_left _ ?_)
    rw [hi]
    exact List.mem_singleton_self _
  obtain rfl := eq_of_mem_drawn honce hdrawn hk
  -- The call has drawn the request for the attempt that is over and for the one underway.
  have hbalance := congrArg (List.count r) (h i)
  have hle := Nat.le_trans ((entries_sublist i s.drawn).count_le r) honce
  have hnone : (a.underway? i).toList.count r = 0 :=
    List.count_eq_zero.mpr fun hmem => hfresh i (Option.mem_toList.mp hmem)
  have htwice := List.count_pos_iff.mpr htried
  rw [List.count_append, List.count_append, hi, Option.toList_some, List.count_singleton_self,
    hnone] at hbalance
  omega

/-- A request is remembered on the connection that it was sent on, and on no other. -/
theorem Balanced.link_eq (h : Balanced a s) (honce : (s.drawn.map Prod.snd).count r ≤ 1)
    (hfresh : ∀ i, a.underway? i ≠ some r) (htracks : s.activity.TracksFor r) {t : Task}
    {sent : Sent} (ht : t ∈ s.activity.tasks) (hsent : t.sent? = some sent)
    (hr : sent.request = r) {l : LinkId} (hl : r ∈ s.activity.client.inflight l) :
    l = sent.link := by
  have hdrawn {u : Task} {other : Sent} (hu : u.sent? = some other) (hrequest : other.request = r)
      {k : TaskId} (hk : s.activity.tasks[k]? = some u) : (k, r) ∈ s.drawn := by
    obtain ⟨stage, hstage, hmaking⟩ := Task.request?_of_sent? hu
    refine h.mem_drawn (hfresh k) (List.mem_append_left _ ?_)
    rw [Activity.underway?, Activity.stage?, hk, Option.bind_some, hstage, Option.bind_some,
      hmaking, hrequest]
    exact List.mem_singleton_self _
  obtain ⟨u, hu, other, htracked, hrequest, hlink⟩ := htracks l hl
  obtain ⟨k, hk⟩ := List.mem_iff_getElem?.mp ht
  obtain ⟨i, hi⟩ := List.mem_iff_getElem?.mp hu
  have hother := Task.sent?_of_tracked? htracked
  obtain rfl := eq_of_mem_drawn honce (hdrawn hsent hr hk) (hdrawn hother hrequest hi)
  obtain rfl := Option.some.inj (hk.symm.trans hi)
  obtain rfl := Option.some.inj (hsent.symm.trans hother)
  exact hlink.symm

/-- Nothing is known of any request in a client that was not asked for anything. -/
theorem unused_start (config : ClientConfig) (serializers : Serializers)
    (directory : Option Directory) (worker : UInt64) (r : RequestId) :
    (Activity.start config serializers directory worker).Unused r where
  forgotten := ⟨List.forall_mem_nil _, fun _ => List.not_mem_nil⟩
  idle _ := by rintro ⟨⟩

/-- An attempt leaves nothing behind. Take a request that is not in use in the state, whatever it
is, from which a run starts, and that is drawn at most once: when an attempt with this request is
over, by whichever way and whatever else happened, the request is neither in the table of calls nor
on a connection; and as long as it is underway, losing a connection other than its own leaves its
call in the table. A step of a call changes no entries but those of its own request. A connection
that is lost while it is in use takes along the calls that it remembers and no others, and to lose it
again, however much later, changes nothing. In a run from the start no request is in use at first,
and none is drawn twice while the clock is within its bits. -/
theorem attempts_leave_nothing (a : Activity) (moves : List Move) :
    let s := (Calling.mk a [] []).run moves
    (∀ r, a.Unused r → (s.drawn.map Prod.snd).count r ≤ 1 →
      (∀ k t, (k, t) ∈ s.tried → t.request = r → s.activity.client.Forgotten r) ∧
        ∀ t ∈ s.activity.tasks, ∀ sent l, t.sent? = some sent → sent.request = r → l ≠ sent.link →
          ∀ call ∈ s.activity.client.pending.calls, call.id = r →
            call ∈ (s.activity.step (.lose l)).client.pending.calls) ∧
    (∀ c p m parameter timedOut stage r, (∀ own, Invoking.request? stage = some own → own = r) →
      SameBut r c (stage.next c p m parameter timedOut).2) ∧
    (∀ (c : Client) p l, c.isActive l = true →
      Drops c (c.lost p l) l ∧ ∀ q, (c.lost p l).lost q l = c.lost p l) ∧
    (∀ l home, s.activity.homes[l]? = some home → s.activity.client.isActive l = true →
      Drops s.activity.client (s.activity.step (.lose l)).client l ∧
        ∀ later, ((s.activity.step (.lose l)).run later).step (.lose l) =
          (s.activity.step (.lose l)).run later) ∧
    ∀ config serializers directory worker, a = .start config serializers directory worker →
      (∀ r, a.Unused r) ∧ (s.activity.client.nowMs + 1 < 2 ^ 42 →
        ∀ r, (s.drawn.map Prod.snd).count r ≤ 1) := by
  intro s
  have hactivity : s.activity = a.run moves := activity_run _ moves
  have hbalanced : Balanced a s := balanced_run a moves
  refine ⟨fun r hr honce => ?_, fun c p m parameter timedOut stage r =>
    SameBut.next c p m parameter timedOut, fun c p l hactive => ?_,
    fun l home hhome hactive => ?_, ?_⟩
  · have hattends : s.activity.AttendsTo r := by
      rw [hactivity]
      refine Activity.run_induction (fun _ _ => Activity.AttendsTo.stepped) ?_ moves
      exact fun call hcall hid => (hr.forgotten.calls call hcall hid).elim
    have htracks : s.activity.TracksFor r := by
      rw [hactivity]
      exact Activity.TracksFor.run (fun l hl => (hr.forgotten.inflight l hl).elim) moves
    refine ⟨fun k t ht htr => ?_, fun t ht sent l hsent hrequest hl call hcall hid => ?_⟩
    · exact Activity.forgotten_of_idle hattends htracks (hbalanced.idle honce hr.idle ht htr)
    · refine Activity.mem_calls_lose hcall fun hremembered => hl ?_
      rw [hid] at hremembered
      exact hbalanced.link_eq honce hr.idle htracks ht hsent hrequest hremembered
  · have hdrops := drops_lost hactive p
    exact ⟨hdrops, lost_of_not_isActive hdrops.isActive⟩
  · exact ⟨Activity.drops_lose hhome hactive, Activity.lose_again hhome hactive⟩
  · rintro config serializers directory worker rfl
    have hsound : s.Sound config :=
      sound_run (sound_start config serializers directory worker) moves
    refine ⟨unused_start config serializers directory worker, fun hbound => ?_⟩
    exact List.nodup_iff_count_le_one.mp
      ((hsound.issued hbound).decreasing.imp fun hlt => (UInt64.ne_of_lt hlt).symm)

/-- A client with two connections. The first one is on the ring of the only pool, the second one
remembers a call that waits. -/
def besideAnother : Activity :=
  let link (index : UInt64) : Link := .active ⟨.loopback 9000, index, false, []⟩ 8
  let pool := Pool.new 1 (.address (.loopback 9000))
  { client :=
      { Client.new oneRetry .standard none 1 with
        pending := (Pending.empty.register 7 .empty).2
        links := [link 0, (link 1).track 7]
        pools := [{ pool with ring := ⟨[(0, 0)]⟩ }] }
    homes := [⟨0, 0⟩, ⟨0, 1⟩]
    tasks := [] }

/-- A call is made and sent, and waits. -/
def callThatWaits : List Move :=
  .invoke 0 (.ofInfo 1 ⟨"ping", "N/A", "N/A", 1⟩ .standard) .empty ::
    List.replicate 5 (.task 0 true)

/-- The call stays when the other connection is lost, and leaves nothing behind when its own is lost
as well. -/
theorem attempts_leave_nothing_beside_another :
    let r := RequestId.pack 1 1 0
    let waits := (Calling.mk besideAnother [] []).run callThatWaits
    let ended := (Calling.mk besideAnother [] []).run
      (callThatWaits ++ [.lose 1, .lose 0, .task 0 true])
    besideAnother.Unused r ∧
      (∃ call ∈ (waits.activity.step (.lose 1)).client.pending.calls, call.id = r) ∧
      (∃ entry ∈ ended.tried, entry.1 = 0 ∧ entry.2.request = r) ∧
      ended.activity.client.Forgotten r := by
  intro r waits ended
  have hunused : besideAnother.Unused r :=
    { forgotten := ⟨by decide +kernel, fun
        | 0 => by decide +kernel
        | 1 => by decide +kernel
        | _ + 2 => List.not_mem_nil⟩
      idle := fun _ => by rintro ⟨⟩ }
  have hsent : waits.activity.tasks[0]?.bind Task.sent? = some ⟨r, 1, 0⟩ := by decide +kernel
  have hcall : ∃ call ∈ waits.activity.client.pending.calls, call.id = r := by decide +kernel
  have htried : ∃ entry ∈ ended.tried, entry.1 = 0 ∧ entry.2.request = r := by decide +kernel
  have hwaits := ((attempts_leave_nothing besideAnother callThatWaits).1 r hunused
    (by decide +kernel)).2
  have hended := ((attempts_leave_nothing besideAnother
    (callThatWaits ++ [.lose 1, .lose 0, .task 0 true])).1 r hunused (by decide +kernel)).1
  refine ⟨hunused, ?_, htried, ?_⟩
  · obtain ⟨t, ht, hsent⟩ := Option.bind_eq_some_iff.mp hsent
    obtain ⟨call, hcall, hid⟩ := hcall
    exact ⟨call, hwaits t (List.mem_of_getElem? ht) _ 1 hsent rfl (by decide) call hcall hid, hid⟩
  · obtain ⟨⟨k, t⟩, ht, -, hr⟩ := htried
    exact hended k t ht hr

end Calling

end RemoteCall.Client
