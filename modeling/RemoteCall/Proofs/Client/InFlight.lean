import RemoteCall.Proofs.Client.Closing

/-!
# Requests that connections remember

A connection remembers the requests that were sent on it and not answered. It learns of a request
from the call that makes it, in a step of its own; no other step makes a connection remember
anything. What a lost connection remembers is forgotten together with the calls that wait for it.

## Main definitions

* `inflight` : the requests that a connection remembers.
* `Forgets` : no connection remembers more than before.
* `Drops` : what is left when a connection was lost.

## Main results

* `Activity.forgets_act` : of the steps of tasks only the tracking of a request adds to what is
  remembered.
* `Activity.forgets_or_task` : moves that are no steps of tasks add nothing.
* `drops_lost` : a connection that is lost while it is in use drops what it remembers.
-/

namespace RemoteCall.Client

variable {c c' c'' : Client} {p : PoolId} {l m : LinkId} {r : RequestId}

/-- The requests that a connection remembers. -/
def inflight (c : Client) (l : LinkId) : List RequestId :=
  ((c.link? l).map Link.inflight).getD []

/-- No connection remembers more than before. -/
def Forgets (c c' : Client) : Prop :=
  ∀ l, c'.inflight l ⊆ c.inflight l

namespace Forgets

theorem trans (h : Forgets c c') (h' : Forgets c' c'') : Forgets c c'' :=
  fun l => List.Subset.trans (h' l) (h l)

theorem of_eq (h : ∀ l, c'.inflight l = c.inflight l) : Forgets c c' := by
  intro l
  rw [h]
  exact List.Subset.refl _

theorem of_links (h : c'.links = c.links) : Forgets c c' :=
  .of_eq fun l => by rw [inflight, inflight, link?, link?, h]

end Forgets

/-! ### Changes to connections -/

theorem inflight_of_link? {link : Link} (h : c.link? l = some link) :
    c.inflight l = link.inflight := by
  rw [inflight, h]
  rfl

theorem inflight_onLink_of_ne (c : Client) (f : Link → Link) (h : l ≠ m) :
    (c.onLink l f).inflight m = c.inflight m := by
  rw [inflight, inflight, link?_onLink]
  cases c.link? m <;> simp [h]

theorem inflight_onLink_self (c : Client) (l : LinkId) (f : Link → Link) :
    (c.onLink l f).inflight l = ((c.link? l).map fun link => (f link).inflight).getD [] := by
  rw [inflight, link?_onLink]
  cases c.link? l <;> simp

theorem forgets_onLink (c : Client) (l : LinkId) {f : Link → Link}
    (h : ∀ link, c.link? l = some link → (f link).inflight ⊆ link.inflight) :
    Forgets c (c.onLink l f) := by
  intro m
  by_cases hlm : l = m
  · subst hlm
    rw [inflight_onLink_self, inflight]
    cases hlink : c.link? l with
    | none => exact List.Subset.refl _
    | some link => exact h link hlink
  · rw [inflight_onLink_of_ne c f hlm]
    exact List.Subset.refl _

/-- A new connection remembers nothing. -/
theorem forgets_addLink (c : Client) {link : Link} (h : link.inflight = []) :
    Forgets c (c.addLink link).2 := by
  intro m
  rcases Nat.lt_trichotomy m c.links.length with hm | rfl | hm
  · rw [inflight, link?_addLink c link hm]
    exact List.Subset.refl _
  · rw [inflight_of_link? (c.link?_addLink_self link), h]
    exact List.nil_subset _
  · rw [inflight, link?, addLink, List.getElem?_eq_none]
    · exact List.nil_subset _
    · rw [List.length_append, List.length_singleton]
      exact hm

theorem inflight_of_send? {link link' : Link} {frame : Bytes} (h : link.send? frame = some link') :
    link'.inflight = link.inflight := by
  rw [Link.send?, Option.map_eq_some_iff] at h
  obtain ⟨q, -, rfl⟩ := h
  rfl

theorem inflight_transition (link : Link) (source target : LinkState) :
    (link.transition source target).2.inflight = link.inflight := by
  rw [Link.transition]
  split <;> rfl

theorem forgets_opened (c : Client) (p : PoolId) (slot : Slot) : Forgets c (c.opened p slot).2 := by
  rw [opened]
  split
  · exact c.forgets_addLink rfl
  · rename_i pool _
    split
    · exact c.forgets_addLink rfl
    · refine c.forgets_addLink ?_
      cases hsend : (Link.active slot c.config.writeQueueCapacity).send? (c.probe pool.service) with
      | none => rfl
      | some link => exact inflight_of_send? hsend

theorem forgets_close (c : Client) (l : LinkId) : Forgets c (c.onLink l Link.close) :=
  c.forgets_onLink l fun link _ => List.Subset.refl link.inflight

theorem forgets_putOnRing (c : Client) (p : PoolId) (l : LinkId) : Forgets c (c.putOnRing p l) := by
  rw [putOnRing]
  split
  · exact .of_links rfl
  · exact Forgets.trans (.of_links rfl)
      (forgets_onLink _ l fun link _ => List.Subset.refl link.inflight)

theorem forgets_recheck (c : Client) (p : PoolId) (l : LinkId) : Forgets c (c.recheck p l) := by
  rw [recheck]
  split
  · exact c.forgets_close l
  · exact .of_links rfl

theorem inflight_plan (c : Client) (p : PoolId) (l m : LinkId) :
    (c.plan p l).inflight m = c.inflight m := by
  change (c.onLink l fun link => (link.transition .inactive .reconnectScheduled).2).inflight m = _
  by_cases hlm : l = m
  · subst hlm
    rw [inflight_onLink_self]
    simp only [inflight_transition]
    rfl
  · exact inflight_onLink_of_ne c _ hlm

theorem forgets_withPositions (a : Activity) (l : LinkId) :
    Forgets a.client (a.withPositions l) := by
  rw [Activity.withPositions]
  split
  · exact .of_links rfl
  · exact a.client.forgets_onLink l fun link _ => List.Subset.refl link.inflight

/-! ### Steps that leave the connections alone -/

theorem links_install {info : ServiceInfo} {address : SocketAddress}
    (h : c.install p info address = .ok c') : c'.links = c.links := by
  rw [install] at h
  split at h
  · cases h
    rfl
  split at h
  · cases h
  split at h <;> cases h
  rfl

theorem links_understand (c : Client) (p : PoolId) (l : LinkId) (body : Bytes) :
    (c.understand p l body).2.links = c.links := by
  rw [understand]
  split
  · rfl
  · rfl
  · split
    · rfl
    · rename_i hinstall
      exact links_install hinstall

theorem links_settleNumber (c : Client) (p : PoolId) :
    (c.settleNumber p).2.links = c.links := by
  rw [settleNumber]
  split <;> rfl

theorem links_readyIfKnown (c : Client) (p : PoolId) (service : ServiceId) :
    (c.readyIfKnown p service).links = c.links := by
  rw [readyIfKnown]
  split <;> rfl

theorem links_firstSlots {pool : Pool} {slots : List Slot}
    (h : c.firstSlots p pool = .ok (slots, c')) : c'.links = c.links := by
  rw [firstSlots] at h
  split at h
  · rw [resolve] at h
    split at h
    · cases h
    split at h
    · cases h
    split at h
    · cases h
      rfl
    · dsimp only [bind, Except.bind] at h
      split at h
      · cases h
      · rename_i hinstall
        cases h
        have hlinks := links_install hinstall
        exact hlinks
  · cases h
    rfl

theorem links_receive (c : Client) (p : PoolId) (l : LinkId) {frame : Frame}
    (h : frame.header.type ≠ .metadata) : (c.receive p l frame).2.links = c.links := by
  rw [receive]
  cases htype : frame.header.type with
  | metadata => exact (h htype).elim
  | abnormal =>
    dsimp only
    split <;> rfl
  | _ => rfl

theorem links_readFailure (c : Client) (e : Error) : (c.readFailure e).2.links = c.links := by
  cases e with
  | rpc fault call => cases call <;> rfl
  | _ => rfl

/-! ### Steps of tasks -/

theorem Closing.forgets_next (c : Client) (p : PoolId) (s : Closing) :
    Forgets c (s.next c p).2 := by
  cases s with
  | asking =>
    rw [Closing.next]
    split <;> exact .of_links rfl
  | sweeping left =>
    cases left with
    | nil => exact .of_links rfl
    | cons l left => exact c.forgets_close l
  | _ => exact .of_links rfl

theorem Stopping.forgets_next (c : Client) (s : Stopping) : Forgets c (s.next c).2 := by
  cases s with
  | asking =>
    rw [Stopping.next]
    split <;> exact .of_links rfl
  | closing p total s =>
    rw [Stopping.next]
    split
    · exact .of_links rfl
    · split
      · exact .of_links rfl
      · exact s.forgets_next c p
  | failing total left => cases left <;> exact .of_links rfl
  | _ => exact .of_links rfl

theorem forgets_finish (c : Client) (s : Sent) (how : Waited) : Forgets c (c.finish s how).2 := by
  have huntrack : Forgets c (c.onLink s.link fun link => link.untrack s.request) :=
    c.forgets_onLink s.link fun link _ => List.filter_sublist.subset
  cases how with
  | answered result => cases result <;> exact huntrack
  | dropped => exact huntrack
  | timedOut => exact huntrack.trans (.of_links rfl)

/-- A call that is over is not remembered on its connection. -/
theorem not_mem_inflight_finish (c : Client) (s : Sent) (how : Waited) :
    s.request ∉ (c.finish s how).2.inflight s.link := by
  have huntrack : s.request ∉
      (c.onLink s.link fun link => link.untrack s.request).inflight s.link := by
    rw [inflight_onLink_self]
    cases c.link? s.link with
    | none => exact List.not_mem_nil
    | some link => simp [Link.untrack]
  cases how with
  | answered result => cases result <;> exact huntrack
  | dropped => exact huntrack
  | timedOut => exact huntrack

/-- A connection that tracks a request remembers this request in addition. -/
theorem mem_inflight_track {id : RequestId}
    (h : r ∈ (c.onLink l fun link => link.track id).inflight m) :
    r ∈ c.inflight m ∨ r = id ∧ m = l := by
  by_cases hlm : l = m
  · subst hlm
    rw [inflight_onLink_self] at h
    rw [inflight]
    cases hlink : c.link? l with
    | none =>
      rw [hlink] at h
      cases h
    | some link =>
      rw [hlink] at h
      change r ∈ (link.track id).inflight at h
      rw [Link.track] at h
      split at h
      · exact Or.inl h
      · exact (List.mem_append.mp h).imp_right fun hr => ⟨List.mem_singleton.mp hr, rfl⟩
  · rw [inflight_onLink_of_ne c _ hlm] at h
    exact Or.inl h

/-- The task is about to make a connection remember its request. -/
def Task.tracks : Task → Bool
  | invoke _ _ _ (.registered _ _ _) => true
  | _ => false

/-- A call makes no connection remember anything but its own request. -/
theorem Invoking.forgets_next (c : Client) (p : PoolId) (m : Method) (parameter : Value)
    (timedOut : Bool) (s : Invoking) (h : ∀ progress s' frame, s ≠ .registered progress s' frame) :
    Forgets c (s.next c p m parameter timedOut).2 := by
  cases s with
  | asking progress => exact .of_links rfl
  | allowed progress =>
    have hnext : Forgets c c.nextId.2 := by
      rw [nextId]
      split <;> exact .of_links rfl
    refine hnext.trans ?_
    rw [Invoking.next]
    dsimp only
    split
    · exact .of_links rfl
    · split <;> exact .of_links rfl
  | picked progress request l frame => exact .of_links rfl
  | registered progress s frame => exact (h progress s frame rfl).elim
  | tracked progress s frame =>
    rw [Invoking.next]
    split
    · rename_i link hsent
      obtain ⟨link', hlink, hsend⟩ := Option.bind_eq_some_iff.mp hsent
      refine c.forgets_onLink s.link fun m hm => ?_
      obtain rfl := Option.some.inj (hlink.symm.trans hm)
      rw [inflight_of_send? hsend]
      exact List.Subset.refl _
    · exact c.forgets_finish s .timedOut
  | waiting progress s =>
    rw [Invoking.next]
    split
    · exact c.forgets_finish s .timedOut
    · split
      · exact .of_links rfl
      · exact c.forgets_finish s _
      · exact c.forgets_finish s .dropped
      · exact c.forgets_finish s .dropped
  | returned result => exact .of_links rfl

namespace Activity

variable (a : Activity)

theorem forgets_connectNext {service location : String} {timedOut : Bool} {s : Connecting} :
    Forgets a.client (a.connectNext service location timedOut s).2.1 := by
  rcases hnext : a.connectNext service location timedOut s with ⟨s', client, begun⟩
  cases a.connects hnext with
  | registered service place => exact .of_links rfl
  | attaching hpool hslots => exact .of_links (links_firstSlots hslots)
  | listed => exact .of_links (a.client.links_readyIfKnown _ _)
  | @closing p e stage hstage => exact stage.forgets_next a.client p
  | _ => exact .of_links rfl

/-- Only the tracking of a request adds to what connections remember. -/
theorem forgets_act (luck : Bool) {t : Task} (h : t.tracks = false) :
    Forgets a.client (a.act luck t).client := by
  cases t with
  | attach p slot s =>
    cases s with
    | connecting =>
      rw [act, attachNext]
      split
      · exact a.client.forgets_opened p slot
      · split
        · exact .of_links rfl
        · exact a.client.forgets_addLink rfl
    | opened l => exact a.client.forgets_putOnRing p l
    | refused l => exact a.client.forgets_putOnRing p l
    | rechecking l => exact a.client.forgets_recheck p l
    | ended l => exact .of_links rfl
  | plan p l s =>
    cases s with
    | allowed => exact .of_eq (a.client.inflight_plan p l)
    | _ => exact .of_links rfl
  | reopen r s =>
    cases s with
    | connecting =>
      rw [act, reopenNext]
      split
      · split
        · exact a.client.forgets_opened r.pool _
        · exact .of_links rfl
      · exact (forgets_withPositions a r.old).trans (.of_links (links_notReplaced _ r))
    | opened l => exact (forgets_withPositions a r.old).trans (.of_links (links_replaced _ r l))
    | rechecking l => exact a.client.forgets_recheck r.pool l
    | ended => exact .of_links rfl
  | describe p s =>
    cases s with
    | arrived l body =>
      have hlinks := a.client.links_understand p l body
      rw [act, describeNext]
      rcases h : a.client.understand p l body with ⟨_ | ⟨address, weight⟩, client⟩ <;>
        rw [h] at hlinks <;> exact .of_links hlinks
    | understood address weight =>
      have hlinks := a.client.links_settleNumber p
      rw [act, describeNext]
      rcases h : a.client.settleNumber p with ⟨_ | _, client⟩ <;>
        rw [h] at hlinks <;> exact .of_links hlinks
    | ended => exact .of_links rfl
  | fanOut f ks ended =>
    rw [act, fanOutNext]
    split <;> exact .of_links rfl
  | closePool p s => exact s.forgets_next a.client p
  | connect service location s => exact a.forgets_connectNext
  | invoke p m parameter s =>
    refine s.forgets_next a.client p m parameter (!luck) ?_
    rintro progress s' frame rfl
    cases h
  | shutdown s => exact s.forgets_next a.client

end Activity

/-! ### Connections that are lost -/

/-- What is left when a connection was lost: the calls that it does not remember, and what the other
connections remember. -/
structure Drops (c c' : Client) (l : LinkId) : Prop where
  calls : c'.pending.calls = c.pending.calls.filter fun call => call.id ∉ c.inflight l
  inflight_self : c'.inflight l = []
  inflight_of_ne : ∀ m, m ≠ l → c'.inflight m = c.inflight m
  isActive : c'.isActive l = false

theorem Drops.forgets (h : Drops c c' l) : Forgets c c' := by
  intro m
  by_cases hm : m = l
  · rw [hm, h.inflight_self]
    exact List.nil_subset _
  · rw [h.inflight_of_ne m hm]
    exact List.Subset.refl _

theorem lt_length_of_isActive (h : c.isActive l = true) : l < c.links.length := by
  refine Nat.lt_of_not_le fun hle => ?_
  rw [Client.isActive, link?, List.getElem?_eq_none hle] at h
  cases h

/-- Nothing is cut off of a connection that is not in use. -/
theorem cutOff_of_not_isActive (h : c.isActive l = false) : c.cutOff l = (false, c) := by
  rw [cutOff]
  rw [Client.isActive] at h
  cases hlink : c.link? l with
  | none => rfl
  | some link =>
    have hstate : link.state ≠ .active := by simpa [hlink, Link.isActive] using h
    have hstays : link.transition .active .inactive = (false, link) := if_neg hstate
    dsimp only
    rw [hstays]

/-- A connection in use that is cut off drops what it remembers. -/
theorem drops_cutOff (h : c.isActive l = true) :
    (c.cutOff l).1 = true ∧ Drops c (c.cutOff l).2 l := by
  rw [Client.isActive] at h
  cases hlink : c.link? l with
  | none =>
    rw [hlink] at h
    cases h
  | some link =>
    have hstate : link.state = .active := by simpa [hlink, Link.isActive] using h
    have hmoves : link.transition .active .inactive = (true, { link with state := .inactive }) :=
      if_pos hstate
    have hcut : c.cutOff l = (true,
        { c.onLink l (fun _ => { link with state := .inactive, inflight := [] }) with
          pending :=
            link.inflight.foldl (fun pending id => (pending.remove id).2) c.pending }) := by
      rw [cutOff, hlink]
      dsimp only
      rw [hmoves]
      rfl
    rw [hcut]
    refine ⟨rfl, ?_, ?_, fun m hm => ?_, ?_⟩
    · rw [inflight_of_link? hlink]
      exact Pending.calls_foldl_remove link.inflight c.pending
    · change (c.onLink l _).inflight l = []
      rw [inflight_onLink_self, hlink]
      rfl
    · exact inflight_onLink_of_ne c _ hm.symm
    · change (c.onLink l _).isActive l = false
      rw [Client.isActive, link?_onLink, hlink]
      simp [Link.isActive]

/-- A connection that is lost while it is in use drops what it remembers, -/
theorem drops_lost (h : c.isActive l = true) (p : PoolId) : Drops c (c.lost p l) l := by
  obtain ⟨hcut, hcalls, hself, hothers, hactive⟩ := drops_cutOff h
  rw [lost_eq, if_pos hcut, scheduleReconnect_eq]
  split
  · exact ⟨hcalls, hself, hothers, hactive⟩
  · refine ⟨hcalls, (inflight_plan _ p l l).trans hself,
      fun m hm => (inflight_plan _ p l m).trans (hothers m hm), ?_⟩
    rw [Bool.eq_false_iff] at hactive ⊢
    -- To plan a reconnect brings no connection into use.
    refine fun hplanned => hactive (((c.cutOff l).2.still_plan p l).isActive l ?_ hplanned)
    exact Nat.lt_of_lt_of_le (lt_length_of_isActive h) (c.calm_cutOff l).length

/-- and one that is not in use has nothing to lose. -/
theorem lost_of_not_isActive (h : c.isActive l = false) (p : PoolId) : c.lost p l = c := by
  rw [lost_eq, cutOff_of_not_isActive h]
  rfl

namespace Activity

/-- Moves that are no steps of tasks make no connection remember anything. -/
theorem forgets_or_task (a : Activity) (m : Move) :
    Forgets a.client (a.step m).client ∨
      ∃ k t luck, a.tasks[k]? = some t ∧ a.step m = a.perform k (a.act luck t) := by
  cases m with
  | task k luck =>
    rw [step]
    cases ht : a.tasks[k]? with
    | none => exact Or.inl (.of_links rfl)
    | some t => exact Or.inr ⟨k, t, luck, ht, rfl⟩
  | close l => exact Or.inl (a.client.forgets_close l)
  | frame l frame =>
    left
    rw [step, Activity.receive]
    split
    · exact .of_links rfl
    · rename_i home _
      split
      · exact .of_links rfl
      · rename_i htype
        exact .of_links (a.client.links_receive home.pool l htype)
  | unreadable l e => exact Or.inl (.of_links (a.client.links_readFailure e))
  | lose l =>
    left
    rw [step, lose]
    split
    · rename_i home client hhome hcut
      cases hactive : a.client.isActive l with
      | true =>
        have hdrops := (drops_cutOff hactive).2
        rw [hcut] at hdrops
        exact hdrops.forgets
      | false =>
        rw [cutOff_of_not_isActive hactive] at hcut
        cases hcut
    · exact .of_links rfl
  | write l =>
    refine Or.inl (a.client.forgets_onLink l fun link _ => ?_)
    rw [Link.takeFrame]
    split <;> exact List.Subset.refl _
  | abandon l =>
    exact Or.inl (a.client.forgets_onLink l fun link _ => List.Subset.refl link.inflight)
  | wake i =>
    left
    rw [step, wake]
    split
    · exact .of_links rfl
    · dsimp only
      split <;> exact .of_links rfl
  | abort k =>
    left
    rw [step, Activity.abort]
    split
    · split <;> exact .of_links rfl
    · exact .of_links rfl
  | _ => exact Or.inl (.of_links rfl)

variable {a : Activity}

theorem lose_of_not_isActive (h : a.client.isActive l = false) : a.step (.lose l) = a := by
  rw [step, lose, cutOff_of_not_isActive h]
  cases a.homes[l]? <;> rfl

/-- A connection in use that is lost drops what it remembers. -/
theorem drops_lose {home : Home} (hhome : a.homes[l]? = some home)
    (h : a.client.isActive l = true) : Drops a.client (a.step (.lose l)).client l := by
  obtain ⟨hcut, hdrops⟩ := drops_cutOff h
  rw [step, lose, hhome]
  rcases hresult : a.client.cutOff l with ⟨moved, client⟩
  rw [hresult] at hcut hdrops
  obtain rfl : moved = true := hcut
  exact hdrops

/-- A call that the lost connection does not remember stays in the table. -/
theorem mem_calls_lose {call : PendingCall} (hcall : call ∈ a.client.pending.calls)
    (h : call.id ∉ a.client.inflight l) :
    call ∈ (a.step (.lose l)).client.pending.calls := by
  cases hactive : a.client.isActive l with
  | false => rwa [lose_of_not_isActive hactive]
  | true =>
    cases hhome : a.homes[l]? with
    | none =>
      rw [step, lose, hhome]
      exact hcall
    | some home =>
      rw [(drops_lose hhome hactive).calls]
      exact List.mem_filter.mpr ⟨hcall, decide_eq_true h⟩

/-- What is lost stays lost: to lose the connection again, however much later, changes nothing. -/
theorem lose_again {home : Home} (hhome : a.homes[l]? = some home)
    (h : a.client.isActive l = true) (later : List Move) :
    ((a.step (.lose l)).run later).step (.lose l) = (a.step (.lose l)).run later := by
  refine lose_of_not_isActive (isActive_run _ later ?_ (drops_lose hhome h).isActive)
  exact Nat.lt_of_lt_of_le (lt_length_of_isActive h) (steady_stepped (a.stepped (.lose l))).length

end Activity

end RemoteCall.Client
