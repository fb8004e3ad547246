import RemoteCall.Proofs.Client.Activity
import RemoteCall.Proofs.Client.WaitingCalls
import RemoteCall.Proofs.Ring.Picking

/-!
# What steps leave alone

Nothing brings a connection back into use: every step of a client is steady. Most steps are also
calm: they register no call, and change neither the rings nor the slots of connections nor which
pools are shut down. The rings change where a connection is put on one, replaced or removed, and the
marks where a pool is shut down.

## Main definitions

* `Steady`, `Calm` : a client that has made such a step.

## Main results

* `calm_onLink`, `calm_onPool`, `still_addLink` : when changes to a connection or a pool are calm.
* `calm_cutOff`, `calm_understand`, … : the steps of clients that are.
* `mem_owners_putOnRing`, `mem_owners_replaced`, `mem_owners_notReplaced` : what the others do to
  rings.
-/

namespace RemoteCall.Client

variable {c c' c'' : Client} {p : PoolId} {l : LinkId}

/-- The connection is in use. -/
def isActive (c : Client) (l : LinkId) : Bool :=
  (c.link? l).any Link.isActive

/-- The number of connections of the pool is settled. -/
def isFannedOut (c : Client) (p : PoolId) : Bool :=
  (c.pool? p).any Pool.fannedOut

/-- Where the service of a pool lives. -/
def location? (c : Client) (p : PoolId) : Option Location :=
  (c.pool? p).map Pool.location

/-- The slot of a connection as the connection knows it. -/
def slot? (c : Client) (l : LinkId) : Option Slot :=
  (c.link? l).map Link.slot

/-- No connection comes back into use, and what is settled about the client and its pools stays
so. -/
structure Steady (c c' : Client) : Prop where
  stopping : c.stopping = true → c'.stopping = true
  marked : ∀ p, c.isShutdown p = true → c'.isShutdown p = true
  isFannedOut : ∀ p, c.isFannedOut p = true → c'.isFannedOut p = true
  location? : ∀ p place, c.location? p = some place → c'.location? p = some place
  length : c.links.length ≤ c'.links.length
  isActive : ∀ l < c.links.length, c'.isActive l = true → c.isActive l = true

/-- In addition the rings stay, and so do the slots of connections and the marks of pools that are
shut down. -/
structure Still (c c' : Client) : Prop extends Steady c c' where
  ring : ∀ p, c'.ring p = c.ring p
  isShutdown : ∀ p, c'.isShutdown p = c.isShutdown p
  slot? : ∀ l < c.links.length, c'.slot? l = c.slot? l

/-- In addition no connection is added, no call is registered and no reconnect is planned. -/
structure Calm (c c' : Client) : Prop extends Still c c' where
  links : c'.links.length = c.links.length
  calls : c'.pending.calls ⊆ c.pending.calls
  reconnects : c'.reconnects ⊆ c.reconnects

theorem Steady.trans (h : Steady c c') (h' : Steady c' c'') : Steady c c'' where
  stopping hc := h'.stopping (h.stopping hc)
  marked p hp := h'.marked p (h.marked p hp)
  isFannedOut p hp := h'.isFannedOut p (h.isFannedOut p hp)
  location? p place hp := h'.location? p place (h.location? p place hp)
  length := Nat.le_trans h.length h'.length
  isActive l hl hactive := h.isActive l hl (h'.isActive l (Nat.lt_of_lt_of_le hl h.length) hactive)

theorem Steady.of_eq (hpools : c'.pools = c.pools) (hlinks : c'.links = c.links)
    (hstopping : c.stopping = true → c'.stopping = true) : Steady c c' where
  stopping := hstopping
  marked p hp := by rw [Client.isShutdown, Client.pool?, hpools]; exact hp
  isFannedOut p hp := by rw [Client.isFannedOut, Client.pool?, hpools]; exact hp
  location? p place hp := by rw [Client.location?, Client.pool?, hpools]; exact hp
  length := Nat.le_of_eq (by rw [hlinks])
  isActive l _ hactive := by rw [Client.isActive, Client.link?, hlinks] at hactive; exact hactive

theorem Still.trans (h : Still c c') (h' : Still c' c'') : Still c c'' where
  toSteady := h.toSteady.trans h'.toSteady
  ring p := (h'.ring p).trans (h.ring p)
  isShutdown p := (h'.isShutdown p).trans (h.isShutdown p)
  slot? l hl := (h'.slot? l (Nat.lt_of_lt_of_le hl h.length)).trans (h.slot? l hl)

theorem Still.of_eq (hpools : c'.pools = c.pools) (hlinks : c'.links = c.links)
    (hstopping : c.stopping = true → c'.stopping = true) : Still c c' where
  toSteady := .of_eq hpools hlinks hstopping
  ring p := by rw [Client.ring, Client.pool?, hpools]; rfl
  isShutdown p := by rw [Client.isShutdown, Client.pool?, hpools]; rfl
  slot? l _ := by rw [Client.slot?, Client.link?, hlinks]; rfl

namespace Calm

theorem refl (c : Client) : Calm c c where
  toStill := .of_eq rfl rfl id
  links := rfl
  calls := List.Subset.refl _
  reconnects := List.Subset.refl _

theorem trans (h : Calm c c') (h' : Calm c' c'') : Calm c c'' where
  toStill := h.toStill.trans h'.toStill
  links := h'.links.trans h.links
  calls := List.Subset.trans h'.calls h.calls
  reconnects := List.Subset.trans h'.reconnects h.reconnects

end Calm

/-- Nothing happens to pools and connections. -/
theorem Calm.of_eq (hpools : c'.pools = c.pools) (hlinks : c'.links = c.links)
    (hstopping : c.stopping = true → c'.stopping = true)
    (hcalls : c'.pending.calls ⊆ c.pending.calls) (hreconnects : c'.reconnects ⊆ c.reconnects) :
    Calm c c' :=
  ⟨.of_eq hpools hlinks hstopping, congrArg List.length hlinks, hcalls, hreconnects⟩

/-! ### Changes to connections and pools -/

theorem pool?_onPool (c : Client) (p : PoolId) (f : Pool → Pool) (q : PoolId) :
    (c.onPool p f).pool? q = (c.pool? q).map fun pool => if p = q then f pool else pool := by
  rw [onPool, pool?, pool?, List.getElem?_modify]
  rfl

theorem link?_onLink (c : Client) (l : LinkId) (f : Link → Link) (m : LinkId) :
    (c.onLink l f).link? m = (c.link? m).map fun link => if l = m then f link else link := by
  rw [onLink, link?, link?, List.getElem?_modify]
  rfl

theorem link?_addLink (c : Client) (link : Link) (hl : l < c.links.length) :
    (c.addLink link).2.link? l = c.link? l :=
  List.getElem?_append_left hl

theorem link?_addLink_self (c : Client) (link : Link) :
    (c.addLink link).2.link? c.links.length = some link :=
  List.getElem?_concat_length

theorem lt_length_addLink (c : Client) (link : Link) :
    c.links.length < (c.addLink link).2.links.length :=
  Nat.lt_of_lt_of_eq (Nat.lt_succ_self _) (by simp [addLink])

/-- A change to a pool that leaves what is settled about it. -/
theorem steady_onPool (c : Client) (p : PoolId) {f : Pool → Pool}
    (hlocation : ∀ pool, (f pool).location = pool.location)
    (hmarked : ∀ pool, pool.shutdown = true → (f pool).shutdown = true)
    (hsettled : ∀ pool, pool.fannedOut = true → (f pool).fannedOut = true) :
    Steady c (c.onPool p f) where
  stopping := id
  marked q hq := by
    rw [isShutdown] at hq ⊢
    rw [pool?_onPool]
    cases hpool : c.pool? q with
    | none => simp [hpool] at hq
    | some pool =>
      have hshut : pool.shutdown = true := by simpa [hpool] using hq
      by_cases hpq : p = q <;> simp [hpq, hshut, hmarked]
  isFannedOut q hq := by
    rw [isFannedOut] at hq ⊢
    rw [pool?_onPool]
    cases hpool : c.pool? q with
    | none => simp [hpool] at hq
    | some pool =>
      have hout : pool.fannedOut = true := by simpa [hpool] using hq
      by_cases hpq : p = q <;> simp [hpq, hout, hsettled]
  location? q place hq := by
    rw [location?] at hq ⊢
    rw [pool?_onPool]
    cases hpool : c.pool? q with
    | none => simp [hpool] at hq
    | some pool =>
      have hplace : pool.location = place := by simpa [hpool] using hq
      by_cases hpq : p = q <;> simp [hpq, hplace, hlocation]
  length := Nat.le_refl _
  isActive _ _ := id

/-- A change to a pool changes at most the ring of this pool. -/
theorem ring_onPool_cases (c : Client) (p : PoolId) (f : Pool → Pool) (q : PoolId) :
    (c.onPool p f).ring q = c.ring q ∨
      q = p ∧ ∃ pool, c.pool? p = some pool ∧ (c.onPool p f).ring q = (f pool).ring := by
  rw [ring, ring, pool?_onPool]
  by_cases hpq : p = q
  · subst hpq
    cases hpool : c.pool? p with
    | none => exact Or.inl rfl
    | some pool => exact Or.inr ⟨rfl, pool, rfl, by simp⟩
  · left
    cases c.pool? q <;> simp [hpq]

theorem isShutdown_onPool (c : Client) (p : PoolId) (f : Pool → Pool)
    (h : ∀ pool, (f pool).shutdown = pool.shutdown) (q : PoolId) :
    (c.onPool p f).isShutdown q = c.isShutdown q := by
  rw [isShutdown, isShutdown, pool?_onPool]
  cases c.pool? q with
  | none => rfl
  | some pool => by_cases hpq : p = q <;> simp [hpq, h]

/-- A change to a pool that also leaves its ring and the mark of a shutdown. -/
theorem calm_onPool (c : Client) (p : PoolId) {f : Pool → Pool}
    (hring : ∀ pool, (f pool).ring = pool.ring)
    (hshutdown : ∀ pool, (f pool).shutdown = pool.shutdown)
    (hlocation : ∀ pool, (f pool).location = pool.location)
    (hsettled : ∀ pool, pool.fannedOut = true → (f pool).fannedOut = true) :
    Calm c (c.onPool p f) where
  toSteady := c.steady_onPool p hlocation (fun pool => (hshutdown pool).trans) hsettled
  links := rfl
  calls := List.Subset.refl _
  reconnects := List.Subset.refl _
  ring q := by
    rcases c.ring_onPool_cases p f q with h | ⟨rfl, pool, hpool, h⟩
    · exact h
    · rw [h, hring, ring, hpool]
      rfl
  isShutdown := c.isShutdown_onPool p f hshutdown
  slot? _ _ := rfl

/-- A change to a connection that leaves its slot and does not bring it back into use. -/
theorem calm_onLink (c : Client) (l : LinkId) {f : Link → Link}
    (hslot : ∀ link, c.link? l = some link → (f link).slot = link.slot)
    (hactive : ∀ link, c.link? l = some link → (f link).isActive = true → link.isActive = true) :
    Calm c (c.onLink l f) where
  stopping := id
  marked _ := id
  links := List.length_modify _ _ _
  calls := List.Subset.refl _
  reconnects := List.Subset.refl _
  ring _ := rfl
  isShutdown _ := rfl
  isFannedOut _ := id
  location? _ _ := id
  length := Nat.le_of_eq (List.length_modify _ _ _).symm
  slot? m _ := by
    rw [slot?, slot?, link?_onLink]
    cases hlink : c.link? m with
    | none => rfl
    | some link =>
      by_cases hlm : l = m
      · subst hlm
        simp [hslot link hlink]
      · simp [hlm]
  isActive m _ hm := by
    rw [isActive] at hm ⊢
    rw [link?_onLink] at hm
    cases hlink : c.link? m with
    | none => simp [hlink] at hm
    | some link =>
      by_cases hlm : l = m
      · subst hlm
        have hf : (f link).isActive = true := by simpa [hlink] using hm
        simpa using hactive link hlink hf
      · simpa [hlink, hlm] using hm

/-- A connection is added, and belongs to no ring. -/
theorem still_addLink (c : Client) (link : Link) : Still c (c.addLink link).2 where
  stopping := id
  marked _ := id
  ring _ := rfl
  isShutdown _ := rfl
  isFannedOut _ := id
  location? _ _ := id
  length := by simp [addLink]
  slot? l hl := by rw [slot?, slot?, link?_addLink c link hl]
  isActive l hl hactive := by rwa [isActive, link?_addLink c link hl] at hactive

theorem pool?_addPool (c : Client) (pool : Pool) (p : PoolId) :
    ({ c with pools := c.pools ++ [pool] } : Client).pool? p = c.pool? p ∨
      c.pool? p = none ∧ ({ c with pools := c.pools ++ [pool] } : Client).pool? p = some pool := by
  rw [pool?, pool?]
  by_cases hp : p < c.pools.length
  · exact Or.inl (List.getElem?_append_left hp)
  · have hnone : c.pools[p]? = none := List.getElem?_eq_none (Nat.not_lt.mp hp)
    by_cases hlast : p = c.pools.length
    · subst hlast
      exact Or.inr ⟨hnone, List.getElem?_concat_length⟩
    · refine Or.inl ?_
      rw [hnone]
      have hlt : c.pools.length < p := Nat.lt_of_le_of_ne (Nat.not_lt.mp hp) (Ne.symm hlast)
      refine List.getElem?_eq_none ?_
      rw [List.length_append]
      exact hlt

/-- A pool is added that has no connections and was not shut down. -/
theorem calm_addPool (c : Client) (service : ServiceId) (location : Location) :
    Calm c { c with pools := c.pools ++ [.new service location] } where
  stopping := id
  marked p hp := by
    rcases c.pool?_addPool (.new service location) p with h | ⟨hnone, -⟩
    · rwa [isShutdown, h]
    · rw [isShutdown, hnone] at hp
      cases hp
  links := rfl
  calls := List.Subset.refl _
  reconnects := List.Subset.refl _
  ring p := by
    rcases c.pool?_addPool (.new service location) p with h | ⟨hnone, hnew⟩
    · rw [ring, h, ring]
    · rw [ring, hnew, ring, hnone]
      rfl
  isShutdown p := by
    rcases c.pool?_addPool (.new service location) p with h | ⟨hnone, hnew⟩
    · rw [isShutdown, h, isShutdown]
    · rw [isShutdown, hnew, isShutdown, hnone]
      rfl
  isFannedOut p hp := by
    rcases c.pool?_addPool (.new service location) p with h | ⟨hnone, -⟩
    · rwa [isFannedOut, h]
    · rw [isFannedOut, hnone] at hp
      cases hp
  location? p place hp := by
    rcases c.pool?_addPool (.new service location) p with h | ⟨hnone, -⟩
    · rwa [location?, h]
    · rw [location?, hnone] at hp
      cases hp
  length := Nat.le_refl _
  slot? _ _ := rfl
  isActive _ _ := id

/-! ### Steps of clients -/

theorem calm_markReady (c : Client) (p : PoolId) (r : Readiness) : Calm c (c.markReady p r) := by
  have hkeep (pool : Pool) : (pool.markReady r).ring = pool.ring ∧
      (pool.markReady r).shutdown = pool.shutdown ∧
      (pool.markReady r).location = pool.location ∧
      (pool.markReady r).fannedOut = pool.fannedOut := by
    unfold Pool.markReady
    split <;> exact ⟨rfl, rfl, rfl, rfl⟩
  exact c.calm_onPool p (fun pool => (hkeep pool).1) (fun pool => (hkeep pool).2.1)
    (fun pool => (hkeep pool).2.2.1) fun pool hout => (hkeep pool).2.2.2.trans hout

/-- The number of connections of a pool is settled. -/
theorem calm_fannedOut (c : Client) (p : PoolId) :
    Calm c (c.onPool p fun pool => { pool with fannedOut := true }) :=
  c.calm_onPool p (fun _ => rfl) (fun _ => rfl) (fun _ => rfl) fun _ _ => rfl

theorem calm_learn (c : Client) (s : Service) : Calm c (c.learn s) :=
  .of_eq rfl rfl id (List.Subset.refl _) (List.Subset.refl _)

theorem calm_close (c : Client) (l : LinkId) : Calm c (c.onLink l Link.close) :=
  c.calm_onLink l (fun _ _ => rfl) fun _ _ hactive => by cases hactive

theorem calls_settle (p : Pending) (id : RequestId) (how : PendingCall → Settlement) :
    (p.settle id how).2.calls ⊆ p.calls := by
  rw [Pending.calls_settle_eq]
  exact List.filter_sublist.subset

/-- Some calls leave the table. -/
theorem calm_pending (c : Client) {pending : Pending} (h : pending.calls ⊆ c.pending.calls) :
    Calm c { c with pending } :=
  .of_eq rfl rfl id h (List.Subset.refl _)

/-- Opening a connection for a slot adds one. -/
theorem opened_eq (c : Client) (p : PoolId) (slot : Slot) :
    ∃ link, link.slot = slot ∧ c.opened p slot = c.addLink link := by
  rw [opened]
  split
  · exact ⟨.active slot _, rfl, rfl⟩
  · rename_i pool _
    split
    · exact ⟨.active slot _, rfl, rfl⟩
    · refine ⟨_, ?_, rfl⟩
      cases hsend : (Link.active slot c.config.writeQueueCapacity).send? (c.probe pool.service) with
      | none => rfl
      | some link =>
        rw [Link.send?, Option.map_eq_some_iff] at hsend
        obtain ⟨q, -, rfl⟩ := hsend
        rfl

theorem still_opened (c : Client) (p : PoolId) (slot : Slot) : Still c (c.opened p slot).2 := by
  obtain ⟨link, -, h⟩ := c.opened_eq p slot
  rw [h]
  exact c.still_addLink link

theorem calm_recheck (c : Client) (p : PoolId) (l : LinkId) : Calm c (c.recheck p l) := by
  rw [recheck]
  split
  · exact c.calm_close l
  · exact .refl c

theorem isActive_close (c : Client) (l : LinkId) : (c.onLink l Link.close).isActive l = false := by
  rw [isActive, link?_onLink]
  cases c.link? l <;> simp [Link.close, Link.isActive]

theorem isActive_recheck (h : c.isShutdown p = true) : (c.recheck p l).isActive l = false := by
  rw [recheck, if_pos h, isActive_close]

theorem isActive_transition {link : Link} {source target : LinkState} (h : target ≠ .active)
    (hactive : (link.transition source target).2.isActive = true) : link.isActive = true := by
  rw [Link.transition] at hactive
  split at hactive
  · rw [Link.isActive] at hactive
    exact (h (by simpa using hactive)).elim
  · exact hactive

theorem slot_transition (link : Link) (source target : LinkState) :
    (link.transition source target).2.slot = link.slot := by
  rw [Link.transition]
  split <;> rfl

theorem still_plan (c : Client) (p : PoolId) (l : LinkId) : Still c (c.plan p l) :=
  (c.calm_onLink l (fun link _ => slot_transition link _ _)
    fun _ _ hactive => isActive_transition (by decide) hactive).toStill.trans (.of_eq rfl rfl id)

theorem calm_cutOff (c : Client) (l : LinkId) : Calm c (c.cutOff l).2 := by
  rw [cutOff]
  split
  · exact .refl c
  · rename_i link hlink
    split
    · exact .refl c
    · rename_i link' htransition
      have hslot : link'.slot = link.slot := by
        rw [← slot_transition link .active .inactive, htransition]
      have hcalls (c : Client) (ids : List RequestId) :
          (ids.foldl (fun pending id => (pending.remove id).2) c.pending).calls ⊆
            c.pending.calls := by
        rw [Pending.calls_foldl_remove]
        exact List.filter_sublist.subset
      refine (c.calm_onLink l (fun m hm => ?_) fun m hm hactive => ?_).trans
        (calm_pending _ (hcalls _ _))
      · obtain rfl := Option.some.inj (hlink.symm.trans hm)
        exact hslot
      · obtain rfl := Option.some.inj (hlink.symm.trans hm)
        have hmoved : (link.transition .active .inactive).2.isActive = true := by
          rwa [htransition]
        exact isActive_transition (by decide) hmoved

theorem calm_install {info : ServiceInfo} {address : SocketAddress}
    (h : c.install p info address = .ok c') : Calm c c' := by
  rw [install] at h
  split at h
  · cases h
    exact .refl c
  split at h
  · cases h
  split at h
  · cases h
    exact c.calm_learn _
  · cases h

theorem calm_understand (c : Client) (p : PoolId) (l : LinkId) (body : Bytes) :
    Calm c (c.understand p l body).2 := by
  rw [understand]
  split
  · exact .refl c
  · exact c.calm_markReady p _
  · split
    · exact c.calm_markReady p _
    · rename_i hinstall
      exact calm_install hinstall

theorem calm_settleNumber (c : Client) (p : PoolId) : Calm c (c.settleNumber p).2 := by
  rw [settleNumber]
  split
  · exact c.calm_markReady p _
  · exact c.calm_fannedOut p

/-- Reading anything but a description is calm. -/
theorem calm_receive (c : Client) (p : PoolId) (l : LinkId) {frame : Frame}
    (h : frame.header.type ≠ .metadata) : Calm c (c.receive p l frame).2 := by
  have hresolve : Calm c { c with pending := (c.pending.resolve frame).2 } :=
    c.calm_pending (calls_settle _ _ _)
  rw [receive]
  cases htype : frame.header.type with
  | normal => exact hresolve
  | empty => exact hresolve
  | abnormal =>
    dsimp only
    split
    · exact c.calm_markReady p _
    · exact hresolve
  | metadata => exact (h htype).elim
  | heartbeat => exact .refl c
  | object => exact .refl c

theorem calm_readFailure (c : Client) (e : Error) : Calm c (c.readFailure e).2 := by
  cases e with
  | rpc fault call =>
    cases call with
    | none => exact .refl c
    | some call => exact c.calm_pending (calls_settle _ _ _)
  | _ => exact .refl c

theorem calm_nextId (c : Client) : Calm c c.nextId.2 := by
  rw [nextId]
  split
  · exact .of_eq rfl rfl id (List.Subset.refl _) (List.Subset.refl _)
  · exact .refl c

theorem calm_finish (c : Client) (s : Sent) (how : Waited) : Calm c (c.finish s how).2 := by
  have huntrack : Calm c (c.onLink s.link fun link => link.untrack s.request) :=
    c.calm_onLink s.link (fun _ _ => rfl) fun _ _ => id
  cases how with
  | answered result => cases result <;> exact huntrack
  | dropped => exact huntrack
  | timedOut => exact huntrack.trans (calm_pending _ (calls_settle _ _ _))

theorem calm_resolve {pool : Pool} {endpoint service : String} {slots : List Slot}
    (h : c.resolve p pool endpoint service = .ok (slots, c')) : Calm c c' := by
  rw [resolve] at h
  split at h
  · cases h
  split at h
  · cases h
  split at h
  · cases h
    exact c.calm_fannedOut p
  · dsimp only [bind, Except.bind] at h
    split at h
    · cases h
    · rename_i hinstall
      cases h
      exact (c.calm_fannedOut p).trans (calm_install hinstall)

theorem calm_firstSlots {pool : Pool} {slots : List Slot}
    (h : c.firstSlots p pool = .ok (slots, c')) : Calm c c' := by
  rw [firstSlots] at h
  split at h
  · exact calm_resolve h
  · cases h
    exact .refl c

theorem calm_readyIfKnown (c : Client) (p : PoolId) (service : ServiceId) :
    Calm c (c.readyIfKnown p service) := by
  rw [readyIfKnown]
  split
  · exact c.calm_markReady p _
  · exact .refl c

/-! ### Steps that change rings and marks -/

/-- A pool is marked as shut down. -/
def mark (c : Client) (p : PoolId) : Client :=
  c.onPool p fun pool => { pool with shutdown := true }

/-- Changes the ring of a pool. -/
def onRing (c : Client) (p : PoolId) (f : Ring LinkId → Ring LinkId) : Client :=
  c.onPool p fun pool => { pool with ring := f pool.ring }

/-- Changes the slot of a connection as the connection knows it. -/
def onSlot (c : Client) (l : LinkId) (f : Slot → Slot) : Client :=
  c.onLink l fun link => { link with slot := f link.slot }

theorem putOnRing_eq {link : Link} (h : c.link? l = some link) (p : PoolId) :
    c.putOnRing p l =
      (c.onRing p fun r => r.replace (Ring.positionsFor link.slot.name) l).onSlot l
        fun slot => { slot with positions := Ring.positionsFor link.slot.name } := by
  rw [putOnRing, h]
  rfl

theorem replaced_eq {r : Reconnect} {old : Link} (h : c.link? r.old = some old) (l : LinkId) :
    c.replaced r l = c.onRing r.pool fun ring => ring.replace old.slot.positions l := by
  rw [replaced, h]
  rfl

theorem steady_mark (c : Client) (p : PoolId) : Steady c (c.mark p) :=
  c.steady_onPool p (fun _ => rfl) (fun _ _ => rfl) fun _ => id

theorem ring_mark (c : Client) (p q : PoolId) : (c.mark p).ring q = c.ring q := by
  rcases c.ring_onPool_cases p (fun pool => { pool with shutdown := true }) q with
    h | ⟨rfl, pool, hpool, h⟩
  · exact h
  · rw [mark, h, ring, hpool]
    rfl

theorem isShutdown_mark_of_ne {q : PoolId} (h : q ≠ p) :
    (c.mark p).isShutdown q = c.isShutdown q := by
  rw [mark, isShutdown, isShutdown, pool?_onPool]
  cases c.pool? q <;> simp [Ne.symm h]

theorem steady_onRing (c : Client) (p : PoolId) (f : Ring LinkId → Ring LinkId) :
    Steady c (c.onRing p f) :=
  c.steady_onPool p (fun _ => rfl) (fun _ => id) fun _ => id

theorem steady_onSlot (c : Client) (l : LinkId) (f : Slot → Slot) : Steady c (c.onSlot l f) where
  stopping := id
  marked _ := id
  isFannedOut _ := id
  location? _ _ := id
  length := Nat.le_of_eq (List.length_modify _ _ _).symm
  isActive m _ hm := by
    rw [isActive, onSlot, link?_onLink] at hm
    rw [isActive]
    cases hlink : c.link? m with
    | none => simp [hlink] at hm
    | some link =>
      by_cases hlm : l = m <;> simpa [hlink, hlm, Link.isActive] using hm

theorem isShutdown_onRing (c : Client) (p : PoolId) (f : Ring LinkId → Ring LinkId) (q : PoolId) :
    (c.onRing p f).isShutdown q = c.isShutdown q :=
  c.isShutdown_onPool p (fun pool => { pool with ring := f pool.ring }) (fun _ => rfl) q

theorem ring_onSlot (c : Client) (l : LinkId) (f : Slot → Slot) (p : PoolId) :
    (c.onSlot l f).ring p = c.ring p := rfl

theorem isShutdown_onSlot (c : Client) (l : LinkId) (f : Slot → Slot) (p : PoolId) :
    (c.onSlot l f).isShutdown p = c.isShutdown p := rfl

theorem ring_onRing_cases (c : Client) (p : PoolId) (f : Ring LinkId → Ring LinkId) (q : PoolId) :
    (c.onRing p f).ring q = c.ring q ∨ q = p ∧ (c.onRing p f).ring q = f (c.ring p) := by
  rcases c.ring_onPool_cases p (fun pool => { pool with ring := f pool.ring }) q with
    h | ⟨hq, pool, hpool, h⟩
  · exact Or.inl h
  · refine Or.inr ⟨hq, h.trans ?_⟩
    rw [ring, hpool]
    rfl

theorem steady_putOnRing (c : Client) (p : PoolId) (l : LinkId) : Steady c (c.putOnRing p l) := by
  cases h : c.link? l with
  | none =>
    rw [putOnRing, h]
    exact (Calm.refl c).toSteady
  | some link =>
    rw [putOnRing_eq h]
    exact (c.steady_onRing p _).trans (steady_onSlot _ l _)

theorem steady_replaced (c : Client) (r : Reconnect) (l : LinkId) : Steady c (c.replaced r l) := by
  cases h : c.link? r.old with
  | none =>
    rw [replaced, h]
    exact (Calm.refl c).toSteady
  | some old =>
    rw [replaced_eq h]
    exact c.steady_onRing r.pool _

/-- A slot that could not be connected again is taken off the ring or is tried again later. -/
theorem notReplaced_cases (c : Client) (r : Reconnect) :
    (∃ old, c.link? r.old = some old ∧ old.slot.discovered = true ∧
      c.notReplaced r = c.onRing r.pool fun ring => ring.remove old.slot.positions r.old) ∨
    ∃ later, (∀ s ∈ later, s.pool = r.pool ∧ s.old = r.old) ∧
      c.notReplaced r = { c with reconnects := c.reconnects ++ later } := by
  cases h : c.link? r.old with
  | none =>
    rw [notReplaced, h]
    exact Or.inr ⟨[], List.forall_mem_nil _, by rw [List.append_nil]⟩
  | some old =>
    cases hdiscovered : old.slot.discovered with
    | true =>
      refine Or.inl ⟨old, rfl, hdiscovered, ?_⟩
      rw [notReplaced, h]
      exact if_pos hdiscovered
    | false =>
      refine Or.inr ⟨[{ r with delayMs := c.config.reconnectRetryDelayMs }],
        List.forall_mem_singleton.mpr ⟨rfl, rfl⟩, ?_⟩
      simp only [notReplaced, h, hdiscovered, Bool.false_eq_true, if_false]

theorem links_replaced (c : Client) (r : Reconnect) (l : LinkId) :
    (c.replaced r l).links = c.links := by
  cases hold : c.link? r.old with
  | none => rw [replaced, hold]
  | some old =>
    rw [replaced_eq hold]
    rfl

theorem links_notReplaced (c : Client) (r : Reconnect) : (c.notReplaced r).links = c.links := by
  rcases c.notReplaced_cases r with ⟨old, -, -, h⟩ | ⟨later, -, h⟩ <;> rw [h]
  rfl

theorem steady_notReplaced (c : Client) (r : Reconnect) : Steady c (c.notReplaced r) := by
  rcases c.notReplaced_cases r with ⟨old, -, -, h⟩ | ⟨later, -, h⟩ <;> rw [h]
  · exact c.steady_onRing r.pool _
  · exact .of_eq rfl rfl id

theorem isShutdown_putOnRing (c : Client) (p : PoolId) (l : LinkId) (q : PoolId) :
    (c.putOnRing p l).isShutdown q = c.isShutdown q := by
  cases h : c.link? l with
  | none => rw [putOnRing, h]
  | some link =>
    rw [putOnRing_eq h, isShutdown_onSlot, isShutdown_onRing]

theorem isShutdown_replaced (c : Client) (r : Reconnect) (l : LinkId) (q : PoolId) :
    (c.replaced r l).isShutdown q = c.isShutdown q := by
  cases h : c.link? r.old with
  | none => rw [replaced, h]
  | some old =>
    rw [replaced_eq h]
    exact c.isShutdown_onRing r.pool _ q

theorem isShutdown_notReplaced (c : Client) (r : Reconnect) (q : PoolId) :
    (c.notReplaced r).isShutdown q = c.isShutdown q := by
  rcases c.notReplaced_cases r with ⟨old, -, -, h⟩ | ⟨later, -, h⟩ <;> rw [h]
  · exact c.isShutdown_onRing r.pool _ q
  · rfl

/-- Putting a connection on a ring brings in no other one. -/
theorem mem_owners_putOnRing {m : LinkId} {q : PoolId}
    (h : m ∈ ((c.putOnRing p l).ring q).owners) : m ∈ (c.ring q).owners ∨ q = p ∧ m = l := by
  cases hlink : c.link? l with
  | none =>
    rw [putOnRing, hlink] at h
    exact Or.inl h
  | some link =>
    rw [putOnRing_eq hlink, ring_onSlot] at h
    rcases c.ring_onRing_cases p (fun r => r.replace (Ring.positionsFor link.slot.name) l) q with
      hsame | ⟨hq, hring⟩
    · exact Or.inl (hsame ▸ h)
    · subst hq
      exact (Ring.mem_owners_replace (hring ▸ h)).symm.imp_right fun hm => ⟨rfl, hm⟩

theorem mem_owners_replaced {r : Reconnect} {m : LinkId} {q : PoolId}
    (h : m ∈ ((c.replaced r l).ring q).owners) :
    m ∈ (c.ring q).owners ∨ q = r.pool ∧ m = l := by
  cases hold : c.link? r.old with
  | none =>
    rw [replaced, hold] at h
    exact Or.inl h
  | some old =>
    rw [replaced_eq hold] at h
    rcases c.ring_onRing_cases r.pool (fun ring => ring.replace old.slot.positions l) q with
      hsame | ⟨hq, hring⟩
    · exact Or.inl (hsame ▸ h)
    · subst hq
      exact (Ring.mem_owners_replace (hring ▸ h)).symm.imp_right fun hm => ⟨rfl, hm⟩

theorem mem_owners_notReplaced {r : Reconnect} {m : LinkId} {q : PoolId}
    (h : m ∈ ((c.notReplaced r).ring q).owners) : m ∈ (c.ring q).owners := by
  rcases c.notReplaced_cases r with ⟨old, -, -, hremoved⟩ | ⟨later, -, hlater⟩
  · rw [hremoved] at h
    rcases c.ring_onRing_cases r.pool (fun ring => ring.remove old.slot.positions r.old) q with
      hsame | ⟨hq, hring⟩
    · exact hsame ▸ h
    · subst hq
      exact Ring.mem_owners_remove (hring ▸ h)
  · rw [hlater] at h
    exact h

end RemoteCall.Client
