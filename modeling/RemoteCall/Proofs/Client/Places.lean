import RemoteCall.Proofs.Client.Moves

/-!
# Where connections belong

Every connection is opened for a slot of one pool, either first or in place of one that was lost,
and whatever happens to it or because of it concerns this pool: a task that mentions a connection is
about the pool of the connection, and so is a reconnect that waits. The slots of a pool at an
address have this address, also as connections and descriptions pass it on.

## Main definitions

* `Client.Suits` : a slot that a pool can have.
* `Activity.Linking` : what a step of a task does to connections.
* `Activity.Placed` : connections, tasks and reconnects are where they belong.

## Main results

* `Activity.linking_act` : every step of a task is one of those of `Activity.Linking`.
* `Activity.placed_run` : everything is where it belongs after every run.
-/

namespace RemoteCall.Client

variable {c c' : Client} {p : PoolId} {l : LinkId} {slot : Slot}

/-- The pool can have the slot: a pool at an address has only slots of this address. -/
def Suits (c : Client) (p : PoolId) (slot : Slot) : Prop :=
  ∃ place, c.location? p = some place ∧
    ∀ address, place = .address address → slot.address = address ∧ slot.discovered = false

namespace Suits

theorem steady (h : c.Suits p slot) (hc : Steady c c') : c'.Suits p slot := by
  obtain ⟨place, hplace, haddress⟩ := h
  exact ⟨place, hc.location? p place hplace, haddress⟩

theorem isSome (h : c.Suits p slot) : (c.location? p).isSome = true := by
  obtain ⟨place, hplace, -⟩ := h
  rw [hplace]
  rfl

end Suits

/-! ### Slots of connections -/

theorem lt_of_slot? (h : c.slot? l = some slot) : l < c.links.length := by
  obtain ⟨link, hlink, -⟩ := Option.map_eq_some_iff.mp h
  exact (List.getElem?_eq_some_iff.mp hlink).1

theorem exists_slot? (h : l < c.links.length) : ∃ slot, c.slot? l = some slot :=
  ⟨c.links[l].slot, by rw [slot?, link?, List.getElem?_eq_getElem h]; rfl⟩

theorem slot?_putOnRing (c : Client) (p : PoolId) (l m : LinkId) :
    (c.putOnRing p l).slot? m = (c.slot? m).map fun slot =>
      if l = m then { slot with positions := Ring.positionsFor slot.name } else slot := by
  cases hlink : c.link? l with
  | none =>
    rw [putOnRing, hlink, slot?]
    by_cases hlm : l = m
    · subst hlm
      rw [hlink]
      rfl
    · cases c.link? m <;> simp [hlm]
  | some link =>
    rw [putOnRing_eq hlink, slot?, onSlot, link?_onLink, slot?]
    by_cases hlm : l = m
    · subst hlm
      have hring : (c.onRing p fun r => r.replace (Ring.positionsFor link.slot.name) l).link? l =
        some link := hlink
      simp [hring, hlink]
    · have hring : (c.onRing p fun r => r.replace (Ring.positionsFor link.slot.name) l).link? m =
        c.link? m := rfl
      rw [hring]
      cases c.link? m <;> simp [hlm]

theorem length_putOnRing (c : Client) (p : PoolId) (l : LinkId) :
    (c.putOnRing p l).links.length = c.links.length := by
  cases hlink : c.link? l with
  | none => rw [putOnRing, hlink]
  | some link =>
    rw [putOnRing_eq hlink]
    exact List.length_modify _ _ _

theorem slot?_addLink (c : Client) (link : Link) (hl : l < c.links.length) :
    (c.addLink link).2.slot? l = c.slot? l := by
  rw [slot?, link?_addLink c link hl, slot?]

theorem slot?_addLink_self (c : Client) (link : Link) :
    (c.addLink link).2.slot? c.links.length = some link.slot := by
  rw [slot?, link?_addLink_self]
  rfl

theorem length_addLink (c : Client) (link : Link) :
    (c.addLink link).2.links.length = c.links.length + 1 := by
  simp [addLink]

/-- The weight of a description that makes a service. -/
theorem weight_of_ofInfo {info : ServiceInfo} {address : SocketAddress} {serializers : Serializers}
    {s : Service} (h : Service.ofInfo info address serializers = .ok s) :
    1 ≤ info.weight.toNat ∧ info.weight.toNat ≤ 10 := by
  cases hweight : Weight.ofByte info.weight with
  | error e =>
    rw [Service.ofInfo, hweight] at h
    cases h
  | ok weight =>
    rw [Weight.ofByte] at hweight
    split at hweight
    · rename_i hbounds
      exact hbounds
    · cases hweight

/-- A description that was understood came on a connection, and its weight is one. -/
theorem understand_eq_some {body : Bytes} {address : SocketAddress} {weight : Nat}
    (h : c.understand p l body = (some (address, weight), c'))
    (hp : (c.location? p).isSome = true) :
    (∃ slot, c.slot? l = some slot ∧ slot.address = address) ∧ 1 ≤ weight ∧ weight ≤ 10 := by
  rw [understand] at h
  split at h
  · cases h
  · cases h
  · rename_i link info hlink hinfo
    split at h
    · cases h
    · rename_i hinstall
      cases h
      refine ⟨⟨link.slot, by rw [slot?, hlink]; rfl, rfl⟩, ?_⟩
      obtain ⟨pool, hpool⟩ : ∃ pool, c.pool? p = some pool := by
        rw [location?, Option.isSome_map] at hp
        exact Option.isSome_iff_exists.mp hp
      rw [install, hpool] at hinstall
      dsimp only at hinstall
      split at hinstall
      · cases hinstall
      · split at hinstall
        · rename_i hs
          exact weight_of_ofInfo hs
        · cases hinstall

/-- The connection that an attach has opened. -/
def Attaching.link? : Attaching → Option LinkId
  | opened l | refused l | rechecking l => some l
  | ended l => l
  | connecting => none

theorem Attaching.link?_of_opened {s : Attaching} {l : LinkId}
    (h : s = .opened l ∨ s = .refused l) :
    s.link? = some l := by
  rcases h with rfl | rfl <;> rfl

/-- The connection that a reconnect has opened. -/
def Reopening.link? : Reopening → Option LinkId
  | opened l | rechecking l => some l
  | connecting | ended => none

/-- The pool that a request for a service has registered and not connected yet. -/
def Connecting.starting? : Connecting → Option PoolId
  | registered p | attaching p _ => some p
  | _ => none

/-- The connection that the task has opened. -/
def Task.link? : Task → Option LinkId
  | attach _ _ s => s.link?
  | reopen _ s => s.link?
  | _ => none

namespace Activity

/-- The pool of a connection. -/
def poolOf? (a : Activity) (l : LinkId) : Option PoolId :=
  a.homes[l]?.map Home.pool

theorem slotOf?_eq_some {a : Activity} (h : a.slotOf? l = some slot) :
    ∃ home, a.homes[l]? = some home ∧ a.client.slot? home.first = some slot := by
  rw [slotOf?, Option.map_eq_some_iff] at h
  obtain ⟨link, hlink, rfl⟩ := h
  obtain ⟨home, hhome, hlink⟩ := Option.bind_eq_some_iff.mp hlink
  exact ⟨home, hhome, by rw [slot?, hlink]; rfl⟩

theorem length_withPositions (a : Activity) (l : LinkId) :
    (a.withPositions l).links.length = a.client.links.length := by
  rw [withPositions]
  split
  · rfl
  · exact List.length_modify _ _ _

theorem slot?_withPositions {a : Activity} {m : LinkId}
    (h : (a.withPositions l).slot? m = some slot) :
    a.client.slot? m = some slot ∨ m = l ∧ a.slotOf? l = some slot := by
  rw [withPositions] at h
  split at h
  · exact Or.inl h
  · rename_i slot' hslot
    rw [slot?, link?_onLink] at h
    cases hlink : a.client.link? m with
    | none => simp [hlink] at h
    | some link =>
      by_cases hlm : l = m
      · subst hlm
        rw [hlink] at h
        obtain rfl : slot' = slot := by simpa using h
        exact Or.inr ⟨rfl, hslot⟩
      · left
        simpa [slot?, hlink, hlm] using h

/-! ### What steps do to connections -/

/-- Connections keep their slots, except that they learn the positions of their slots. -/
def KeepsSlots (a : Activity) (c : Client) : Prop :=
  ∀ l slot, c.slot? l = some slot →
    a.client.slot? l = some slot ∨
      (∃ old, a.client.slot? l = some old ∧
        slot = { old with positions := Ring.positionsFor old.name }) ∨
      a.slotOf? l = some slot

theorem KeepsSlots.of_still {a : Activity} (h : Still a.client c)
    (hlinks : c.links.length = a.client.links.length) : a.KeepsSlots c := by
  intro l slot hslot
  have hl : l < a.client.links.length := hlinks ▸ lt_of_slot? hslot
  exact Or.inl ((h.slot? l hl).symm.trans hslot)

theorem keepsSlots_putOnRing (a : Activity) (p : PoolId) (l : LinkId) :
    a.KeepsSlots (a.client.putOnRing p l) := by
  intro m slot hslot
  rw [slot?_putOnRing, Option.map_eq_some_iff] at hslot
  obtain ⟨old, hold, rfl⟩ := hslot
  by_cases hlm : l = m
  · rw [if_pos hlm]
    exact Or.inr (Or.inl ⟨old, hold, rfl⟩)
  · rw [if_neg hlm]
    exact Or.inl hold

theorem keepsSlots_withPositions {a : Activity} {l : LinkId}
    (h : c.links = (a.withPositions l).links) : a.KeepsSlots c := by
  intro m slot hslot
  rw [slot?, link?, h] at hslot
  rcases slot?_withPositions hslot with hslot | ⟨rfl, hslot⟩
  · exact Or.inl hslot
  · exact Or.inr (Or.inr hslot)

/-- What a step of a task does to connections. -/
inductive Linking (a : Activity) (t : Task) (e : Effect) : Prop
  /-- It leaves them where they are. -/
  | kept (hhomes : e.homes = []) (hlinks : e.client.links.length = a.client.links.length)
    (hslots : a.KeepsSlots e.client) (hlink : ∀ l, e.task.link? = some l → t.link? = some l)
  /-- It opens the first connection of a slot, or has a placeholder for it. -/
  | attached {p : PoolId} {slot : Slot} {s : Attaching} {link : Link}
    (htask : t = .attach p slot .connecting) (hnext : e.task = .attach p slot s)
    (hslot : link.slot = slot) (hclient : e.client = (a.client.addLink link).2)
    (hhomes : e.homes = [⟨p, a.client.links.length⟩])
    (hstage : s = .opened a.client.links.length ∨ s = .refused a.client.links.length)
    (hbegun : e.begun = [])
  /-- It opens another connection of a slot. -/
  | reopened {r : Reconnect} {home : Home} {link : Link}
    (htask : t = .reopen r .connecting)
    (hnext : e.task = .reopen r (.opened a.client.links.length))
    (hhome : a.homes[r.old]? = some home) (hslot : a.slotOf? r.old = some link.slot)
    (hclient : e.client = (a.client.addLink link).2) (hhomes : e.homes = [⟨r.pool, home.first⟩])
    (hbegun : e.begun = [])

variable (a : Activity) (luck : Bool)

theorem Linking.of_calm {t : Task} {e : Effect} (h : Calm a.client e.client) (hhomes : e.homes = [])
    (hlink : ∀ l, e.task.link? = some l → t.link? = some l) : a.Linking t e :=
  .kept hhomes h.links (.of_still h.toStill h.links) hlink

theorem linking_attachNext (p : PoolId) (slot : Slot) (s : Attaching) :
    a.Linking (.attach p slot s) (a.attachNext p slot luck s) := by
  cases s with
  | connecting =>
    rw [attachNext]
    split
    · obtain ⟨link, hslot, hopened⟩ := a.client.opened_eq p slot
      rw [hopened]
      exact .attached rfl rfl hslot rfl rfl (Or.inl rfl) rfl
    · split
      · exact .of_calm a (.refl _) rfl fun _ => id
      · exact .attached rfl rfl rfl rfl rfl (Or.inr rfl) rfl
  | opened l =>
    exact .kept rfl (length_putOnRing _ p l) (a.keepsSlots_putOnRing p l) fun _ => id
  | refused l =>
    exact .kept rfl (length_putOnRing _ p l) (a.keepsSlots_putOnRing p l) fun _ => id
  | rechecking l => exact .of_calm a (a.client.calm_recheck p l) rfl fun _ => id
  | ended l => exact .of_calm a (.refl _) rfl fun _ => id

theorem linking_reopenNext (r : Reconnect) (s : Reopening) :
    a.Linking (.reopen r s) (a.reopenNext r luck s) := by
  cases s with
  | connecting =>
    rw [reopenNext]
    split
    · split
      · rename_i home slot hhome hslot
        obtain ⟨link, rfl, hopened⟩ := a.client.opened_eq r.pool slot
        rw [hopened]
        exact .reopened rfl rfl hhome hslot rfl rfl rfl
      · exact .of_calm a (.refl _) rfl fun _ => id
    · have hlinks := links_notReplaced (a.withPositions r.old) r
      refine .kept rfl ?_ (keepsSlots_withPositions hlinks) (by rintro _ ⟨⟩)
      exact (congrArg List.length hlinks).trans (a.length_withPositions r.old)
  | opened l =>
    have hlinks := links_replaced (a.withPositions r.old) r l
    refine .kept rfl ?_ (keepsSlots_withPositions hlinks) fun _ => id
    exact (congrArg List.length hlinks).trans (a.length_withPositions r.old)
  | rechecking l => exact .of_calm a (a.client.calm_recheck r.pool l) rfl (by rintro _ ⟨⟩)
  | ended => exact .of_calm a (.refl _) rfl fun _ => id

/-- Shutting a pool down leaves its connections where they are. -/
theorem Linking.of_closing {t : Task} {s : Closing} (h : t.closing? = some (p, s))
    (hhomes : (a.act luck t).homes = [])
    (hlink : ∀ l, (a.act luck t).task.link? = some l → t.link? = some l) :
    a.Linking t (a.act luck t) := by
  by_cases hended : s = .ended
  · subst hended
    refine .of_calm a ?_ hhomes hlink
    rw [a.client_act_closed luck h]
    exact .refl _
  · obtain ⟨hclient, -, -⟩ := a.act_closing luck h hended
    by_cases hmarks : s = .asking ∧ a.client.isShutdown p = false
    · obtain ⟨rfl, hshut⟩ := hmarks
      have hmark : (a.act luck t).client = a.client.mark p := by
        rw [hclient, Closing.next, hshut]
        rfl
      refine .kept hhomes (by rw [hmark]; rfl) (fun l slot hslot => Or.inl ?_) hlink
      rwa [hmark] at hslot
    · refine .of_calm a ?_ hhomes hlink
      rw [hclient]
      refine Closing.calm_next a.client p s fun hs => ?_
      cases hshut : a.client.isShutdown p with
      | true => rfl
      | false => exact (hmarks ⟨hs, hshut⟩).elim

/-- Every step of a task is one of those of `Linking`. -/
theorem linking_act (t : Task) : a.Linking t (a.act luck t) := by
  cases hclosing : t.closing? with
  | some closing =>
    cases t with
    | closePool p s => exact .of_closing a luck hclosing rfl fun _ => id
    | connect service location s => exact .of_closing a luck hclosing rfl fun _ => id
    | shutdown s => exact .of_closing a luck hclosing rfl fun _ => id
    | _ => cases hclosing
  | none =>
    have hnone (q : PoolId) (hq : t.closing? = some (q, .asking)) :
        a.client.isShutdown q = true := by
      rw [hclosing] at hq
      cases hq
    cases t with
    | attach p slot s => exact a.linking_attachNext luck p slot s
    | plan p l s =>
      cases s with
      | allowed =>
        have hlinks : (a.client.plan p l).links.length = a.client.links.length :=
          List.length_modify _ _ _
        exact .kept rfl hlinks (.of_still (a.client.still_plan p l) hlinks) fun _ => id
      | _ => exact .of_calm a (.refl _) rfl fun _ => id
    | reopen r s => exact a.linking_reopenNext luck r s
    | describe p s =>
      cases s with
      | ended => exact .of_calm a (.refl _) rfl fun _ => id
      | _ =>
        refine .of_calm a (a.calm_describeNext p _) ?_ fun l hl => ?_
        · rw [act, describeNext]
          split <;> rfl
        · rw [act, describeNext] at hl
          split at hl <;> cases hl
    | fanOut f ks ended =>
      refine .of_calm a (a.calm_fanOutNext f ks ended) ?_ fun l hl => ?_
      · rw [act, fanOutNext]
        split <;> rfl
      · rw [act, fanOutNext] at hl
        split at hl <;> cases hl
    | closePool p s => cases hclosing
    | connect service location s => exact .of_calm a (a.calm_act luck hnone) rfl fun _ => id
    | invoke p m parameter s =>
      cases s with
      | picked progress request l frame =>
        exact .kept rfl rfl (.of_still (.of_eq rfl rfl id) rfl) fun _ => id
      | _ => exact .of_calm a (a.calm_act luck hnone) rfl fun _ => id
    | shutdown s => exact .of_calm a (a.calm_act luck hnone) rfl fun _ => id

end Activity

/-! ### Everything in its place -/

/-- The task mentions only connections of its own pool, slots that this pool can have and weights
that services have. -/
def Task.IsPlaced (homes : List Home) (c : Client) : Task → Prop
  | attach p slot s => c.Suits p slot ∧ ∀ l, s.link? = some l → homes[l]? = some ⟨p, l⟩
  | plan p l _ => homes[l]?.map Home.pool = some p
  | reopen r s =>
    homes[r.old]?.map Home.pool = some r.pool ∧
      ∀ l, s.link? = some l → homes[l]?.map Home.pool = some r.pool
  | describe p (.arrived l _) => homes[l]?.map Home.pool = some p
  | describe p (.understood address weight) =>
    c.Suits p ⟨address, 0, false, []⟩ ∧ 1 ≤ weight ∧ weight ≤ 10
  | fanOut f _ _ => (c.location? f.pool).isSome = true ∧ 1 ≤ f.weight ∧ f.weight ≤ 10
  | connect _ _ s => ∀ p, s.starting? = some p → (c.location? p).isSome = true
  | _ => True

theorem getElem?_append_of_eq_some {α : Type} {xs : List α} {i : Nat} {x : α} (h : xs[i]? = some x)
    (ys : List α) : (xs ++ ys)[i]? = some x :=
  (List.getElem?_append_left (List.getElem?_eq_some_iff.mp h).1).trans h

theorem isSome_location? (h : (c.location? p).isSome = true) (hc : Steady c c') :
    (c'.location? p).isSome = true := by
  obtain ⟨place, hplace⟩ := Option.isSome_iff_exists.mp h
  rw [hc.location? p place hplace]
  rfl

theorem Task.IsPlaced.extend {t : Task} {homes : List Home} (h : t.IsPlaced homes c)
    (hc : Steady c c') (more : List Home) : t.IsPlaced (homes ++ more) c' := by
  have hpool {l : LinkId} {p : PoolId} (hl : homes[l]?.map Home.pool = some p) :
      (homes ++ more)[l]?.map Home.pool = some p := by
    obtain ⟨home, hhome, rfl⟩ := Option.map_eq_some_iff.mp hl
    rw [getElem?_append_of_eq_some hhome]
    rfl
  unfold Task.IsPlaced at h ⊢
  split
  · exact ⟨h.1.steady hc, fun l hl => getElem?_append_of_eq_some (h.2 l hl) more⟩
  · exact hpool h
  · exact ⟨hpool h.1, fun l hl => hpool (h.2 l hl)⟩
  · exact hpool h
  · exact ⟨h.1.steady hc, h.2⟩
  · exact ⟨isSome_location? h.1 hc, h.2⟩
  · exact fun p hp => isSome_location? (h p hp) hc
  · trivial

namespace Activity

/-- Connections, tasks and reconnects are where they belong. -/
structure Placed (a : Activity) : Prop where
  length : a.homes.length = a.client.links.length
  /-- The first connection of a slot is of the same pool. -/
  first : ∀ (l : LinkId) (home : Home), a.homes[l]? = some home →
    a.homes[home.first]? = some ⟨home.pool, home.first⟩
  suits : ∀ (l : LinkId) (home : Home) (slot : Slot), a.homes[l]? = some home →
    a.client.slot? l = some slot →
    a.client.Suits home.pool slot
  placed : ∀ t ∈ a.tasks, t.IsPlaced a.homes a.client
  /-- What an attach has opened has its slot, and knows its positions or does not. -/
  attached : ∀ p slot s l, .attach p slot s ∈ a.tasks → s.link? = some l →
    ∃ positions, a.client.slot? l = some { slot with positions }
  reconnects : ∀ r ∈ a.client.reconnects, a.poolOf? r.old = some r.pool

namespace Placed

variable {a : Activity} {t : Task} {k : TaskId} {e : Effect}

theorem lt_of_home (h : a.Placed) {home : Home} (hl : a.homes[l]? = some home) :
    l < a.client.links.length :=
  h.length ▸ (List.getElem?_eq_some_iff.mp hl).1

/-- A connection that was added has the last home. -/
theorem home_cases (h : a.Placed) {home home' : Home}
    (hl : (a.homes ++ [home])[l]? = some home') :
    a.homes[l]? = some home' ∨ l = a.client.links.length ∧ home' = home := by
  rcases Nat.lt_or_ge l a.homes.length with hlt | hge
  · exact Or.inl ((List.getElem?_append_left hlt).symm.trans hl)
  · rw [List.getElem?_append_right hge, List.getElem?_singleton] at hl
    split at hl
    · rename_i hzero
      refine Or.inr ⟨?_, (Option.some.inj hl).symm⟩
      exact h.length ▸ Nat.le_antisymm (Nat.le_of_sub_eq_zero hzero) hge
    · cases hl

/-- A connection that is the first of its slot knows the slot. -/
theorem slotOf?_of_first (hl : a.homes[l]? = some ⟨p, l⟩) : a.slotOf? l = a.client.slot? l := by
  rw [slotOf?, hl]
  rfl

theorem suits_slotOf? (h : a.Placed) {home : Home} (hl : a.homes[l]? = some home)
    (hslot : a.slotOf? l = some slot) : a.client.Suits home.pool slot := by
  obtain ⟨home', hhome, hslot⟩ := slotOf?_eq_some hslot
  obtain rfl := Option.some.inj (hl.symm.trans hhome)
  exact h.suits home.first _ slot (h.first l home hl) hslot

/-- A task makes a step that opens no connection. -/
theorem kept (h : a.Placed) (ht : a.tasks[k]? = some t) (hsteady : Steady a.client e.client)
    (hjob : e.task.job = t.job) (hhomes : e.homes = [])
    (hlinks : e.client.links.length = a.client.links.length) (hslots : a.KeepsSlots e.client)
    (hlink : ∀ l, e.task.link? = some l → t.link? = some l)
    (hplaced : e.task.IsPlaced a.homes e.client)
    (hbegun : ∀ u ∈ e.begun, IsFresh u ∧ u.IsPlaced a.homes e.client)
    (hreconnects : ∀ r ∈ e.client.reconnects,
      r ∈ a.client.reconnects ∨ a.poolOf? r.old = some r.pool) : (a.perform k e).Placed := by
  have hsame : (a.perform k e).homes = a.homes := by rw [Activity.perform, hhomes, List.append_nil]
  refine ⟨?_, ?_, ?_, ?_, ?_, ?_⟩
  · exact (congrArg List.length hsame).trans (h.length.trans hlinks.symm)
  · rw [hsame]
    exact h.first
  · rw [hsame]
    intro l home slot hl hslot
    refine Suits.steady ?_ hsteady
    rcases hslots l slot hslot with hslot | ⟨old, hold, rfl⟩ | hslot
    · exact h.suits l home slot hl hslot
    · exact h.suits l home old hl hold
    · exact h.suits_slotOf? hl hslot
  · rw [hsame]
    intro u hu
    rcases mem_perform hu with hu | rfl | hu
    · exact List.append_nil a.homes ▸ (h.placed u hu).extend hsteady []
    · exact hplaced
    · exact (hbegun u hu).2
  · intro p slot s l hu hl
    have hfound : ∃ s, .attach p slot s ∈ a.tasks ∧ s.link? = some l := by
      rcases mem_perform hu with hu | hu | hu
      · exact ⟨s, hu, hl⟩
      · obtain ⟨s', rfl⟩ := Task.job_eq_attach (hjob.symm.trans (congrArg Task.job hu.symm))
        exact ⟨s', List.mem_of_getElem? ht, hlink l (by rw [← hu]; exact hl)⟩
      · have hfresh := (hbegun _ hu).1
        cases s with
        | connecting => cases hl
        | _ => exact hfresh.elim
    obtain ⟨s', hmem, hl'⟩ := hfound
    obtain ⟨positions, hslot⟩ := h.attached p slot s' l hmem hl'
    have hhome := (h.placed _ hmem).2 l hl'
    obtain ⟨slot', hslot'⟩ := exists_slot? (c := e.client) (hlinks.symm ▸ h.lt_of_home hhome)
    rcases hslots l slot' hslot' with hsame | ⟨old, hold, rfl⟩ | hfirst
    · exact ⟨positions, hslot'.trans (hsame.symm.trans hslot)⟩
    · obtain rfl := Option.some.inj (hold.symm.trans hslot)
      exact ⟨_, hslot'⟩
    · rw [slotOf?_of_first hhome, hslot] at hfirst
      exact ⟨positions, hslot'.trans hfirst.symm⟩
  · intro r hr
    rw [poolOf?, hsame]
    exact (hreconnects r hr).elim (h.reconnects r) id

/-- A task opens a connection. -/
theorem added (h : a.Placed) {home : Home} {link : Link}
    (hclient : e.client = (a.client.addLink link).2) (hhomes : e.homes = [home])
    (hfirst : (a.homes ++ [home])[home.first]? = some ⟨home.pool, home.first⟩)
    (hsuits : a.client.Suits home.pool link.slot)
    (hattached : ∀ p slot s, e.task = .attach p slot s →
      s.link? = some a.client.links.length ∧ link.slot = slot)
    (hplaced : e.task.IsPlaced (a.homes ++ [home]) e.client) (hbegun : e.begun = []) :
    (a.perform k e).Placed := by
  have hsteady : Steady a.client e.client := hclient ▸ (a.client.still_addLink link).toSteady
  have hnew : (a.perform k e).homes = a.homes ++ [home] := by rw [Activity.perform, hhomes]
  refine ⟨?_, ?_, ?_, ?_, ?_, ?_⟩
  · have hlinks : e.client.links.length = a.client.links.length + 1 := by
      rw [hclient, length_addLink]
    have hlength : (a.homes ++ [home]).length = a.client.links.length + 1 := by
      rw [List.length_append, h.length]
      rfl
    exact (congrArg List.length hnew).trans (hlength.trans hlinks.symm)
  · rw [hnew]
    intro l home' hl
    rcases h.home_cases hl with hl | ⟨-, rfl⟩
    · exact getElem?_append_of_eq_some (h.first l home' hl) [home]
    · exact hfirst
  · rw [hnew]
    intro l home' slot hl hslot
    have hslot' : (a.client.addLink link).2.slot? l = some slot := hclient ▸ hslot
    refine Suits.steady ?_ hsteady
    rcases h.home_cases hl with hl | ⟨rfl, rfl⟩
    · rw [slot?_addLink _ _ (h.lt_of_home hl)] at hslot'
      exact h.suits l home' slot hl hslot'
    · rw [slot?_addLink_self] at hslot'
      exact Option.some.inj hslot' ▸ hsuits
  · rw [hnew]
    intro u hu
    rcases mem_perform hu with hu | rfl | hu
    · exact (h.placed u hu).extend hsteady [home]
    · exact hplaced
    · rw [hbegun] at hu
      cases hu
  · intro p slot s l hu hl
    have hgoal : (a.perform k e).client.slot? l = (a.client.addLink link).2.slot? l :=
      congrArg (Client.slot? · l) hclient
    rcases mem_perform hu with hu | hu | hu
    · obtain ⟨positions, hslot⟩ := h.attached p slot s l hu hl
      refine ⟨positions, ?_⟩
      rw [hgoal, slot?_addLink _ _ (lt_of_slot? hslot), hslot]
    · obtain ⟨hlast, rfl⟩ := hattached p slot s hu.symm
      obtain rfl := Option.some.inj (hlast.symm.trans hl)
      exact ⟨link.slot.positions, hgoal.trans (slot?_addLink_self _ _)⟩
    · rw [hbegun] at hu
      cases hu
  · intro r hr
    have hr' : r ∈ a.client.reconnects := by
      have hr' : r ∈ e.client.reconnects := hr
      rwa [hclient] at hr'
    obtain ⟨home', hhome, hpool⟩ := Option.map_eq_some_iff.mp (h.reconnects r hr')
    rw [poolOf?, hnew, getElem?_append_of_eq_some hhome, ← hpool]
    rfl

/-! ### Each step leaves everything in its place -/

theorem suits_of_address {pool : Pool} {address : SocketAddress} (hpool : c.pool? p = some pool)
    (hlocation : pool.location = .address address) : c.Suits p ⟨address, 0, false, []⟩ := by
  refine ⟨.address address, ?_, fun _ h => ⟨Location.address.inj h, rfl⟩⟩
  rw [location?, hpool, Option.map_some, hlocation]

theorem suits_firstSlots {pool : Pool} {slots : List Slot} (hpool : c.pool? p = some pool)
    (h : c.firstSlots p pool = .ok (slots, c')) : ∀ slot ∈ slots, c.Suits p slot := by
  intro slot hslot
  rw [firstSlots] at h
  split at h
  · rename_i hlocation
    refine ⟨pool.location, by rw [location?, hpool]; rfl, fun address haddress => ?_⟩
    rw [hlocation] at haddress
    cases haddress
  · rename_i hlocation
    cases h
    obtain rfl := List.mem_singleton.mp hslot
    exact suits_of_address hpool hlocation

theorem suits_furtherSlots {address : SocketAddress} (h : c.Suits p ⟨address, 0, false, []⟩)
    (weight : Nat) : ∀ slot ∈ furtherSlots address weight, c.Suits p slot := by
  intro slot hslot
  obtain ⟨i, -, rfl⟩ := List.mem_map.mp hslot
  exact h

theorem isPlaced_attaches {slots : List Slot} (h : ∀ slot ∈ slots, c.Suits p slot)
    (homes : List Home) : ∀ u ∈ attaches p slots, u.IsPlaced homes c := by
  intro u hu
  obtain ⟨slot, hslot, rfl⟩ := List.mem_map.mp hu
  exact ⟨h slot hslot, by rintro _ ⟨⟩⟩

theorem isPlaced_fanOut {f : FanOut} {address : SocketAddress}
    (h : c.Suits f.pool ⟨address, 0, false, []⟩) (hweight : 1 ≤ f.weight ∧ f.weight ≤ 10)
    (k : TaskId) (homes : List Home) : ∀ u ∈ fanOut f address k, u.IsPlaced homes c := by
  intro u hu
  rcases List.mem_cons.mp hu with rfl | hu
  · exact ⟨h.isSome, hweight⟩
  · exact isPlaced_attaches (suits_furtherSlots h f.weight) homes u hu

/-- The request for a service goes on for the pool that it has registered. -/
theorem isPlaced_connectNext (a : Activity) {service location : String} {timedOut : Bool}
    {s : Connecting} (h : (Task.connect service location s).IsPlaced a.homes a.client) :
    let next := a.connectNext service location timedOut s
    (Task.connect service location next.1).IsPlaced a.homes next.2.1 ∧
      ∀ u ∈ next.2.2, u.IsPlaced a.homes next.2.1 := by
  rcases hnext : a.connectNext service location timedOut s with ⟨s', client, begun⟩
  cases a.connects hnext with
  | stays => exact ⟨h, List.forall_mem_nil _⟩
  | registered service place =>
    refine ⟨fun p hp => ?_, List.forall_mem_nil _⟩
    cases hp
    rw [location?, pool?, List.getElem?_concat_length]
    rfl
  | attaching hpool hslots =>
    have hsteady := (calm_firstSlots hslots).toSteady
    refine ⟨fun q hq => isSome_location? (h q hq) hsteady, ?_⟩
    exact isPlaced_attaches (fun slot hslot =>
      (suits_firstSlots hpool hslots slot hslot).steady hsteady) a.homes
  | @fanningOut p ks pool address s hpool hlocation =>
    have hweight : 1 ≤ s.weight.val.toNat ∧ s.weight.val.toNat ≤ 10 :=
      ⟨s.weight.one_le, s.weight.le_ten⟩
    exact ⟨by rintro _ ⟨⟩, isPlaced_fanOut (suits_of_address hpool hlocation) hweight _ a.homes⟩
  | _ => exact ⟨by rintro _ ⟨⟩, List.forall_mem_nil _⟩

/-- What follows from a description is for the pool that it came for. -/
theorem isPlaced_describeNext (h : a.Placed) {s : Describing}
    (hplaced : (Task.describe p s).IsPlaced a.homes a.client) :
    (a.describeNext p s).task.IsPlaced a.homes (a.describeNext p s).client ∧
      ∀ u ∈ (a.describeNext p s).begun, u.IsPlaced a.homes (a.describeNext p s).client := by
  cases s with
  | arrived l body =>
    rw [describeNext]
    have hcalm := a.client.calm_understand p l body
    rcases hunderstand : a.client.understand p l body with ⟨_ | ⟨address, weight⟩, client⟩
    · exact ⟨trivial, List.forall_mem_nil _⟩
    · rw [hunderstand] at hcalm
      refine ⟨?_, List.forall_mem_nil _⟩
      obtain ⟨home, hhome, rfl⟩ := Option.map_eq_some_iff.mp hplaced
      obtain ⟨slot', hslot'⟩ := exists_slot? (h.lt_of_home hhome)
      have hsuits := h.suits l home slot' hhome hslot'
      obtain ⟨⟨slot, hslot, rfl⟩, hweight⟩ := understand_eq_some hunderstand hsuits.isSome
      obtain rfl := Option.some.inj (hslot.symm.trans hslot')
      obtain ⟨place, hplace, haddress⟩ := hsuits.steady hcalm.toSteady
      exact ⟨⟨place, hplace, fun address hp => ⟨(haddress address hp).1, rfl⟩⟩, hweight⟩
  | understood address weight =>
    rw [describeNext]
    have hcalm := a.client.calm_settleNumber p
    rcases hsettle : a.client.settleNumber p with ⟨_ | _, client⟩
    · exact ⟨trivial, List.forall_mem_nil _⟩
    · rw [hsettle] at hcalm
      exact ⟨trivial, isPlaced_fanOut (hplaced.1.steady hcalm.toSteady) hplaced.2 _ a.homes⟩
  | ended => exact ⟨trivial, List.forall_mem_nil _⟩

/-- A task that opens no connection goes on with what it mentions. -/
theorem isPlaced_act (h : a.Placed) (luck : Bool) (hplaced : t.IsPlaced a.homes a.client)
    (hlink : ∀ l, (a.act luck t).task.link? = some l → t.link? = some l) :
    (a.act luck t).task.IsPlaced a.homes (a.act luck t).client ∧
      ∀ u ∈ (a.act luck t).begun, u.IsPlaced a.homes (a.act luck t).client := by
  have hsteady := a.steady_act luck t
  have hjob := a.job_act luck t
  cases t with
  | attach p slot s =>
    obtain ⟨s', hnext⟩ := Task.job_eq_attach hjob
    refine ⟨?_, fun u hu => ?_⟩
    · rw [hnext] at hlink ⊢
      exact ⟨hplaced.1.steady hsteady, fun l hl => hplaced.2 l (hlink l hl)⟩
    · obtain ⟨l, rfl, rfl⟩ := a.begun_attachNext p slot luck s u hu
      rw [Task.IsPlaced, hplaced.2 l rfl]
      rfl
  | plan p l s => cases s <;> exact ⟨hplaced, List.forall_mem_nil _⟩
  | reopen r s =>
    obtain ⟨s', hnext⟩ := Task.job_eq_reopen hjob
    refine ⟨?_, fun u hu => ?_⟩
    · rw [hnext] at hlink ⊢
      exact ⟨hplaced.1, fun l hl => hplaced.2 l (hlink l hl)⟩
    · rw [act, begun_reopenNext] at hu
      cases hu
  | describe p s => exact h.isPlaced_describeNext hplaced
  | fanOut f ks ended =>
    have hkept := isSome_location? hplaced.1 hsteady
    rw [act, fanOutNext] at hkept ⊢
    split at hkept
    · rename_i hended
      rw [if_pos hended]
      exact ⟨⟨hkept, hplaced.2⟩, List.forall_mem_nil _⟩
    · rename_i hended
      rw [if_neg hended]
      exact ⟨⟨hkept, hplaced.2⟩, List.forall_mem_nil _⟩
  | closePool p s => exact ⟨trivial, List.forall_mem_nil _⟩
  | connect service location s => exact isPlaced_connectNext a hplaced
  | invoke p m parameter s => exact ⟨trivial, List.forall_mem_nil _⟩
  | shutdown s => exact ⟨trivial, List.forall_mem_nil _⟩

/-- Every step of a task leaves everything in its place. -/
theorem act (h : a.Placed) (ht : a.tasks[k]? = some t) (luck : Bool) :
    (a.perform k (a.act luck t)).Placed := by
  have hplaced := h.placed t (List.mem_of_getElem? ht)
  cases a.linking_act luck t with
  | kept hhomes hlinks hslots hlink =>
    have hnext := h.isPlaced_act luck hplaced hlink
    refine h.kept ht (a.steady_act luck t) (a.job_act luck t) hhomes hlinks hslots hlink hnext.1
      (fun u hu => ⟨a.isFresh_begun luck t u hu, hnext.2 u hu⟩) fun r hr => ?_
    rcases (a.kept_act luck).2 r hr with hr | rfl | ⟨r', rfl, hpool, hold⟩
    · exact Or.inl hr
    · exact Or.inr hplaced
    · rw [hpool, hold]
      exact Or.inr hplaced.1
  | @attached p slot s link htask hnext hslot hclient hhomes hstage hbegun =>
    subst htask hslot
    have hself : (a.homes ++ [⟨p, a.client.links.length⟩])[a.client.links.length]? =
        some ⟨p, a.client.links.length⟩ := by
      rw [← h.length]
      exact List.getElem?_concat_length
    have hlink := Attaching.link?_of_opened hstage
    refine h.added hclient hhomes hself hplaced.1 (fun p slot s' hs' => ?_) ?_ hbegun
    · cases hnext.symm.trans hs'
      exact ⟨hlink, rfl⟩
    · rw [hnext]
      refine ⟨hplaced.1.steady (a.steady_act luck _), fun l hl => ?_⟩
      obtain rfl := Option.some.inj (hlink.symm.trans hl)
      exact hself
  | @reopened r home link htask hnext hhome hslot hclient hhomes hbegun =>
    subst htask
    have hpool : home.pool = r.pool := by simpa [hhome] using hplaced.1
    have hfirst := h.first r.old home hhome
    have hsuits := h.suits_slotOf? hhome hslot
    rw [hpool] at hfirst hsuits
    refine h.added hclient hhomes (getElem?_append_of_eq_some hfirst _) hsuits
      (fun p slot s' hs' => ?_) ?_ hbegun
    · rw [hnext] at hs'
      cases hs'
    · rw [hnext]
      refine ⟨?_, fun l hl => ?_⟩
      · rw [getElem?_append_of_eq_some hhome, Option.map_some, hpool]
      · obtain rfl := Option.some.inj hl
        rw [← h.length, List.getElem?_concat_length]
        rfl

/-- Something happens from outside. -/
theorem outside (h : a.Placed) (hcalm : Calm a.client c) {begun : List Task}
    (hbegun : ∀ u ∈ begun, a.IsNew u) :
    Placed { a with client := c, tasks := a.tasks ++ begun } where
  length := h.length.trans hcalm.links.symm
  first := h.first
  suits l home slot hl hslot := by
    have hslot' : a.client.slot? l = some slot :=
      (hcalm.slot? l (h.lt_of_home hl)).symm.trans hslot
    exact (h.suits l home slot hl hslot').steady hcalm.toSteady
  placed u hu := by
    rcases List.mem_append.mp hu with hu | hu
    · exact List.append_nil a.homes ▸ (h.placed u hu).extend hcalm.toSteady []
    · have hnew := hbegun u hu
      unfold IsNew at hnew
      split at hnew
      · rintro _ ⟨⟩
      · trivial
      · trivial
      · trivial
      · exact hnew
      · exact hnew
      · exact ⟨h.reconnects _ hnew.1, by rintro _ ⟨⟩⟩
      · exact hnew.elim
  attached p slot s l hu hl := by
    rcases List.mem_append.mp hu with hu | hu
    · obtain ⟨positions, hslot⟩ := h.attached p slot s l hu hl
      exact ⟨positions, (hcalm.slot? l (lt_of_slot? hslot)).trans hslot⟩
    · exact (hbegun _ hu).elim
  reconnects r hr := h.reconnects r (hcalm.reconnects hr)

theorem start (config : ClientConfig) (serializers : Serializers) (directory : Option Directory)
    (worker : UInt64) : (start config serializers directory worker).Placed where
  length := rfl
  first l home hl := by cases hl
  suits l home slot hl := by cases hl
  placed t ht := by cases ht
  attached p slot s l ht := by cases ht
  reconnects r hr := by cases hr

/-- Every move leaves everything in its place. -/
theorem stepped {b : Activity} (h : a.Placed) (hs : Stepped a b) : b.Placed := by
  cases hs with
  | task ht luck => exact h.act ht luck
  | abort ht hshut =>
    have hplaced := h.placed _ (List.mem_of_getElem? ht)
    exact h.kept ht (Calm.refl _).toSteady rfl rfl rfl (.of_still (Calm.refl _).toStill rfl)
      (by rintro _ ⟨⟩)
      ⟨hplaced.1, by rintro _ ⟨⟩⟩ (List.forall_mem_nil _) fun _ => Or.inl
  | outside hcalm hbegun => exact h.outside hcalm hbegun

end Placed

/-- Everything is where it belongs after every run. -/
theorem placed_run {a : Activity} (h : a.Placed) (moves : List Move) : (a.run moves).Placed :=
  run_induction (fun _ _ hs hb => hb.stepped hs) h moves

end Activity

end RemoteCall.Client
