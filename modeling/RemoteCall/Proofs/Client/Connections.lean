import RemoteCall.Proofs.Client.FanOut

/-!
# The connections and positions of a pool at an address

Each slot that was to be connected for a pool at an address gets one connection, or a placeholder,
and later connections of the slot take over its positions. So the occupied positions of the ring are
those of the slots whose connections have entered it, and when all have there are ten for each slot
unless positions collide. How many slots there are follows from the fan-outs of the pool: a single
one opens as many connections as the service has weight, and each slot once. When a description
arrives at a pool that has fanned out at its start there are two fan-outs, and the slots of the
second one are connected although the first one has done so.

## Main definitions

* `Activity.Filled` : the ring of a pool at an address.
* `Activity.firstsOf` : how many connections were opened, not counting those in place of others.

## Main results

* `Activity.fan_outs_open_slots` : the slots, connections and positions of a pool at an address.
-/

namespace RemoteCall.Client

variable {c : Client} {p q : PoolId}

/-! ### Rings after a step -/

theorem ring_onRing_self (hp : (c.location? p).isSome = true) (f : Ring LinkId → Ring LinkId) :
    (c.onRing p f).ring p = f (c.ring p) := by
  rw [location?, Option.isSome_map] at hp
  obtain ⟨pool, hpool⟩ := Option.isSome_iff_exists.mp hp
  rw [ring, onRing, pool?_onPool, ring, hpool]
  simp

theorem ring_onRing_of_ne (h : q ≠ p) (f : Ring LinkId → Ring LinkId) :
    (c.onRing p f).ring q = c.ring q := by
  rcases c.ring_onRing_cases p f q with hsame | ⟨hq, -⟩
  · exact hsame
  · exact (h hq).elim

theorem ring_putOnRing_of_ne (h : q ≠ p) (l : LinkId) : (c.putOnRing p l).ring q = c.ring q := by
  cases hlink : c.link? l with
  | none => rw [putOnRing, hlink]
  | some link => rw [putOnRing_eq hlink, ring_onSlot, ring_onRing_of_ne h]

/-- A connection takes the positions of its slot. -/
theorem ring_putOnRing_self {l : LinkId} {slot : Slot} (hp : (c.location? p).isSome = true)
    (h : c.slot? l = some slot) :
    (c.putOnRing p l).ring p = (c.ring p).replace (Ring.positionsFor slot.name) l := by
  obtain ⟨link, hlink, rfl⟩ := Option.map_eq_some_iff.mp h
  rw [putOnRing_eq hlink, ring_onSlot, ring_onRing_self hp]

theorem ring_replaced_cases (c : Client) (r : Reconnect) (l : LinkId) (q : PoolId) :
    (c.replaced r l).ring q = c.ring q ∨ q = r.pool ∧ ∃ slot, c.slot? r.old = some slot ∧
      (c.replaced r l).ring q = (c.ring q).replace slot.positions l := by
  cases hold : c.link? r.old with
  | none =>
    left
    rw [replaced, hold]
  | some old =>
    rw [replaced_eq hold]
    rcases c.ring_onRing_cases r.pool (fun ring => ring.replace old.slot.positions l) q with
      hsame | ⟨rfl, hring⟩
    · exact Or.inl hsame
    · exact Or.inr ⟨rfl, old.slot, by rw [slot?, hold]; rfl, hring⟩

theorem ring_notReplaced_cases (c : Client) (r : Reconnect) (q : PoolId) :
    (c.notReplaced r).ring q = c.ring q ∨ q = r.pool ∧
      ∃ slot, c.slot? r.old = some slot ∧ slot.discovered = true := by
  rcases c.notReplaced_cases r with ⟨old, hold, hdiscovered, h⟩ | ⟨later, -, h⟩
  · by_cases hq : q = r.pool
    · exact Or.inr ⟨hq, old.slot, by rw [slot?, hold]; rfl, hdiscovered⟩
    · rw [h, ring_onRing_of_ne hq]
      exact Or.inl rfl
  · rw [h]
    exact Or.inl rfl

/-- The slot whose connection the task has put on the ring of the pool. -/
def Task.entered? (p : PoolId) : Task → Option Slot
  | attach q slot (.rechecking _) | attach q slot (.ended (some _)) =>
    if q = p then some slot else none
  | _ => none

namespace Activity

/-- The ring of a pool that lives at an address holds the positions of the slots that have entered
it, and connections know of no others. -/
structure Filled (a : Activity) (p : PoolId) : Prop where
  ordered : (a.client.ring p).Ordered
  known : ∀ (l : LinkId) (home : Home) (slot : Slot), a.homes[l]? = some home → home.pool = p →
    a.client.slot? l = some slot →
      ∀ position ∈ slot.positions, (a.client.ring p).Occupied position
  occupied : ∀ position, (a.client.ring p).Occupied position ↔
    ∃ t ∈ a.tasks, ∃ slot, t.entered? p = some slot ∧ position ∈ Ring.positionsFor slot.name
  /-- No slot is left out. -/
  reached : ∀ slot, .attach p slot (.ended none) ∉ a.tasks

namespace Filled

variable {a : Activity} {t : Task} {k : TaskId} {e : Effect} {address : SocketAddress}

theorem of_unknown (h : a.Placed) (hp : a.client.location? p = none) : a.Filled p := by
  have hpool : a.client.pool? p = none := Option.map_eq_none_iff.mp hp
  have hring : a.client.ring p = .empty := by rw [ring, hpool]; rfl
  have hnone {slot : Slot} {s : Attaching} : .attach p slot s ∉ a.tasks := by
    intro ht
    have hsome := (h.placed _ ht).1.isSome
    rw [hp] at hsome
    cases hsome
  refine ⟨hring ▸ Ring.ordered_empty, ?_, fun q => ⟨fun hq => ?_, ?_⟩, fun _ => hnone⟩
  · rintro l home slot hl rfl hslot
    have hsome := (h.suits l home slot hl hslot).isSome
    rw [hp] at hsome
    cases hsome
  · rw [hring] at hq
    cases hq
  · rintro ⟨t, ht, slot, hentered, -⟩
    unfold Task.entered? at hentered
    split at hentered
    · split at hentered
      · rename_i hq
        subst hq
        exact (hnone ht).elim
      · cases hentered
    · split at hentered
      · rename_i hq
        subst hq
        exact (hnone ht).elim
      · cases hentered
    · cases hentered

/-- A task makes a step and the ring gets the positions of the slot that it enters. -/
theorem perform (h : a.Filled p) (ht : a.tasks[k]? = some t) (hbegun : ∀ u ∈ e.begun, IsFresh u)
    (hordered : (e.client.ring p).Ordered)
    (hknown : ∀ (l : LinkId) (home : Home) (slot : Slot), (a.homes ++ e.homes)[l]? = some home →
      home.pool = p → e.client.slot? l = some slot →
        ∀ position ∈ slot.positions, (e.client.ring p).Occupied position)
    (hoccupied : ∀ position, (e.client.ring p).Occupied position ↔
      (a.client.ring p).Occupied position ∨
        ∃ slot, e.task.entered? p = some slot ∧ position ∈ Ring.positionsFor slot.name)
    (hentered : ∀ slot, t.entered? p = some slot → e.task.entered? p = some slot)
    (hreached : ∀ slot, e.task = .attach p slot (.ended none) → e.task ∈ a.tasks) :
    (a.perform k e).Filled p := by
  refine ⟨hordered, hknown, fun position => ?_, fun slot hu => ?_⟩
  · refine (hoccupied position).trans ⟨?_, ?_⟩
    · rintro (hold | ⟨slot, hslot, hmem⟩)
      · obtain ⟨u, hu, slot, hslot, hmem⟩ := (h.occupied position).mp hold
        by_cases hut : u = t
        · exact ⟨e.task, task_mem_perform ht, slot, hentered slot (hut ▸ hslot), hmem⟩
        · exact ⟨u, mem_perform_of_ne ht hu hut, slot, hslot, hmem⟩
      · exact ⟨e.task, task_mem_perform ht, slot, hslot, hmem⟩
    · rintro ⟨u, hu, slot, hslot, hmem⟩
      rcases mem_perform hu with hu | rfl | hu
      · exact Or.inl ((h.occupied position).mpr ⟨u, hu, slot, hslot, hmem⟩)
      · exact Or.inr ⟨slot, hslot, hmem⟩
      · have hfresh := hbegun u hu
        unfold IsFresh at hfresh
        split at hfresh <;> first | cases hslot | exact hfresh.elim
  · rcases mem_perform hu with hu | hu | hu
    · exact h.reached slot hu
    · exact h.reached slot (hu ▸ hreached slot hu.symm)
    · exact hbegun _ hu

/-- What a connection that is not the first one takes over is known. -/
theorem known_slotOf? (h : a.Filled p) (hplaced : a.Placed) {l : LinkId} {home : Home} {slot : Slot}
    (hl : a.homes[l]? = some home) (hpool : home.pool = p) (hslot : a.slotOf? l = some slot) :
    ∀ position ∈ slot.positions, (a.client.ring p).Occupied position := by
  obtain ⟨home', hhome, hfirst⟩ := slotOf?_eq_some hslot
  obtain rfl := Option.some.inj (hl.symm.trans hhome)
  exact h.known home.first _ slot (hplaced.first l home hl) hpool hfirst

/-- A task makes a step that leaves the occupied positions. -/
theorem same (h : a.Filled p) (hplaced : a.Placed)
    (hblank : ∀ slot ∈ a.slotsOf p, slot.positions = []) (ht : a.tasks[k]? = some t)
    (hbegun : ∀ u ∈ e.begun, IsFresh u) (hlinking : a.Linking t e)
    (hordered : (e.client.ring p).Ordered)
    (hring : ∀ position,
      (e.client.ring p).Occupied position ↔ (a.client.ring p).Occupied position)
    (hkept : ∀ (l : LinkId) (home : Home) (slot : Slot), a.homes[l]? = some home →
      home.pool = p → e.client.slot? l = some slot →
        a.client.slot? l = some slot ∨ a.slotOf? l = some slot)
    (hentered : e.task.entered? p = t.entered? p)
    (hreached : ∀ slot, e.task = .attach p slot (.ended none) → e.task ∈ a.tasks) :
    (a.perform k e).Filled p := by
  have hold {l : LinkId} {home : Home} {slot : Slot} (hl : a.homes[l]? = some home)
      (hpool : home.pool = p) (hslot : e.client.slot? l = some slot) :
      ∀ position ∈ slot.positions, (a.client.ring p).Occupied position := by
    rcases hkept l home slot hl hpool hslot with hslot | hslot
    · exact h.known l home slot hl hpool hslot
    · exact h.known_slotOf? hplaced hl hpool hslot
  refine h.perform ht hbegun hordered (fun l home slot hl hpool hslot position hmem => ?_)
    (fun position => ?_) (fun slot hslot => hentered.trans hslot) hreached
  · refine (hring position).mpr ?_
    cases hlinking with
    | kept hhomes =>
      rw [hhomes, List.append_nil] at hl
      exact hold hl hpool hslot position hmem
    | @attached q slot' s link htask hnext hlink hclient hhomes =>
      rw [hhomes] at hl
      rcases hplaced.home_cases hl with hl | ⟨rfl, rfl⟩
      · exact hold hl hpool hslot position hmem
      · obtain rfl : q = p := hpool
        rw [hclient, slot?_addLink_self, hlink] at hslot
        subst htask
        rw [← Option.some.inj hslot, hblank slot' (mem_slotsOf (List.mem_of_getElem? ht))] at hmem
        cases hmem
    | @reopened r home' link htask hnext hhome hlink hclient hhomes =>
      rw [hhomes] at hl
      rcases hplaced.home_cases hl with hl | ⟨rfl, rfl⟩
      · exact hold hl hpool hslot position hmem
      · rw [hclient, slot?_addLink_self] at hslot
        subst htask
        have hself : home'.pool = r.pool := by
          simpa [hhome] using (hplaced.placed _ (List.mem_of_getElem? ht)).1
        exact h.known_slotOf? hplaced hhome (hself.trans hpool) (hlink.trans hslot) position hmem
  · refine (hring position).trans ⟨Or.inl, ?_⟩
    rintro (hocc | ⟨slot, hslot, hmem⟩)
    · exact hocc
    · exact (h.occupied position).mpr
        ⟨t, List.mem_of_getElem? ht, slot, hentered.symm.trans hslot, hmem⟩

/-- An attach enters the ring. -/
theorem enter {slot : Slot} {s : Attaching} {l : LinkId} (h : a.Filled p) (hplaced : a.Placed)
    (ht : a.tasks[k]? = some (.attach p slot s)) (hs : s = .opened l ∨ s = .refused l)
    (hbegun : ∀ u ∈ e.begun, IsFresh u) (hclient : e.client = a.client.putOnRing p l)
    (hhomes : e.homes = []) (hentered : e.task.entered? p = some slot) :
    (a.perform k e).Filled p := by
  have hmem := List.mem_of_getElem? ht
  obtain ⟨positions, hslot⟩ := hplaced.attached p slot s l hmem (Attaching.link?_of_opened hs)
  have hring : e.client.ring p = (a.client.ring p).replace (Ring.positionsFor slot.name) l := by
    have hput := ring_putOnRing_self (hplaced.placed _ hmem).1.isSome hslot
    rwa [← hclient] at hput
  have hoccupied (position : UInt64) : (e.client.ring p).Occupied position ↔
      position ∈ Ring.positionsFor slot.name ∨ (a.client.ring p).Occupied position := by
    rw [hring, Ring.occupied_replace]
  refine h.perform ht hbegun (hring ▸ h.ordered.replace _ l)
    (fun m home slot' hm hpool hslot' position hposition => ?_) (fun position => ?_) ?_ ?_
  · rw [hhomes, List.append_nil] at hm
    rw [hclient, slot?_putOnRing, Option.map_eq_some_iff] at hslot'
    obtain ⟨old, hold, rfl⟩ := hslot'
    by_cases hlm : l = m
    · subst hlm
      obtain rfl := Option.some.inj (hslot.symm.trans hold)
      rw [if_pos rfl] at hposition
      exact (hoccupied position).mpr (Or.inl hposition)
    · rw [if_neg hlm] at hposition
      exact (hoccupied position).mpr (Or.inr (h.known m home old hm hpool hold position hposition))
  · rw [hoccupied, hentered]
    constructor
    · exact fun hor => hor.symm.imp_right fun hposition => ⟨slot, rfl, hposition⟩
    · rintro (hocc | ⟨slot', hslot', hposition⟩)
      · exact Or.inr hocc
      · obtain rfl := Option.some.inj hslot'
        exact Or.inl hposition
  · rcases hs with rfl | rfl <;> rintro _ ⟨⟩
  · intro slot' hnext
    rw [hnext] at hentered
    cases hentered

/-! ### Each step of a task -/

theorem entered?_act (a : Activity) (luck : Bool) {t : Task}
    (h : ∀ slot l, t ≠ .attach p slot (.opened l) ∧ t ≠ .attach p slot (.refused l)) :
    (a.act luck t).task.entered? p = t.entered? p := by
  have hjob := a.job_act luck t
  cases t with
  | attach q slot s =>
    cases s with
    | connecting =>
      rw [Activity.act, attachNext]
      split
      · rfl
      · split <;> rfl
    | opened l =>
      have hq : q ≠ p := by
        rintro rfl
        exact (h slot l).1 rfl
      exact if_neg hq
    | refused l =>
      have hq : q ≠ p := by
        rintro rfl
        exact (h slot l).2 rfl
      exact if_neg hq
    | _ => rfl
  | _ =>
    generalize (a.act luck _).task = u at hjob ⊢
    cases u with
    | attach => cases hjob
    | _ => rfl

/-- An attach leaves a slot out only if a directory gave it. -/
theorem discovered_of_act {luck : Bool} {slot : Slot}
    (h : (a.act luck t).task = .attach p slot (.ended none)) :
    t = .attach p slot (.ended none) ∨ slot.discovered = true := by
  have hjob := a.job_act luck t
  rw [h] at hjob
  obtain ⟨s, rfl⟩ := Task.job_eq_attach hjob.symm
  cases s with
  | connecting =>
    rw [Activity.act, attachNext] at h
    split at h
    · cases h
    · split at h
      · rename_i hdiscovered
        exact Or.inr hdiscovered
      · cases h
  | ended l =>
    cases h
    exact Or.inl rfl
  | _ => cases h

/-- A connection enters the ring of its pool, and no other one. -/
theorem put {slot : Slot} {s : Attaching} {l : LinkId} (h : a.Filled p) (hplaced : a.Placed)
    (hblank : ∀ slot ∈ a.slotsOf p, slot.positions = [])
    (ht : a.tasks[k]? = some (.attach q slot s)) (hs : s = .opened l ∨ s = .refused l)
    (luck : Bool)
    (hreached : ∀ slot', (a.act luck (.attach q slot s)).task = .attach p slot' (.ended none) →
      (a.act luck (.attach q slot s)).task ∈ a.tasks) :
    (a.perform k (a.act luck (.attach q slot s))).Filled p := by
  have hbegun := a.isFresh_begun luck (.attach q slot s)
  have hclient : (a.act luck (.attach q slot s)).client = a.client.putOnRing q l := by
    rcases hs with rfl | rfl <;> rfl
  have hhomes : (a.act luck (.attach q slot s)).homes = [] := by
    rcases hs with rfl | rfl <;> rfl
  by_cases hq : q = p
  · subst hq
    refine h.enter hplaced ht hs hbegun hclient hhomes ?_
    rcases hs with rfl | rfl <;> exact if_pos rfl
  · have hring : (a.act luck (.attach q slot s)).client.ring p = a.client.ring p := by
      rw [hclient, ring_putOnRing_of_ne (Ne.symm hq)]
    refine h.same hplaced hblank ht hbegun (a.linking_act luck _) (hring ▸ h.ordered)
      (fun position => by rw [hring]) (fun m home slot' hm hpool hslot' => Or.inl ?_)
      (entered?_act a luck fun slot' m => ?_) hreached
    · rw [hclient, slot?_putOnRing, Option.map_eq_some_iff] at hslot'
      obtain ⟨old, hold, rfl⟩ := hslot'
      have hlm : l ≠ m := by
        rintro rfl
        have hhome := (hplaced.placed _ (List.mem_of_getElem? ht)).2 l
          (Attaching.link?_of_opened hs)
        rw [hm] at hhome
        exact hq ((congrArg Home.pool (Option.some.inj hhome)).symm.trans hpool)
      rw [if_neg hlm]
      exact hold
    · constructor <;> rintro ⟨⟩ <;> exact hq rfl

/-- A slot that is to be connected again is reached or tried again. -/
theorem reopen_connecting {r : Reconnect} (h : a.Filled p) (hplaced : a.Placed)
    (hblank : ∀ slot ∈ a.slotsOf p, slot.positions = [])
    (hkeeps : ∀ slot, a.client.Suits p slot → slot.discovered = false)
    (ht : a.tasks[k]? = some (.reopen r .connecting)) (luck : Bool)
    (hreached : ∀ slot', (a.act luck (.reopen r .connecting)).task =
      .attach p slot' (.ended none) → (a.act luck (.reopen r .connecting)).task ∈ a.tasks) :
    (a.perform k (a.act luck (.reopen r .connecting))).Filled p := by
  have hself := (hplaced.placed _ (List.mem_of_getElem? ht)).1
  obtain ⟨home, hhome, hpool⟩ := Option.map_eq_some_iff.mp hself
  have hring : (a.act luck (.reopen r .connecting)).client.ring p = a.client.ring p := by
    rw [Activity.act, reopenNext]
    split
    · split
      · rename_i slot _ _
        obtain ⟨link, -, hopened⟩ := a.client.opened_eq r.pool slot
        rw [hopened]
        rfl
      · rfl
    · rcases (a.withPositions r.old).ring_notReplaced_cases r p with hsame | ⟨rfl, slot, hslot, hd⟩
      · exact hsame.trans (ring_withPositions a r.old p)
      · have hsuits : a.client.Suits r.pool slot := by
          rcases slot?_withPositions hslot with hslot | ⟨-, hslot⟩
          · exact hpool ▸ hplaced.suits r.old home slot hhome hslot
          · exact hpool ▸ hplaced.suits_slotOf? hhome hslot
        exact (Bool.false_ne_true ((hkeeps slot hsuits).symm.trans hd)).elim
  refine h.same hplaced hblank ht (a.isFresh_begun luck _) (a.linking_act luck _)
    (hring ▸ h.ordered) (fun position => by rw [hring]) (fun l home slot hl _ hslot => ?_)
    (entered?_act a luck fun slot l => ⟨by rintro ⟨⟩, by rintro ⟨⟩⟩) hreached
  rw [Activity.act, reopenNext] at hslot
  split at hslot
  · left
    split at hslot
    · rename_i slot' _ _
      obtain ⟨link, -, hopened⟩ := a.client.opened_eq r.pool slot'
      rwa [hopened, slot?_addLink _ _ (hplaced.lt_of_home hl)] at hslot
    · exact hslot
  · rw [slot?, link?, links_notReplaced] at hslot
    rcases slot?_withPositions hslot with hkept | ⟨rfl, hfirst⟩
    · exact Or.inl hkept
    · exact Or.inr hfirst

/-- A slot that is connected again takes over positions that are occupied. -/
theorem reopen_opened {r : Reconnect} {l : LinkId} (h : a.Filled p) (hplaced : a.Placed)
    (hblank : ∀ slot ∈ a.slotsOf p, slot.positions = [])
    (ht : a.tasks[k]? = some (.reopen r (.opened l))) (luck : Bool)
    (hreached : ∀ slot', (a.act luck (.reopen r (.opened l))).task =
      .attach p slot' (.ended none) → (a.act luck (.reopen r (.opened l))).task ∈ a.tasks) :
    (a.perform k (a.act luck (.reopen r (.opened l)))).Filled p := by
  obtain ⟨home, hhome, hpool⟩ :=
    Option.map_eq_some_iff.mp (hplaced.placed _ (List.mem_of_getElem? ht)).1
  have hring : ((a.act luck (.reopen r (.opened l))).client.ring p).Ordered ∧
      ∀ position, ((a.act luck (.reopen r (.opened l))).client.ring p).Occupied position ↔
        (a.client.ring p).Occupied position := by
    rw [Activity.act, reopenNext]
    rcases (a.withPositions r.old).ring_replaced_cases r l p with hsame | ⟨rfl, slot, hslot, hring⟩
    · rw [hsame, ring_withPositions]
      exact ⟨h.ordered, fun _ => Iff.rfl⟩
    · rw [hring, ring_withPositions]
      refine ⟨h.ordered.replace _ l, fun position => ?_⟩
      rw [Ring.occupied_replace]
      refine ⟨?_, Or.inr⟩
      rintro (hposition | hocc)
      · rcases slot?_withPositions hslot with hslot | ⟨-, hslot⟩
        · exact h.known r.old home slot hhome hpool hslot position hposition
        · exact h.known_slotOf? hplaced hhome hpool hslot position hposition
      · exact hocc
  refine h.same hplaced hblank ht (a.isFresh_begun luck _) (a.linking_act luck _) hring.1 hring.2
    (fun m home slot _ _ hslot => ?_)
    (entered?_act a luck fun slot l => ⟨by rintro ⟨⟩, by rintro ⟨⟩⟩) hreached
  rw [Activity.act, reopenNext, slot?, link?, links_replaced] at hslot
  rcases slot?_withPositions hslot with hkept | ⟨rfl, hfirst⟩
  · exact Or.inl hkept
  · exact Or.inr hfirst

/-- Every step of a task leaves the ring filled. -/
theorem act (h : a.Filled p) (hplaced : a.Placed) (hprovided : a.Provided p address)
    (ht : a.tasks[k]? = some t) (luck : Bool)
    (hlocation : (a.act luck t).client.location? p = some (.address address)) :
    (a.perform k (a.act luck t)).Filled p := by
  have hmem := List.mem_of_getElem? ht
  have hbegun := a.isFresh_begun luck t
  have hlinking := a.linking_act luck t
  have hsteady := a.steady_act luck t
  have hblank (slot : Slot) (hslot : slot ∈ a.slotsOf p) : slot.positions = [] :=
    (hprovided.mem_slotsOf hslot).2.2
  have hreached (slot : Slot) (hnext : (a.act luck t).task = .attach p slot (.ended none)) :
      (a.act luck t).task ∈ a.tasks := by
    rcases discovered_of_act hnext with rfl | hdiscovered
    · exact (h.reached slot hmem).elim
    · have hjob := a.job_act luck t
      rw [hnext] at hjob
      obtain ⟨s, rfl⟩ := Task.job_eq_attach hjob.symm
      rw [(hprovided.mem_slotsOf (mem_slotsOf hmem)).2.1] at hdiscovered
      cases hdiscovered
  by_cases hstill : t.IsStill a.client
  · have hkept := a.still_act luck hstill
    refine h.same hplaced hblank ht hbegun hlinking (hkept.ring p ▸ h.ordered)
      (fun position => by rw [hkept.ring p]) (fun l home slot hl _ hslot => Or.inl ?_)
      (entered?_act a luck fun slot l => ?_) hreached
    · rwa [hkept.slot? l (hplaced.lt_of_home hl)] at hslot
    · constructor <;> rintro rfl <;> exact hstill
  · unfold Task.IsStill at hstill
    split at hstill
    · exact h.put hplaced hblank ht (Or.inl rfl) luck hreached
    · exact h.put hplaced hblank ht (Or.inr rfl) luck hreached
    · refine h.reopen_connecting hplaced hblank (fun slot hsuits => ?_) ht luck hreached
      obtain ⟨place, hplace, haddress⟩ := hsuits
      exact (haddress address (Option.some.inj
        ((hsteady.location? p place hplace).symm.trans hlocation))).2
    · exact h.reopen_opened hplaced hblank ht luck hreached
    · obtain ⟨q, hq⟩ := not_forall.mp hstill
      obtain ⟨hclosing, hshut⟩ := Classical.not_imp.mp hq
      have hclient : (a.act luck t).client = a.client.mark q := by
        rw [(a.act_closing luck hclosing (by decide)).1, Closing.next, if_neg hshut]
        rfl
      have hring : (a.act luck t).client.ring p = a.client.ring p := by rw [hclient, ring_mark]
      refine h.same hplaced hblank ht hbegun hlinking (hring ▸ h.ordered)
        (fun position => by rw [hring]) (fun l home slot _ _ hslot => Or.inl ?_)
        (entered?_act a luck fun slot l => ?_) hreached
      · rwa [hclient] at hslot
      · constructor <;> rintro rfl <;> cases hclosing

/-- Something happens from outside. -/
theorem outside {c : Client} {begun : List Task} (h : a.Filled p) (hplaced : a.Placed)
    (hcalm : Calm a.client c) (hbegun : ∀ u ∈ begun, a.IsNew u) :
    Filled { a with client := c, tasks := a.tasks ++ begun } p where
  ordered := hcalm.ring p ▸ h.ordered
  known l home slot hl hpool hslot := by
    rw [hcalm.slot? l (hplaced.lt_of_home hl)] at hslot
    rw [hcalm.ring p]
    exact h.known l home slot hl hpool hslot
  occupied position := by
    rw [hcalm.ring p, h.occupied]
    constructor
    · rintro ⟨t, ht, hslot⟩
      exact ⟨t, List.mem_append_left _ ht, hslot⟩
    · rintro ⟨t, ht, slot, hslot, hmem⟩
      rcases List.mem_append.mp ht with ht | ht
      · exact ⟨t, ht, slot, hslot, hmem⟩
      · have hnew := hbegun t ht
        unfold IsNew at hnew
        split at hnew <;> first | cases hslot | exact hnew.elim
  reached slot ht := by
    rcases List.mem_append.mp ht with ht | ht
    · exact h.reached slot ht
    · exact hbegun _ ht

/-- Every move leaves the ring filled. -/
theorem stepped {b : Activity} (h : a.Filled p) (hs : Stepped a b) (hplaced : a.Placed)
    (hprovided : a.Provided p address)
    (hlocation : b.client.location? p = some (.address address)) : b.Filled p := by
  cases hs with
  | task ht luck => exact h.act hplaced hprovided ht luck hlocation
  | abort ht hshutdown =>
    refine h.same hplaced (fun slot hslot => (hprovided.mem_slotsOf hslot).2.2) ht
      (List.forall_mem_nil _) (.of_calm a (.refl _) rfl fun _ => id) h.ordered (fun _ => Iff.rfl)
      (fun _ _ _ _ _ => Or.inl) rfl (by rintro _ ⟨⟩)
  | outside hcalm hbegun => exact h.outside hplaced hcalm hbegun

end Filled

end Activity

/-! ### Connections that are opened -/

/-- The task has opened the first connection of a slot of the pool, or has a placeholder for it. -/
def Task.hasFirst (p : PoolId) : Task → Bool
  | attach q _ s => q == p && s.link?.isSome
  | _ => false

namespace Activity

/-- How many connections were opened for the pool that are the first ones of their slots. -/
def firstsOf (a : Activity) (p : PoolId) : Nat :=
  a.homes.zipIdx.countP fun h => h.1 == ⟨p, h.2⟩

/-- The first connections are those of the attaches. -/
def Counted (a : Activity) (p : PoolId) : Prop :=
  a.firstsOf p = a.tasks.countP (Task.hasFirst p)

section Counting

variable {a : Activity} {t : Task} {k : TaskId} {e : Effect}

theorem firstsOf_append (a : Activity) (home : Home) (c : Client) (ts : List Task) (p : PoolId) :
    firstsOf ⟨c, a.homes ++ [home], ts⟩ p =
      a.firstsOf p + (home == (⟨p, a.homes.length⟩ : Home)).toNat := by
  rw [firstsOf, firstsOf, List.zipIdx_append, List.countP_append]
  cases h : home == (⟨p, a.homes.length⟩ : Home) <;> simp [h]

theorem hasFirst_act (luck : Bool)
    (hlink : ∀ l, (a.act luck t).task.link? = some l → t.link? = some l) :
    (a.act luck t).task.hasFirst p = t.hasFirst p := by
  have hjob := a.job_act luck t
  cases t with
  | attach q slot s =>
    cases s with
    | connecting =>
      obtain ⟨s, hnext⟩ := Task.job_eq_attach hjob
      rw [hnext] at hlink ⊢
      have hnone : s.link? = none :=
        Option.eq_none_iff_forall_ne_some.mpr fun l hl => by cases hlink l hl
      rw [Task.hasFirst, Task.hasFirst, hnone]
      rfl
    | _ => rfl
  | _ =>
    generalize (a.act luck _).task = u at hjob ⊢
    cases u with
    | attach => cases hjob
    | _ => rfl

theorem countP_hasFirst_eq_zero {ts : List Task} (h : ∀ u ∈ ts, IsFresh u ∨ a.IsNew u) :
    ts.countP (Task.hasFirst p) = 0 := by
  refine List.countP_eq_zero.mpr fun u hu hfirst => ?_
  cases u with
  | attach q slot s =>
    rcases h _ hu with hfresh | hnew
    · cases s with
      | connecting => simp [Task.hasFirst, Attaching.link?] at hfirst
      | _ => exact hfresh
    · exact hnew
  | _ => cases hfirst

/-- Every move opens as many first connections as attaches go beyond connecting. -/
theorem Counted.stepped {b : Activity} (h : a.Counted p) (hs : Stepped a b) (hplaced : a.Placed) :
    b.Counted p := by
  cases hs with
  | @task k t ht luck =>
    have hcount := countP_perform (Task.hasFirst p) ht (e := a.act luck t)
    rw [countP_hasFirst_eq_zero (a := a) fun u hu => Or.inl (a.isFresh_begun luck t u hu),
      ← h] at hcount
    rw [Counted]
    cases a.linking_act luck t with
    | kept hhomes hlinks hslots hlink =>
      rw [hasFirst_act luck hlink] at hcount
      have hfirsts : (a.perform k (a.act luck t)).firstsOf p = a.firstsOf p := by
        rw [firstsOf, perform, hhomes, List.append_nil]
        rfl
      omega
    | @attached q slot s link htask hnext hslot hclient hhomes hstage =>
      have hfirsts : (a.perform k (a.act luck t)).firstsOf p =
          a.firstsOf p + ((⟨q, a.client.links.length⟩ : Home) == ⟨p, a.homes.length⟩).toNat := by
        rw [perform, hhomes, firstsOf_append]
      have hnew : (a.act luck t).task.hasFirst p =
          ((⟨q, a.client.links.length⟩ : Home) == ⟨p, a.homes.length⟩) := by
        rw [hnext, Task.hasFirst, Attaching.link?_of_opened hstage, hplaced.length]
        by_cases hq : q = p <;> simp [hq]
      have hold : t.hasFirst p = false := by
        rw [htask, Task.hasFirst, Attaching.link?, Option.isSome_none, Bool.and_false]
      rw [hold, hnew] at hcount
      rw [hfirsts]
      exact hcount.symm
    | @reopened r home link htask hnext hhome hslot hclient hhomes =>
      have hne : ((⟨r.pool, home.first⟩ : Home) == ⟨p, a.homes.length⟩) = false := by
        have hlt := (List.getElem?_eq_some_iff.mp (hplaced.first r.old home hhome)).1
        simp [Nat.ne_of_lt hlt]
      have hfirsts : (a.perform k (a.act luck t)).firstsOf p = a.firstsOf p := by
        rw [perform, hhomes, firstsOf_append, hne]
        rfl
      have hnew : (a.act luck t).task.hasFirst p = false := by rw [hnext]; rfl
      have hold : t.hasFirst p = false := by rw [htask]; rfl
      rw [hnew, hold] at hcount
      rw [hfirsts]
      exact hcount.symm
  | @abort k r ht hshutdown =>
    have hcount : (a.perform k { task := .reopen r .ended, client := a.client }).tasks.countP
        (Task.hasFirst p) = a.tasks.countP (Task.hasFirst p) :=
      countP_perform (Task.hasFirst p) ht
    have hfirsts : (a.perform k { task := .reopen r .ended, client := a.client }).firstsOf p =
        a.firstsOf p := by
      rw [firstsOf, perform, List.append_nil]
      rfl
    exact hfirsts.trans (h.trans hcount.symm)
  | outside hcalm hbegun =>
    rw [Counted, List.countP_append,
      countP_hasFirst_eq_zero fun u hu => Or.inr (hbegun u hu)]
    exact h

end Counting

/-! ### Attaches that fan-outs wait for -/

section Waiting

variable {a : Activity} {t : Task} {k : TaskId} {e : Effect} {address : SocketAddress}
  {ks : List TaskId}

/-- A fan-out of the pool waits for the task. -/
def Awaited (a : Activity) (p : PoolId) (i : TaskId) : Prop :=
  ∃ f ks ended, .fanOut f ks ended ∈ a.tasks ∧ f.pool = p ∧ i ∈ ks

/-- Every attach for the pool is the first one or has a fan-out that waits for it. -/
def Led (a : Activity) (p : PoolId) : Prop :=
  ∀ (i : TaskId) (slot : Slot) (s : Attaching), a.tasks[i]? = some (.attach p slot s) →
    slot.index = 0 ∨ a.Awaited p i

/-- Fan-outs that have ended have waited. -/
def Waited (a : Activity) : Prop :=
  ∀ f ks, .fanOut f ks true ∈ a.tasks → a.haveEnded ks = true

/-- A fan-out goes on to wait for the same tasks, and ends when they have. -/
theorem fanOutNext_eq (a : Activity) (f : FanOut) (ks : List TaskId) (ended : Bool) :
    (a.fanOutNext f ks ended).task = .fanOut f ks (ended || a.haveEnded ks) := by
  rw [fanOutNext]
  cases ended <;> cases a.haveEnded ks <;> rfl

theorem haveEnded_append {c : Client} {homes : List Home} {begun : List Task}
    (h : a.haveEnded ks = true) : haveEnded ⟨c, homes, a.tasks ++ begun⟩ ks = true := by
  refine List.all_eq_true.mpr fun i hi => ?_
  obtain ⟨u, hu, hended⟩ := (Option.any_eq_true _ _).mp (List.all_eq_true.mp h i hi)
  refine (Option.any_eq_true _ _).mpr ⟨u, getElem?_append_of_eq_some hu begun, hended⟩

theorem haveEnded_perform (ht : a.tasks[k]? = some t)
    (hkept : t.hasEnded = true → e.task.hasEnded = true) (h : a.haveEnded ks = true) :
    (a.perform k e).haveEnded ks = true := by
  have hset : haveEnded ⟨a.client, a.homes, a.tasks.set k e.task⟩ ks = true := by
    refine List.all_eq_true.mpr fun i hi => ?_
    obtain ⟨u, hu, hended⟩ := (Option.any_eq_true _ _).mp (List.all_eq_true.mp h i hi)
    by_cases hik : k = i
    · subst hik
      obtain rfl := Option.some.inj (ht.symm.trans hu)
      exact (Option.any_eq_true _ _).mpr ⟨e.task,
        List.getElem?_set_self (List.getElem?_eq_some_iff.mp ht).1, hkept hended⟩
    · exact (Option.any_eq_true _ _).mpr ⟨u, (List.getElem?_set_ne hik).trans hu, hended⟩
  exact haveEnded_append hset

theorem Waited.stepped {b : Activity} (h : a.Waited) (hs : Stepped a b) : b.Waited := by
  cases hs with
  | @task k t ht luck =>
    intro f ks hf
    have hended : a.haveEnded ks = true := by
      rcases mem_perform hf with hf | hnext | hf
      · exact h f ks hf
      · have hjob := a.job_act luck t
        rw [← hnext] at hjob
        cases t with
        | fanOut f' ks' ended =>
          have hnext' := hnext.trans (a.fanOutNext_eq f' ks' ended)
          simp only [Task.fanOut.injEq, Bool.true_eq, Bool.or_eq_true] at hnext'
          obtain ⟨rfl, rfl, rfl | hended⟩ := hnext'
          · exact h f ks (List.mem_of_getElem? ht)
          · exact hended
        | _ => cases hjob
      · exact (a.isFresh_begun luck t _ hf).elim
    refine haveEnded_perform ht (fun hended => ?_) hended
    rw [a.task_act_of_hasEnded luck hended]
    exact hended
  | abort ht hshutdown =>
    intro f ks hf
    rcases mem_perform hf with hf | hf | hf
    · exact haveEnded_perform ht (by rintro ⟨⟩) (h f ks hf)
    · cases hf
    · cases hf
  | outside hcalm hbegun =>
    intro f ks hf
    rcases List.mem_append.mp hf with hf | hf
    · exact haveEnded_append (h f ks hf)
    · exact (hbegun _ hf).elim

namespace Led

/-- A task makes a step, and attaches are begun in their order. -/
theorem perform (h : a.Led p) (ht : a.tasks[k]? = some t) (hjob : e.task.job = t.job)
    (hfanOut : ∀ f ks ended, t = .fanOut f ks ended → ∃ ended, e.task = .fanOut f ks ended)
    (hbegun : ∀ (j : Nat) (slot : Slot) (s : Attaching), e.begun[j]? = some (.attach p slot s) →
      slot.index = 0 ∨ ∃ f ks ended, .fanOut f ks ended ∈ e.begun ∧ f.pool = p ∧
        a.tasks.length + j ∈ ks) : (a.perform k e).Led p := by
  have hawaited {i : TaskId} (hi : a.Awaited p i) : (a.perform k e).Awaited p i := by
    obtain ⟨f, ks, ended, hf, hpool, hmem⟩ := hi
    by_cases hft : Task.fanOut f ks ended = t
    · obtain ⟨ended', hnext⟩ := hfanOut f ks ended hft.symm
      exact ⟨f, ks, ended', hnext ▸ task_mem_perform ht, hpool, hmem⟩
    · exact ⟨f, ks, ended, mem_perform_of_ne ht hf hft, hpool, hmem⟩
  intro i slot s hi
  rcases Nat.lt_or_ge i a.tasks.length with hlt | hge
  · have hold : ∃ s, a.tasks[i]? = some (.attach p slot s) := by
      rw [Activity.perform, List.getElem?_append_left (by rwa [List.length_set])] at hi
      by_cases hik : k = i
      · subst hik
        rw [List.getElem?_set_self hlt] at hi
        rw [Option.some.inj hi] at hjob
        obtain ⟨s', rfl⟩ := Task.job_eq_attach hjob.symm
        exact ⟨s', ht⟩
      · rw [List.getElem?_set_ne hik] at hi
        exact ⟨s, hi⟩
    obtain ⟨s', hs'⟩ := hold
    exact (h i slot s' hs').imp_right hawaited
  · rw [Activity.perform, List.getElem?_append_right (by rwa [List.length_set]),
      List.length_set] at hi
    refine (hbegun _ slot s hi).imp_right ?_
    rintro ⟨f, ks, ended, hf, hpool, hmem⟩
    rw [Nat.add_sub_cancel' hge] at hmem
    exact ⟨f, ks, ended, List.mem_append_right _ hf, hpool, hmem⟩

/-- A fan-out waits for the attaches that are begun with it. -/
theorem mem_range'_of_fanOut {f : FanOut} {m j : Nat} {slot : Slot} {s : Attaching}
    (hj : (fanOut f address m)[j]? = some (.attach p slot s)) :
    f.pool = p ∧ m + j ∈ List.range' (m + 1) (furtherSlots address f.weight).length := by
  cases j with
  | zero => cases hj
  | succ j =>
    rw [fanOut, List.getElem?_cons_succ, attaches, List.getElem?_map, Option.map_eq_some_iff] at hj
    obtain ⟨slot', hslot', hattach⟩ := hj
    cases hattach
    refine ⟨rfl, List.mem_range'_1.mpr ?_⟩
    have hlt := (List.getElem?_eq_some_iff.mp hslot').1
    omega

theorem act (h : a.Led p) (ht : a.tasks[k]? = some t) (luck : Bool)
    (hlocation : (a.act luck t).client.location? p = some (.address address)) :
    (a.perform k (a.act luck t)).Led p := by
  refine h.perform ht (a.job_act luck t) ?_ fun j slot s hj => ?_
  · rintro f ks ended rfl
    exact ⟨_, a.fanOutNext_eq f ks ended⟩
  · cases a.begins_act luck t with
    | none hbegun =>
      rw [hbegun] at hj
      cases hj
    | plan q l hbegun =>
      rw [hbegun] at hj
      cases List.mem_singleton.mp (List.mem_of_getElem? hj)
    | @first q pool slots client hpool hslots hbegun =>
      left
      rw [hbegun, attaches, List.getElem?_map, Option.map_eq_some_iff] at hj
      obtain ⟨slot', hslot', hattach⟩ := hj
      cases hattach
      have hplace : a.client.location? p = some pool.location := by
        rw [location?, hpool]
        rfl
      have hat := Option.some.inj
        (((a.steady_act luck t).location? p _ hplace).symm.trans hlocation)
      rw [firstSlots, hat] at hslots
      cases hslots
      obtain rfl := List.mem_singleton.mp (List.mem_of_getElem? hslot')
      rfl
    | fanOut f address' hbegun =>
      right
      rw [hbegun] at hj ⊢
      obtain ⟨hpool, hmem⟩ := mem_range'_of_fanOut hj
      exact ⟨f, _, false, List.mem_cons_self, hpool, hmem⟩

/-- Every move leaves the attaches led. -/
theorem stepped {b : Activity} (h : a.Led p) (hs : Stepped a b)
    (hlocation : b.client.location? p = some (.address address)) : b.Led p := by
  cases hs with
  | task ht luck => exact h.act ht luck hlocation
  | abort ht hshutdown => exact h.perform ht rfl (by rintro _ _ _ ⟨⟩) (by rintro _ _ _ ⟨⟩)
  | outside hcalm hbegun =>
    intro i slot s hi
    rcases getElem?_begun hi with hi | hi
    · refine (h i slot s hi).imp_right ?_
      rintro ⟨f, ks, ended, hf, hpool⟩
      exact ⟨f, ks, ended, List.mem_append_left _ hf, hpool⟩
    · exact (hbegun _ hi).elim

end Led

end Waiting

/-! ### After every run -/

/-- Everything is in order with connections, pools at addresses and their fan-outs. -/
structure InOrder (a : Activity) : Prop where
  placed : a.Placed
  waited : a.Waited
  counted : ∀ p, a.Counted p
  provided : ∀ p address, a.client.location? p = some (.address address) →
    a.Provided p address ∧ a.Filled p ∧ a.Led p

theorem InOrder.stepped {a b : Activity} (h : a.InOrder) (hs : Stepped a b) : b.InOrder where
  placed := h.placed.stepped hs
  waited := h.waited.stepped hs
  counted p := (h.counted p).stepped hs h.placed
  provided p address hlocation := by
    have hknown : a.Provided p address ∧ a.Filled p ∧ a.Led p := by
      cases hp : a.client.location? p with
      | none =>
        have hslots := Provided.slotsOf_of_unknown h.placed hp
        refine ⟨.of_unknown h.placed hp address, .of_unknown h.placed hp, fun i slot s hi => ?_⟩
        exact (Provided.slotsOf_ne_nil (List.mem_of_getElem? hi) hslots).elim
      | some place =>
        have hkept := (steady_stepped hs).location? p place hp
        rw [Option.some.inj (hkept.symm.trans hlocation)] at hp
        exact h.provided p address hp
    obtain ⟨hprovided, hfilled, hled⟩ := hknown
    exact ⟨hprovided.stepped hs h.placed hlocation,
      hfilled.stepped hs h.placed hprovided hlocation, hled.stepped hs hlocation⟩

/-- Everything is in order after every run. -/
theorem inOrder_run (config : ClientConfig) (serializers : Serializers)
    (directory : Option Directory) (worker : UInt64) (moves : List Move) :
    ((start config serializers directory worker).run moves).InOrder := by
  refine run_induction (fun _ _ hs h => h.stepped hs) ⟨.start .., ?_, ?_, ?_⟩ moves
  · intro f ks hf
    cases hf
  · exact fun p => rfl
  · intro p address hp
    cases hp

end Activity

/-- The task is to open the first connection of the pool, or the further ones. -/
def Task.provides (p : PoolId) : Task → Bool
  | attach q slot _ => q == p && slot.index == 0
  | fanOut f _ _ => f.pool == p
  | _ => false

namespace Activity

section Ended

variable {a : Activity} {address : SocketAddress}

/-- The attaches of a pool have ended when the first one and the fan-outs have. -/
theorem Led.hasEnded (h : a.Led p) (hwaited : a.Waited)
    (hended : ∀ t ∈ a.tasks, t.provides p = true → t.hasEnded = true) {slot : Slot}
    {s : Attaching} (ht : .attach p slot s ∈ a.tasks) :
    (Task.attach p slot s).hasEnded = true := by
  obtain ⟨i, hi⟩ := List.mem_iff_getElem?.mp ht
  rcases h i slot s hi with hfirst | ⟨f, ks, ended, hf, hpool, hmem⟩
  · exact hended _ ht (by simp [Task.provides, hfirst])
  · have hfanOut : ended = true := hended _ hf (by simp [Task.provides, hpool])
    subst hfanOut
    obtain ⟨t, ht', ht''⟩ :=
      (Option.any_eq_true _ _).mp (List.all_eq_true.mp (hwaited f ks hf) i hmem)
    rwa [Option.some.inj (ht'.symm.trans hi)] at ht''

/-- When the attaches of a pool have ended each of them has a connection on the ring. -/
theorem Filled.entered?_eq_slot? (h : a.Filled p)
    (hended : ∀ slot s, .attach p slot s ∈ a.tasks → (Task.attach p slot s).hasEnded = true)
    {t : Task} (ht : t ∈ a.tasks) :
    t.entered? p = t.job.slot? p ∧ t.hasFirst p = (t.job.slot? p).isSome := by
  cases t with
  | attach q slot s =>
    by_cases hq : q = p
    · subst hq
      have hs := hended slot s ht
      cases s with
      | ended l =>
        cases l with
        | none => exact (h.reached slot ht).elim
        | some l => simp [Task.entered?, Task.job, Job.slot?, Task.hasFirst, Attaching.link?]
      | _ => cases hs
    · have hnone : (Task.attach q slot s).entered? p = none := by
        unfold Task.entered?
        split <;> rename_i heq
        · cases heq
          exact if_neg hq
        · cases heq
          exact if_neg hq
        · rfl
      simp [hnone, Task.job, Job.slot?, Task.hasFirst, hq]
  | _ => exact ⟨rfl, rfl⟩

theorem Counted.firstsOf_eq (h : a.Counted p) (hfilled : a.Filled p)
    (hended : ∀ slot s, .attach p slot s ∈ a.tasks → (Task.attach p slot s).hasEnded = true) :
    a.firstsOf p = (a.slotsOf p).length := by
  rw [h, slotsOf, List.length_filterMap_eq_countP]
  refine List.countP_congr fun t ht => ?_
  rw [(hfilled.entered?_eq_slot? hended ht).2]

theorem Filled.size_eq (h : a.Filled p)
    (hended : ∀ slot s, .attach p slot s ∈ a.tasks → (Task.attach p slot s).hasEnded = true)
    (hnodup : ((a.slotsOf p).flatMap fun slot => Ring.positionsFor slot.name).Nodup) :
    (a.client.ring p).size = 10 * (a.slotsOf p).length := by
  have hoccupied (position : UInt64) : (a.client.ring p).Occupied position ↔
      position ∈ (a.slotsOf p).flatMap fun slot => Ring.positionsFor slot.name := by
    rw [h.occupied, List.mem_flatMap]
    constructor
    · rintro ⟨t, ht, slot, hslot, hmem⟩
      rw [(h.entered?_eq_slot? hended ht).1] at hslot
      exact ⟨slot, List.mem_filterMap.mpr ⟨t, ht, hslot⟩, hmem⟩
    · rintro ⟨slot, hslot, hmem⟩
      obtain ⟨t, ht, hslot⟩ := List.mem_filterMap.mp hslot
      exact ⟨t, ht, slot, (h.entered?_eq_slot? hended ht).1.trans hslot, hmem⟩
  rw [h.ordered.size_eq hnodup hoccupied, List.length_flatMap]
  simp only [Ring.length_positionsFor, List.map_const', List.sum_replicate_nat]
  exact Nat.mul_comm _ _

end Ended

/-- The slots of a single fan-out, each once. -/
theorem index_furtherSlots (address : SocketAddress) {weight : Nat} (h : 1 ≤ weight) :
    (⟨address, 0, false, []⟩ :: furtherSlots address weight).map Slot.index =
      (List.range weight).map UInt64.ofNat := by
  obtain ⟨w, rfl⟩ := Nat.exists_eq_add_of_le' h
  rw [furtherSlots, List.range_succ_eq_map, List.drop_one, List.tail_cons]
  simp

/-- The slots of a pool at an address, in order, are the first one and those of its fan-outs. It
fans out at most once because its service was known at the start, and at most once because of a
description; with a single fan-out each slot up to the weight is connected once. When the first
connection is there and the fan-outs are over each slot has got one first connection, and ten
positions on the ring if positions do not collide. -/
theorem fan_outs_open_slots (config : ClientConfig) (serializers : Serializers)
    (directory : Option Directory) (worker : UInt64) (moves : List Move) (p : PoolId)
    (address : SocketAddress) :
    let a := (start config serializers directory worker).run moves
    a.client.location? p = some (.address address) →
      (a.slotsOf p = [] ∧ a.fanOutsOf p = [] ∨
        a.slotsOf p = ⟨address, 0, false, []⟩ ::
          (a.fanOutsOf p).flatMap fun f => furtherSlots address f.weight) ∧
      (∀ f ∈ a.fanOutsOf p, 1 ≤ f.weight ∧ f.weight ≤ 10) ∧
      (∀ cause, (a.fanOutsOf p).countP (fun f => f.cause == cause) ≤ 1) ∧
      (∀ f, a.fanOutsOf p = [f] →
        (a.slotsOf p).map Slot.index = (List.range f.weight).map UInt64.ofNat) ∧
      ((∀ t ∈ a.tasks, t.provides p = true → t.hasEnded = true) →
        (∀ slot s, .attach p slot s ∈ a.tasks → (Task.attach p slot s).hasEnded = true) ∧
        a.firstsOf p = (a.slotsOf p).length ∧
        (((a.slotsOf p).flatMap fun slot => Ring.positionsFor slot.name).Nodup →
          (a.client.ring p).size = 10 * (a.slotsOf p).length)) := by
  intro a hlocation
  have horder : a.InOrder := inOrder_run config serializers directory worker moves
  obtain ⟨hprovided, hfilled, hled⟩ := horder.provided p address hlocation
  have hweight (f : FanOut) (hf : f ∈ a.fanOutsOf p) : 1 ≤ f.weight ∧ f.weight ≤ 10 := by
    obtain ⟨-, ks, ended, ht⟩ := mem_fanOutsOf.mp hf
    exact (horder.placed.placed _ ht).2
  refine ⟨hprovided.slots, hweight, fun cause => ?_, fun f hf => ?_, fun hended => ?_⟩
  · cases cause with
    | start => exact hprovided.countP_start_le_one
    | description => exact hprovided.described
  · rcases hprovided.slots with ⟨-, hnone⟩ | hslots
    · rw [hnone] at hf
      cases hf
    · rw [hf, List.flatMap_singleton] at hslots
      rw [hslots]
      exact index_furtherSlots address (hweight f (hf ▸ List.mem_singleton_self f)).1
  · have hattaches (slot : Slot) (s : Attaching) (ht : .attach p slot s ∈ a.tasks) :
        (Task.attach p slot s).hasEnded = true := hled.hasEnded horder.waited hended ht
    exact ⟨hattaches, (horder.counted p).firstsOf_eq hfilled hattaches,
      hfilled.size_eq hattaches⟩

/-- A service that the client knows is asked for, and its two connections are opened. -/
def startKnown : List Move :=
  [.learn ((Service.new "echo" (.loopback 9000)).withWeight ⟨2, by decide, by decide⟩),
    .connect "echo" "local://127.0.0.1:9000", .task 0 true, .task 0 true, .task 0 true,
    .task 1 true, .task 1 true, .task 1 true, .task 0 true, .task 3 true, .task 3 true,
    .task 3 true, .task 2 true]

theorem fan_outs_open_slots_known :
    let a := (start .standard .standard none 1).run startKnown
    (a.client.location? 0 = some (.address (.loopback 9000)) ∧
      a.fanOutsOf 0 = [⟨0, .start, 2⟩] ∧
      ∀ t ∈ a.tasks, t.provides 0 = true → t.hasEnded = true) ∧
      (a.slotsOf 0).map Slot.index = (List.range 2).map UInt64.ofNat ∧
      a.firstsOf 0 = (a.slotsOf 0).length := by
  have hlocation : ((start .standard .standard none 1).run startKnown).client.location? 0 =
    some (.address (.loopback 9000)) := by decide +kernel
  have hfanOuts : ((start .standard .standard none 1).run startKnown).fanOutsOf 0 =
    [⟨0, .start, 2⟩] := by decide +kernel
  have hended : ∀ t ∈ ((start .standard .standard none 1).run startKnown).tasks,
    t.provides 0 = true → t.hasEnded = true := by decide +kernel
  obtain ⟨-, -, -, hslots, hover⟩ :=
    fan_outs_open_slots .standard .standard none 1 startKnown 0 (.loopback 9000) hlocation
  exact ⟨⟨hlocation, hfanOuts, hended⟩, hslots _ hfanOuts, (hover hended).2.1⟩

/-- After the start the server describes the service, and with another weight. -/
def describeAfterStart : List Move :=
  startKnown ++
    [.frame 0 ⟨.metadataProbe (serviceId "echo"),
        (ServiceInfo.mk (serviceId "echo") "echo" 3 []).encode⟩,
      .task 4 true, .task 4 true, .task 6 true, .task 6 true, .task 6 true, .task 7 true,
      .task 7 true, .task 7 true, .task 5 true]

/-- The pool, whose number of connections was two, connects the second slot again and a third
one. -/
theorem slots_connected_again :
    let a := (start .standard .standard none 1).run describeAfterStart
    a.fanOutsOf 0 = [⟨0, .start, 2⟩, ⟨0, .description, 3⟩] ∧
      (a.slotsOf 0).map Slot.index = [0, 1, 1, 2] ∧ a.firstsOf 0 = 4 ∧
      ∀ t ∈ a.tasks, t.provides 0 = true → t.hasEnded = true := by
  decide +kernel

end Activity

end RemoteCall.Client
