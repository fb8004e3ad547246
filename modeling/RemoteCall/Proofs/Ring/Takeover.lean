import RemoteCall.Client.Steps
import RemoteCall.Proofs.Ring.Picking

/-!
# Slots that keep their positions

A slot is put on a ring once, with its first connection. When that connection is lost, the next one
of the slot takes over the positions, and so on; a slot that cannot be connected again is removed,
in the name of the connection that was lost. As long as the positions of different slots differ, a
ring that is changed in this way only says of each position which slot it belongs to and which
connection stands for the slot at the moment, so requests stay with their slots.

## Main definitions

* `Roster` : a ring and the slots that were put on it.
* `Roster.Reachable` : the rosters that come about by inserting slots, replacing their connections
  by newer ones and removing slots.
* `Roster.Holds` : the slot that has a position.
* `Roster.slotOf` : the slot that a request is mapped to.

## Main results

* `Roster.Reachable.sound` : the ring of a roster says of each position which slot has it.
* `Roster.slots_keep_positions` : what reconnecting and removing change.
-/

namespace RemoteCall

/-- A slot that was put on a ring, and the connections that have stood for it. -/
structure Tenure (α : Type) where
  name : String
  /-- The positions that the slot was given. -/
  positions : List UInt64
  newest : α
  /-- The connections before the newest, the latest first. -/
  older : List α
  /-- The slot has left the ring. -/
  removed : Bool

namespace Tenure

variable {α : Type}

/-- A slot with its first connection. -/
def new (name : String) (link : α) : Tenure α :=
  ⟨name, Ring.positionsFor name, link, [], false⟩

/-- Every connection that has stood for the slot. -/
def links (t : Tenure α) : List α :=
  t.newest :: t.older

/-- The slots have a position or a connection in common. -/
def Meets (t u : Tenure α) : Prop :=
  (∃ p ∈ t.positions, p ∈ u.positions) ∨ ∃ l ∈ t.links, l ∈ u.links

theorem Meets.symm {t u : Tenure α} (h : t.Meets u) : u.Meets t :=
  h.imp (fun ⟨p, ht, hu⟩ => ⟨p, hu, ht⟩) fun ⟨l, ht, hu⟩ => ⟨l, hu, ht⟩

/-- Another connection stands for the slot. -/
def takeOver (link : α) (t : Tenure α) : Tenure α :=
  { t with newest := link, older := t.newest :: t.older }

/-- The slot leaves the ring if this is the connection that stands for it. -/
def giveUp [DecidableEq α] (old : α) (t : Tenure α) : Tenure α :=
  { t with removed := t.removed || decide (t.newest = old) }

end Tenure

/-- A ring and the slots that were put on it. -/
structure Roster (α : Type) where
  ring : Ring α
  slots : List (Tenure α)

namespace Roster

variable {α : Type} {s : Roster α} {t u : Tenure α} {name : String} {link old : α} {p : UInt64}

/-- Nothing was put on the ring. -/
def empty : Roster α :=
  ⟨.empty, []⟩

/-- The slot of this name. -/
def slot? (s : Roster α) (name : String) : Option (Tenure α) :=
  s.slots.find? fun t => t.name == name

/-- The slots after something has happened to one of them. -/
def onSlot (s : Roster α) (name : String) (f : Tenure α → Tenure α) : List (Tenure α) :=
  s.slots.map fun t => if t.name = name then f t else t

/-- A change to a ring as a pool makes it. -/
inductive Move (α : Type) where
  /-- A slot is put on the ring with its first connection. -/
  | insert (name : String) (link : α)
  /-- A connection takes over the positions of its slot. -/
  | replace (name : String) (link : α)
  /-- The positions of a slot are taken from one of its connections. -/
  | remove (name : String) (old : α)

/-- Makes a change; nothing happens to a slot that was never put on the ring. -/
def step [DecidableEq α] (s : Roster α) : Move α → Roster α
  | .insert name link => ⟨s.ring.insert name link, s.slots ++ [.new name link]⟩
  | .replace name link =>
    match s.slot? name with
    | none => s
    | some t => ⟨s.ring.replace t.positions link, s.onSlot name (.takeOver link)⟩
  | .remove name old =>
    match s.slot? name with
    | none => s
    | some t => ⟨s.ring.remove t.positions old, s.onSlot name (.giveUp old)⟩

/-- The connection has never stood for any slot. -/
def IsNew (s : Roster α) (link : α) : Prop :=
  ∀ t ∈ s.slots, link ∉ t.links

/-- The changes that a pool makes: the positions of an inserted slot are not those of another one,
and a slot that is on the ring is taken over by a newer connection. Any connection may be the one
in whose name a slot is removed. -/
def Allows (s : Roster α) : Move α → Prop
  | .insert name link =>
    (∀ t ∈ s.slots, ∀ p ∈ Ring.positionsFor name, p ∉ t.positions) ∧ s.IsNew link
  | .replace name link => (∀ t, s.slot? name = some t → t.removed = false) ∧ s.IsNew link
  | .remove _ _ => True

/-- The rosters that come about. -/
inductive Reachable [DecidableEq α] : Roster α → Prop
  | empty : Reachable .empty
  | step {s m} (h : Reachable s) (hm : s.Allows m) : Reachable (s.step m)

/-- The slot of this name is on the ring and has the position. -/
def Holds (s : Roster α) (name : String) (p : UInt64) : Prop :=
  ∃ t ∈ s.slots, t.removed = false ∧ p ∈ t.positions ∧ t.name = name

/-- The slot that a request is mapped to: the one whose connection it goes to. -/
def slotOf [DecidableEq α] (s : Roster α) (request : RequestId) : Option String :=
  (s.ring.pick request).bind fun l => (s.slots.find? fun t => l ∈ t.links).map Tenure.name

/-! ### What a ring says of its slots -/

/-- The ring has the positions of the slots that are on it, each with the connection that stands for
its slot, and different slots have nothing in common. -/
structure Sound (s : Roster α) : Prop where
  ordered : s.ring.Ordered
  owner : ∀ p l, s.ring.owner? p = some l ↔
    ∃ t ∈ s.slots, t.removed = false ∧ p ∈ t.positions ∧ t.newest = l
  positions : ∀ t ∈ s.slots, t.positions = Ring.positionsFor t.name
  apart : ∀ t ∈ s.slots, ∀ u ∈ s.slots, t.Meets u → t = u
  newest : ∀ t ∈ s.slots, t.newest ∉ t.older

theorem mem_onSlot {f : Tenure α → Tenure α} :
    u ∈ s.onSlot name f ↔
      (∃ t ∈ s.slots, t.name = name ∧ f t = u) ∨ u ∈ s.slots ∧ u.name ≠ name := by
  rw [onSlot, List.mem_map]
  constructor
  · rintro ⟨t, ht, htu⟩
    by_cases hname : t.name = name
    · rw [if_pos hname] at htu
      exact Or.inl ⟨t, ht, hname, htu⟩
    · rw [if_neg hname] at htu
      exact Or.inr ⟨htu ▸ ht, htu ▸ hname⟩
  · rintro (⟨t, ht, hname, htu⟩ | ⟨hu, hname⟩)
    · exact ⟨t, ht, by rw [if_pos hname, htu]⟩
    · exact ⟨u, hu, if_neg hname⟩

theorem slot?_eq_some (h : s.slot? name = some t) : t ∈ s.slots ∧ t.name = name :=
  ⟨List.mem_of_find?_eq_some h, by simpa using List.find?_some h⟩

theorem slotPosition_mem_positionsFor (name : String) :
    slotPosition name 0 ∈ Ring.positionsFor name :=
  List.mem_map.mpr ⟨0, by decide, rfl⟩

namespace Sound

theorem eq_of_name (h : s.Sound) (ht : t ∈ s.slots) (hu : u ∈ s.slots) (hname : t.name = u.name) :
    t = u := by
  refine h.apart t ht u hu (Or.inl ⟨slotPosition t.name 0, ?_, ?_⟩)
  · rw [h.positions t ht]
    exact slotPosition_mem_positionsFor t.name
  · rw [h.positions u hu, hname]
    exact slotPosition_mem_positionsFor u.name

theorem slot?_eq_some_iff (h : s.Sound) : s.slot? name = some t ↔ t ∈ s.slots ∧ t.name = name := by
  refine ⟨slot?_eq_some, ?_⟩
  rintro ⟨ht, rfl⟩
  cases hfind : s.slot? t.name with
  | none =>
    have hne := List.find?_eq_none.mp hfind t ht
    simp at hne
  | some u =>
    obtain ⟨hu, hname⟩ := slot?_eq_some hfind
    rw [h.eq_of_name hu ht hname]

theorem occupied_iff (h : s.Sound) : s.ring.Occupied p ↔ ∃ name, s.Holds name p := by
  rw [Ring.Occupied, Option.isSome_iff_exists]
  constructor
  · rintro ⟨l, hl⟩
    obtain ⟨t, ht, hon, hp, -⟩ := (h.owner p l).mp hl
    exact ⟨t.name, t, ht, hon, hp, rfl⟩
  · rintro ⟨-, t, ht, hon, hp, -⟩
    exact ⟨t.newest, (h.owner p t.newest).mpr ⟨t, ht, hon, hp, rfl⟩⟩

/-- A request is mapped to the slot that has the next position. -/
theorem slotOf_eq_some_iff [DecidableEq α] (h : s.Sound) {request : RequestId} :
    s.slotOf request = some name ↔
      ∃ p, s.ring.IsNext (requestPosition request) p ∧ s.Holds name p := by
  have hfind (t : Tenure α) (ht : t ∈ s.slots) :
      (s.slots.find? fun u => t.newest ∈ u.links).map Tenure.name = some t.name := by
    have hself : t.newest ∈ t.links := List.mem_cons_self
    cases hu : s.slots.find? fun u => t.newest ∈ u.links with
    | none =>
      have hnot := List.find?_eq_none.mp hu t ht
      simp [hself] at hnot
    | some u =>
      have hmem : t.newest ∈ u.links := by simpa using List.find?_some hu
      have heq := h.apart u (List.mem_of_find?_eq_some hu) t ht (Or.inr ⟨t.newest, hmem, hself⟩)
      rw [Option.map_some, heq]
  rw [slotOf, Option.bind_eq_some_iff]
  constructor
  · rintro ⟨l, hpick, hslot⟩
    obtain ⟨p, hp, howner⟩ := h.ordered.pickAt_eq_some_iff.mp hpick
    obtain ⟨t, ht, hon, hmem, rfl⟩ := (h.owner p l).mp howner
    rw [hfind t ht] at hslot
    exact ⟨p, hp, t, ht, hon, hmem, Option.some.inj hslot⟩
  · rintro ⟨p, hp, t, ht, hon, hmem, rfl⟩
    have howner := (h.owner p t.newest).mpr ⟨t, ht, hon, hmem, rfl⟩
    exact ⟨t.newest, h.ordered.pickAt_eq_some_iff.mpr ⟨p, hp, howner⟩, hfind t ht⟩

/-! ### Each change keeps it -/

theorem empty : (Roster.empty : Roster α).Sound where
  ordered := Ring.ordered_empty
  owner p l := by simp [Roster.empty, Ring.owner?, Ring.empty]
  positions t ht := by cases ht
  apart t ht := by cases ht
  newest t ht := by cases ht

theorem insert [DecidableEq α] (h : s.Sound) (hm : s.Allows (.insert name link)) :
    (s.step (.insert name link)).Sound := by
  obtain ⟨hpositions, hnew⟩ := hm
  have hmem (t : Tenure α) (ht : t ∈ s.slots ++ [.new name link]) :
      t ∈ s.slots ∨ t = .new name link :=
    (List.mem_append.mp ht).imp_right List.mem_singleton.mp
  have hapart (t : Tenure α) (ht : t ∈ s.slots) (hmeets : t.Meets (.new name link)) : False := by
    rcases hmeets with ⟨p, hpt, hp⟩ | ⟨l, hlt, hl⟩
    · exact hpositions t ht p hp hpt
    · obtain rfl : l = link := List.mem_singleton.mp hl
      exact hnew t ht hlt
  refine ⟨h.ordered.replace _ _, fun p l => ?_, fun t ht => ?_, fun t ht u hu hmeets => ?_,
    fun t ht => ?_⟩
  · rw [step, Ring.insert, Ring.owner?_replace]
    by_cases hp : p ∈ Ring.positionsFor name
    · rw [if_pos hp]
      constructor
      · rintro ⟨⟩
        exact ⟨.new name link, List.mem_append_right _ List.mem_cons_self, rfl, hp, rfl⟩
      · rintro ⟨t, ht, -, hpt, rfl⟩
        rcases hmem t ht with ht | rfl
        · exact (hpositions t ht p hp hpt).elim
        · rfl
    · rw [if_neg hp, h.owner]
      constructor
      · rintro ⟨t, ht, hrest⟩
        exact ⟨t, List.mem_append_left _ ht, hrest⟩
      · rintro ⟨t, ht, hon, hpt, hl⟩
        rcases hmem t ht with ht | rfl
        · exact ⟨t, ht, hon, hpt, hl⟩
        · exact (hp hpt).elim
  · rcases hmem t ht with ht | rfl
    · exact h.positions t ht
    · rfl
  · rcases hmem t ht with ht | rfl <;> rcases hmem u hu with hu | rfl
    · exact h.apart t ht u hu hmeets
    · exact (hapart t ht hmeets).elim
    · exact (hapart u hu hmeets.symm).elim
    · rfl
  · rcases hmem t ht with ht | rfl
    · exact h.newest t ht
    · exact List.not_mem_nil

/-- Something happens to one slot: it keeps its name and its positions and gets no connection of
another slot, and the ring changes at its positions only. -/
theorem onSlot (h : s.Sound) (ht : t ∈ s.slots) {f : Tenure α → Tenure α} {ring : Ring α}
    (hordered : ring.Ordered) (hname : ∀ t, (f t).name = t.name)
    (hpositions : ∀ t, (f t).positions = t.positions)
    (hmeets : ∀ u ∈ s.slots, (f t).Meets u → t.Meets u) (hnewest : (f t).newest ∉ (f t).older)
    (hthere : ∀ p ∈ t.positions, ∀ l,
      ring.owner? p = some l ↔ (f t).removed = false ∧ (f t).newest = l)
    (helse : ∀ p ∉ t.positions, ring.owner? p = s.ring.owner? p) :
    Sound ⟨ring, s.onSlot t.name f⟩ := by
  have hmem (u : Tenure α) : u ∈ s.onSlot t.name f ↔ u = f t ∨ u ∈ s.slots ∧ u ≠ t := by
    rw [mem_onSlot]
    refine or_congr ⟨?_, ?_⟩ (and_congr_right fun hu => not_congr ⟨h.eq_of_name hu ht, ?_⟩)
    · rintro ⟨v, hv, hvname, rfl⟩
      rw [h.eq_of_name hv ht hvname]
    · rintro rfl
      exact ⟨t, ht, rfl, rfl⟩
    · rintro rfl
      rfl
  have hother (u : Tenure α) (hu : u ∈ s.slots) (hne : u ≠ t) (hfu : (f t).Meets u) : False :=
    hne (h.apart t ht u hu (hmeets u hu hfu)).symm
  refine ⟨hordered, fun p l => ?_, fun u hu => ?_, fun u hu v hv huv => ?_, fun u hu => ?_⟩
  · by_cases hp : p ∈ t.positions
    · rw [hthere p hp]
      constructor
      · rintro ⟨hon, hl⟩
        exact ⟨f t, (hmem (f t)).mpr (Or.inl rfl), hon, hpositions t ▸ hp, hl⟩
      · rintro ⟨u, hu, hon, hpu, hl⟩
        rcases (hmem u).mp hu with rfl | ⟨hu, hne⟩
        · exact ⟨hon, hl⟩
        · exact (hother u hu hne (Or.inl ⟨p, hpositions t ▸ hp, hpu⟩)).elim
    · rw [helse p hp, h.owner]
      constructor
      · rintro ⟨u, hu, hon, hpu, hl⟩
        have hne : u ≠ t := fun hut => hp (hut ▸ hpu)
        exact ⟨u, (hmem u).mpr (Or.inr ⟨hu, hne⟩), hon, hpu, hl⟩
      · rintro ⟨u, hu, hon, hpu, hl⟩
        rcases (hmem u).mp hu with rfl | ⟨hu, -⟩
        · exact (hp (hpositions t ▸ hpu)).elim
        · exact ⟨u, hu, hon, hpu, hl⟩
  · rcases (hmem u).mp hu with rfl | ⟨hu, -⟩
    · rw [hpositions, hname]
      exact h.positions t ht
    · exact h.positions u hu
  · rcases (hmem u).mp hu with rfl | ⟨hu, hut⟩ <;> rcases (hmem v).mp hv with rfl | ⟨hv, hvt⟩
    · rfl
    · exact (hother v hv hvt huv).elim
    · exact (hother u hu hut huv.symm).elim
    · exact h.apart u hu v hv huv
  · rcases (hmem u).mp hu with rfl | ⟨hu, -⟩
    · exact hnewest
    · exact h.newest u hu

/-- The positions of a slot have the connection that stands for it, as long as it is on the ring. -/
theorem owner_of_mem (h : s.Sound) (ht : t ∈ s.slots) (hp : p ∈ t.positions) (l : α) :
    s.ring.owner? p = some l ↔ t.removed = false ∧ t.newest = l := by
  rw [h.owner]
  constructor
  · rintro ⟨u, hu, hon, hpu, hl⟩
    obtain rfl := h.apart t ht u hu (Or.inl ⟨p, hp, hpu⟩)
    exact ⟨hon, hl⟩
  · rintro ⟨hon, hl⟩
    exact ⟨t, ht, hon, hp, hl⟩

theorem replace [DecidableEq α] (h : s.Sound) (hm : s.Allows (.replace name link)) :
    (s.step (.replace name link)).Sound := by
  obtain ⟨hon, hnew⟩ := hm
  cases hslot : s.slot? name with
  | none => simpa only [step, hslot] using h
  | some t =>
    obtain ⟨ht, rfl⟩ := slot?_eq_some hslot
    simp only [step, hslot]
    refine h.onSlot ht (h.ordered.replace _ _) (fun _ => rfl) (fun _ => rfl) ?_ ?_ ?_ ?_
    · rintro u hu (hp | ⟨l, hl, hlu⟩)
      · exact Or.inl hp
      · rcases List.mem_cons.mp hl with rfl | hl
        · exact (hnew u hu hlu).elim
        · exact Or.inr ⟨l, hl, hlu⟩
    · exact hnew t ht
    · intro p hp l
      rw [Ring.owner?_replace, if_pos hp, Option.some_inj]
      exact (and_iff_right (hon t hslot)).symm
    · intro p hp
      rw [Ring.owner?_replace, if_neg hp]

theorem remove [DecidableEq α] (h : s.Sound) (name : String) (old : α) :
    (s.step (.remove name old)).Sound := by
  cases hslot : s.slot? name with
  | none => simpa only [step, hslot] using h
  | some t =>
    obtain ⟨ht, rfl⟩ := slot?_eq_some hslot
    simp only [step, hslot]
    refine h.onSlot ht (h.ordered.remove _ _) (fun _ => rfl) (fun _ => rfl) (fun _ _ => id)
      (h.newest t ht) ?_ ?_
    · intro p hp l
      have howner := h.owner_of_mem ht hp
      have hleft : (t.giveUp old).removed = false ↔ t.removed = false ∧ t.newest ≠ old := by
        simp [Tenure.giveUp]
      rw [h.ordered.owner?_remove, hleft]
      by_cases hold : s.ring.owner? p = some old
      · rw [if_pos ⟨hp, hold⟩]
        refine iff_of_false nofun fun hstays => ?_
        exact hstays.1.2 ((howner old).mp hold).2
      · rw [if_neg fun hremoved => hold hremoved.2, howner]
        refine ⟨fun hl => ⟨⟨hl.1, fun hnewest => hold ?_⟩, hl.2⟩, fun hl => ⟨hl.1.1, hl.2⟩⟩
        exact (howner old).mpr ⟨hl.1, hnewest⟩
    · intro p hp
      rw [h.ordered.owner?_remove, if_neg fun hremoved => hp hremoved.1]

end Sound

theorem Reachable.sound [DecidableEq α] (h : s.Reachable) : s.Sound := by
  induction h with
  | empty => exact .empty
  | @step s m _ hm ih =>
    cases m with
    | insert name link => exact ih.insert hm
    | replace name link => exact ih.replace hm
    | remove name old => exact ih.remove name old

/-! ### What reconnecting and removing change -/

/-- A connection that takes over leaves all slots where they are. -/
theorem holds_replace [DecidableEq α] (s : Roster α) (name : String) (link : α) (other : String)
    (p : UInt64) : (s.step (.replace name link)).Holds other p ↔ s.Holds other p := by
  cases hslot : s.slot? name with
  | none => simp only [step, hslot]
  | some t =>
    simp only [step, hslot]
    constructor
    · rintro ⟨u, hu, hrest⟩
      rcases mem_onSlot.mp hu with ⟨v, hv, -, rfl⟩ | ⟨hu, -⟩
      · exact ⟨v, hv, hrest⟩
      · exact ⟨u, hu, hrest⟩
    · rintro ⟨u, hu, hrest⟩
      by_cases hname : u.name = name
      · exact ⟨u.takeOver link, mem_onSlot.mpr (Or.inl ⟨u, hu, hname, rfl⟩), hrest⟩
      · exact ⟨u, mem_onSlot.mpr (Or.inr ⟨hu, hname⟩), hrest⟩

/-- A connection that takes over leaves all requests with their slots. -/
theorem Sound.slotOf_replace [DecidableEq α] (h : s.Sound) (hm : s.Allows (.replace name link))
    (request : RequestId) : (s.step (.replace name link)).slotOf request = s.slotOf request := by
  have h' := h.replace hm
  have hoccupied (p : UInt64) :
      (s.step (.replace name link)).ring.Occupied p ↔ s.ring.Occupied p := by
    rw [h'.occupied_iff, h.occupied_iff]
    exact exists_congr fun other => s.holds_replace name link other p
  have hnext (p : UInt64) (position : UInt64) :
      (s.step (.replace name link)).ring.IsNext position p ↔ s.ring.IsNext position p :=
    ⟨fun hp => hp.of_subset (fun q => (hoccupied q).mpr) ((hoccupied p).mp hp.occupied),
      fun hp => hp.of_subset (fun q => (hoccupied q).mp) ((hoccupied p).mpr hp.occupied)⟩
  refine Option.ext fun other => ?_
  rw [h'.slotOf_eq_some_iff, h.slotOf_eq_some_iff]
  exact exists_congr fun p => and_congr (hnext p _) (s.holds_replace name link other p)

/-- Removing a slot in the name of a connection that does not stand for it any more does nothing. -/
theorem Sound.remove_stale [DecidableEq α] (h : s.Sound) (ht : t ∈ s.slots)
    (hold : t.newest ≠ old) : s.step (.remove t.name old) = s := by
  have hring : s.ring.remove t.positions old = s.ring := by
    have hkeep : ∀ slot ∈ s.ring.slots, ¬(slot.1 ∈ t.positions ∧ slot.2 = old) := by
      rintro ⟨p, l⟩ hmem ⟨hp, rfl⟩
      exact hold ((h.owner_of_mem ht hp l).mp (h.ordered.owner?_eq_some_iff.mpr hmem)).2
    rw [Ring.remove, List.filter_eq_self.mpr fun slot hmem => decide_eq_true (hkeep slot hmem)]
  have hslots : s.onSlot t.name (.giveUp old) = s.slots := by
    refine (List.map_congr_left fun u hu => ?_).trans (List.map_id s.slots)
    by_cases hname : u.name = t.name
    · rw [if_pos hname, h.eq_of_name hu ht hname, Tenure.giveUp, decide_eq_false hold,
        Bool.or_false]
      rfl
    · rw [if_neg hname]
      rfl
  simp only [step, h.slot?_eq_some_iff.mpr ⟨ht, rfl⟩, hring, hslots]

/-- In every state of a ring that is changed as a pool changes it, the occupied positions are those
of the slots that were not removed, and each of them has the most recent connection of its slot. A
connection that takes over changes no request's slot, and removing a slot in the name of a
connection that was taken over does nothing. -/
theorem slots_keep_positions [DecidableEq α] (h : s.Reachable) :
    (∀ p, s.ring.Occupied p ↔
      ∃ t ∈ s.slots, t.removed = false ∧ p ∈ Ring.positionsFor t.name) ∧
      (∀ t ∈ s.slots, t.removed = false → ∀ p ∈ Ring.positionsFor t.name,
        s.ring.owner? p = some t.newest) ∧
      (∀ name link, s.Allows (.replace name link) → ∀ request,
        (s.step (.replace name link)).slotOf request = s.slotOf request) ∧
      ∀ t ∈ s.slots, ∀ old ∈ t.older,
        s.ring.remove (Ring.positionsFor t.name) old = s.ring ∧
          s.step (.remove t.name old) = s := by
  have hs := h.sound
  refine ⟨fun p => ?_, fun t ht hon p hp => ?_, fun name link hm => hs.slotOf_replace hm,
    fun t ht old hold => ?_⟩
  · rw [hs.occupied_iff]
    constructor
    · rintro ⟨-, t, ht, hon, hp, -⟩
      exact ⟨t, ht, hon, hs.positions t ht ▸ hp⟩
    · rintro ⟨t, ht, hon, hp⟩
      exact ⟨t.name, t, ht, hon, (hs.positions t ht).symm ▸ hp, rfl⟩
  · rw [← hs.positions t ht] at hp
    exact (hs.owner_of_mem ht hp t.newest).mpr ⟨hon, rfl⟩
  · have hne : t.newest ≠ old := fun heq => hs.newest t ht (heq ▸ hold)
    have hstep := hs.remove_stale ht hne
    refine ⟨?_, hstep⟩
    rw [← hs.positions t ht]
    simpa only [step, hs.slot?_eq_some_iff.mpr ⟨ht, rfl⟩] using congrArg Roster.ring hstep

/-- A ring with one slot, whose first connection was lost and replaced. -/
def reconnected (name : String) : Roster LinkId :=
  (empty.step (.insert name 0)).step (.replace name 1)

theorem slots_reconnected (name : String) :
    (reconnected name).slots = [(Tenure.new name 0).takeOver 1] := by
  simp [reconnected, step, slot?, onSlot, empty, Tenure.new]

theorem reachable_reconnected (name : String) : (reconnected name).Reachable := by
  refine (Reachable.empty.step (m := .insert name 0) ⟨nofun, nofun⟩).step (m := .replace name 1)
    ⟨fun t ht => ?_, fun t ht => ?_⟩
  · rw [List.mem_singleton.mp (slot?_eq_some ht).1]
    rfl
  · rw [List.mem_singleton.mp ht]
    simp [Tenure.new, Tenure.links]

/-- The ring of that slot has its second connection at all its positions, a third one keeps every
request where it is, and the slot cannot be removed in the name of the first. -/
theorem slots_keep_positions_reconnected :
    (reconnected "127.0.0.1:9000#0").Reachable ∧
      (∀ p ∈ Ring.positionsFor "127.0.0.1:9000#0",
        (reconnected "127.0.0.1:9000#0").ring.owner? p = some 1) ∧
      (∀ request, ((reconnected "127.0.0.1:9000#0").step (.replace "127.0.0.1:9000#0" 2)).slotOf
        request = (reconnected "127.0.0.1:9000#0").slotOf request) ∧
      (reconnected "127.0.0.1:9000#0").step (.remove "127.0.0.1:9000#0" 0) =
        reconnected "127.0.0.1:9000#0" := by
  have h := reachable_reconnected "127.0.0.1:9000#0"
  have hslots := slots_reconnected "127.0.0.1:9000#0"
  let t : Tenure LinkId := (Tenure.new "127.0.0.1:9000#0" 0).takeOver 1
  have hmem : t ∈ (reconnected "127.0.0.1:9000#0").slots := hslots ▸ List.mem_cons_self
  obtain ⟨-, hnewest, hreplace, hstale⟩ := slots_keep_positions h
  refine ⟨h, hnewest t hmem rfl, hreplace _ 2 ⟨fun u hu => ?_, fun u hu => ?_⟩,
    (hstale t hmem 0 List.mem_cons_self).2⟩
  · have hu := (slot?_eq_some hu).1
    rw [hslots] at hu
    rw [List.mem_singleton.mp hu]
    rfl
  · rw [hslots] at hu
    rw [List.mem_singleton.mp hu]
    simp [Tenure.new, Tenure.takeOver, Tenure.links]

end Roster

/-! ### The steps of a pool -/

namespace Client

variable {c : Client} {pool : Pool} {s : Roster LinkId} {t : Tenure LinkId} {l : LinkId}
  {link : Link} {r : Reconnect}

theorem ring_onPool {p : PoolId} (h : c.pool? p = some pool) (f : Pool → Pool) :
    (c.onPool p f).ring p = (f pool).ring := by
  have hpool : c.pools[p]? = some pool := h
  simp [ring, pool?, onPool, hpool]

/-- A connection is put on the ring as the first one of its slot. -/
theorem ring_putOnRing {p : PoolId} (h : c.pool? p = some pool) (hring : pool.ring = s.ring)
    (hl : c.link? l = some link) :
    (c.putOnRing p l).ring p = (s.step (.insert link.slot.name l)).ring := by
  have honLink (c : Client) (f : Link → Link) : (c.onLink l f).ring p = c.ring p := rfl
  simp only [putOnRing, hl, honLink]
  rw [ring_onPool h, hring]
  rfl

/-- A connection takes over from the one that was lost. -/
theorem ring_replaced (h : c.pool? r.pool = some pool) (hring : pool.ring = s.ring)
    (hold : c.link? r.old = some link) (ht : s.slot? link.slot.name = some t)
    (hpositions : link.slot.positions = t.positions) :
    (c.replaced r l).ring r.pool = (s.step (.replace link.slot.name l)).ring := by
  simp only [replaced, hold, Roster.step, ht]
  rw [ring_onPool h, hring, hpositions]

/-- A slot from a directory that cannot be connected again is removed in the name of the connection
that was lost. -/
theorem ring_notReplaced (h : c.pool? r.pool = some pool) (hring : pool.ring = s.ring)
    (hold : c.link? r.old = some link) (hdiscovered : link.slot.discovered = true)
    (ht : s.slot? link.slot.name = some t) (hpositions : link.slot.positions = t.positions) :
    (c.notReplaced r).ring r.pool = (s.step (.remove link.slot.name r.old)).ring := by
  simp only [notReplaced, hold, hdiscovered, if_true, Roster.step, ht]
  rw [ring_onPool h, hring, hpositions]

end Client

end RemoteCall
