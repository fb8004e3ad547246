import Mathlib.Order.Bounds.Basic
import RemoteCall.Proofs.KeyOrder

/-!
# Which owner a request goes to

A ring is seen as a partial function from positions to owners, and a request goes to the owner of
the next occupied position, going round. Two rings agree on a request when this position and its
owner are the same in both. Giving positions to an owner makes another position the next one only
if it is one of those given; taking positions from an owner leaves the next position the next one
unless it is one of those taken. So a change moves requests only to or from the owner it is made
for, whatever positions of others it overwrites or leaves.

## Main definitions

* `Ring.IsNext` : the occupied position that answers for a given one.
* `Ring.ofChanges` : the rings that come about.

## Main results

* `Ring.pickAt_of_isNext` : the owner of the next position is picked.
* `Ring.pickAt_replace`, `Ring.pickAt_remove` : what changes when positions are given or taken.
* `Ring.requests_go_to_next_owner` : where requests go, and which of them a change moves.
-/

namespace RemoteCall.Ring

variable {α : Type} {r r' : Ring α} {position p q : UInt64} {owner : α}

/-- The positions increase from slot to slot. -/
def Ordered (r : Ring α) : Prop :=
  KeyOrdered Prod.fst r.slots

/-- The position has an owner. -/
def Occupied (r : Ring α) (p : UInt64) : Prop :=
  (r.owner? p).isSome = true

/-- The occupied position that answers for a given one: the least at or after it, or the least of
all when there is none. -/
def IsNext (r : Ring α) (position p : UInt64) : Prop :=
  IsLeast {q | r.Occupied q ∧ position ≤ q} p ∨
    (∀ q, r.Occupied q → q < position) ∧ IsLeast {q | r.Occupied q} p

/-! ### Positions and their owners -/

theorem Ordered.owner?_eq_some_iff (h : r.Ordered) :
    r.owner? p = some owner ↔ (p, owner) ∈ r.slots := by
  rw [owner?, Option.map_eq_some_iff]
  constructor
  · rintro ⟨s, hs, rfl⟩
    obtain ⟨hmem, rfl⟩ := KeyOrdered.find?_eq_some_iff h |>.mp hs
    exact hmem
  · intro hmem
    exact ⟨(p, owner), KeyOrdered.find?_eq_some_iff h |>.mpr ⟨hmem, rfl⟩, rfl⟩

theorem Ordered.occupied_iff (h : r.Ordered) : r.Occupied p ↔ ∃ s ∈ r.slots, s.1 = p := by
  rw [Occupied, Option.isSome_iff_exists]
  constructor
  · rintro ⟨owner, howner⟩
    exact ⟨(p, owner), h.owner?_eq_some_iff.mp howner, rfl⟩
  · rintro ⟨s, hs, rfl⟩
    exact ⟨s.2, h.owner?_eq_some_iff.mpr hs⟩

theorem ordered_empty : (empty : Ring α).Ordered :=
  List.Pairwise.nil

theorem Ordered.replace (h : r.Ordered) (positions : List UInt64) (owner : α) :
    (r.replace positions owner).Ordered := by
  induction positions generalizing r with
  | nil => exact h
  | cons p positions ih =>
    have hset : Ordered ⟨setSlot p owner r.slots⟩ := by
      rw [Ordered, setSlot_eq]
      exact KeyOrdered.insertByKey h (p, owner)
    exact ih hset

theorem Ordered.remove [DecidableEq α] (h : r.Ordered) (positions : List UInt64) (owner : α) :
    (r.remove positions owner).Ordered :=
  List.Pairwise.filter _ h

theorem owner?_setSlot (r : Ring α) (p : UInt64) (owner : α) (q : UInt64) :
    (⟨setSlot p owner r.slots⟩ : Ring α).owner? q = if p = q then some owner else r.owner? q := by
  rw [owner?, setSlot_eq, find?_insertByKey]
  split <;> rfl

/-- The positions given have their new owner, and the others the one that they had. -/
theorem owner?_replace (r : Ring α) (positions : List UInt64) (owner : α) (p : UInt64) :
    (r.replace positions owner).owner? p =
      if p ∈ positions then some owner else r.owner? p := by
  induction positions generalizing r with
  | nil => rfl
  | cons q positions ih =>
    have hcons : r.replace (q :: positions) owner =
        replace ⟨setSlot q owner r.slots⟩ positions owner := rfl
    rw [hcons, ih, owner?_setSlot]
    by_cases hp : p ∈ positions
    · rw [if_pos hp, if_pos (List.mem_cons_of_mem q hp)]
    · rw [if_neg hp]
      by_cases hpq : q = p
      · rw [if_pos hpq, if_pos (hpq ▸ List.mem_cons_self)]
      · have hmem : p ∉ q :: positions := by
          simp [hp, Ne.symm hpq]
        rw [if_neg hpq, if_neg hmem]

theorem occupied_replace (r : Ring α) (positions : List UInt64) (owner : α) (p : UInt64) :
    (r.replace positions owner).Occupied p ↔ p ∈ positions ∨ r.Occupied p := by
  rw [Occupied, owner?_replace]
  by_cases hp : p ∈ positions <;> simp [hp, Occupied]

/-- A ring has as many positions as there are in a list without repetitions that holds just these. -/
theorem Ordered.size_eq (h : r.Ordered) {positions : List UInt64} (hnodup : positions.Nodup)
    (hoccupied : ∀ p, r.Occupied p ↔ p ∈ positions) : r.size = positions.length := by
  have hkeys : (r.slots.map Prod.fst).Nodup :=
    List.pairwise_map.mpr (h.imp fun hlt => (UInt64.ne_of_lt hlt))
  have hperm : (r.slots.map Prod.fst).Perm positions := by
    refine (List.perm_ext_iff_of_nodup hkeys hnodup).mpr fun p => ?_
    rw [← hoccupied, h.occupied_iff, List.mem_map]
  rw [size, ← hperm.length_eq, List.length_map]

theorem length_positionsFor (name : String) : (positionsFor name).length = 10 := by
  rw [positionsFor, List.length_map, List.length_range]
  rfl

/-- The positions taken from their owner have none, and the others the one that they had. -/
theorem Ordered.owner?_remove [DecidableEq α] (h : r.Ordered) (positions : List UInt64)
    (owner : α) (p : UInt64) :
    (r.remove positions owner).owner? p =
      if p ∈ positions ∧ r.owner? p = some owner then none else r.owner? p := by
  refine Option.ext fun other => ?_
  have hmem : (p, other) ∈ (r.remove positions owner).slots ↔
      (p, other) ∈ r.slots ∧ ¬(p ∈ positions ∧ other = owner) := by
    simp [Ring.remove, List.mem_filter, imp_iff_not_or]
  rw [(h.remove positions owner).owner?_eq_some_iff, hmem, ← h.owner?_eq_some_iff]
  by_cases hp : p ∈ positions ∧ r.owner? p = some owner
  · rw [if_pos hp, hp.2]
    constructor
    · rintro ⟨hsame, hother⟩
      exact (hother ⟨hp.1, (Option.some.inj hsame).symm⟩).elim
    · rintro ⟨⟩
  · rw [if_neg hp]
    constructor
    · exact And.left
    · intro hother
      refine ⟨hother, ?_⟩
      rintro ⟨hpositions, rfl⟩
      exact hp ⟨hpositions, hother⟩

/-- The owners are those that own a position. -/
theorem mem_owners [DecidableEq α] {r : Ring α} :
    owner ∈ r.owners ↔ owner ∈ r.slots.map Prod.snd := by
  have hfold (slots : List (UInt64 × α)) (seen : List α) :
      owner ∈ slots.foldl (fun seen s => if s.2 ∈ seen then seen else seen ++ [s.2]) seen ↔
        owner ∈ seen ∨ owner ∈ slots.map Prod.snd := by
    induction slots generalizing seen with
    | nil => simp
    | cons s slots ih =>
      rw [List.foldl_cons, ih, List.map_cons, List.mem_cons]
      by_cases hs : s.2 ∈ seen
      · rw [if_pos hs]
        constructor
        · exact Or.imp_right Or.inr
        · rintro (hseen | rfl | hslots)
          · exact Or.inl hseen
          · exact Or.inl hs
          · exact Or.inr hslots
      · rw [if_neg hs, List.mem_append, List.mem_singleton, or_assoc]
  rw [owners, hfold]
  simp

/-- Giving positions to an owner brings in no other one. -/
theorem mem_owners_replace [DecidableEq α] {positions : List UInt64} {other : α}
    (h : other ∈ (r.replace positions owner).owners) : other = owner ∨ other ∈ r.owners := by
  induction positions generalizing r with
  | nil => exact Or.inr h
  | cons p positions ih =>
    rcases ih (r := ⟨setSlot p owner r.slots⟩) h with rfl | hset
    · exact Or.inl rfl
    · obtain ⟨s, hs, rfl⟩ := List.mem_map.mp (mem_owners.mp hset)
      rw [setSlot_eq] at hs
      rcases mem_of_mem_insertByKey hs with rfl | hs
      · exact Or.inl rfl
      · exact Or.inr (mem_owners.mpr (List.mem_map_of_mem hs))

/-- Taking positions from an owner brings in none. -/
theorem mem_owners_remove [DecidableEq α] {positions : List UInt64} {other : α}
    (h : other ∈ (r.remove positions owner).owners) : other ∈ r.owners := by
  obtain ⟨s, hs, rfl⟩ := List.mem_map.mp (mem_owners.mp h)
  exact mem_owners.mpr (List.mem_map_of_mem (List.mem_filter.mp hs).1)

/-! ### The next position -/

theorem IsNext.occupied (h : r.IsNext position p) : r.Occupied p := by
  rcases h with h | ⟨-, h⟩
  · exact h.1.1
  · exact h.1

theorem IsNext.unique (hp : r.IsNext position p) (hq : r.IsNext position q) : p = q := by
  rcases hp with hp | ⟨hbefore, hp⟩
  · rcases hq with hq | ⟨hbefore, -⟩
    · exact Std.le_antisymm (hp.2 hq.1) (hq.2 hp.1)
    · exact (Std.not_le.mpr (hbefore p hp.1.1) hp.1.2).elim
  · rcases hq with hq | ⟨-, hq⟩
    · exact (Std.not_le.mpr (hbefore q hq.1.1) hq.1.2).elim
    · exact Std.le_antisymm (hp.2 hq.1) (hq.2 hp.1)

/-- A position stays the next one when others lose their owners. -/
theorem IsNext.of_subset (h : r.IsNext position p)
    (hsubset : ∀ q, r'.Occupied q → r.Occupied q) (hp : r'.Occupied p) :
    r'.IsNext position p := by
  rcases h with h | ⟨hbefore, h⟩
  · exact Or.inl ⟨⟨hp, h.1.2⟩, fun q hq => h.2 ⟨hsubset q hq.1, hq.2⟩⟩
  · exact Or.inr ⟨fun q hq => hbefore q (hsubset q hq), hp, fun q hq => h.2 (hsubset q hq)⟩

/-- The first position at or after the given one is the next one. -/
theorem Ordered.isNext_of_find? (h : r.Ordered) {s : UInt64 × α}
    (hfind : (r.slots.find? fun s => position ≤ s.1) = some s) : r.IsNext position s.1 := by
  obtain ⟨hs, before, after, hslots, hbefore⟩ := List.find?_eq_some_iff_append.mp hfind
  refine Or.inl ⟨⟨h.occupied_iff.mpr ⟨s, List.mem_of_find?_eq_some hfind, rfl⟩, by simpa using hs⟩,
    fun q hq => ?_⟩
  obtain ⟨t, ht, rfl⟩ := h.occupied_iff.mp hq.1
  rw [Ordered, hslots] at h
  rw [hslots] at ht
  rcases List.mem_append.mp ht with ht | ht
  · have hlt := hbefore t ht
    simp [hq.2] at hlt
  · exact KeyOrdered.le_of_mem before h ht

/-- When all positions are before the given one, the least is the next one. -/
theorem Ordered.isNext_of_head (h : r.Ordered) {s : UInt64 × α} {rest : List (UInt64 × α)}
    (hslots : r.slots = s :: rest) (hfind : (r.slots.find? fun s => position ≤ s.1) = none) :
    r.IsNext position s.1 := by
  refine Or.inr ⟨fun q hq => ?_, h.occupied_iff.mpr ⟨s, hslots ▸ List.mem_cons_self, rfl⟩,
    fun q hq => ?_⟩
  · obtain ⟨t, ht, rfl⟩ := h.occupied_iff.mp hq
    have hlt := List.find?_eq_none.mp hfind t ht
    simpa [Std.not_le] using hlt
  · obtain ⟨t, ht, rfl⟩ := h.occupied_iff.mp hq
    rw [Ordered, hslots] at h
    exact KeyOrdered.le_of_mem [] h (hslots ▸ ht)

/-- Nothing is picked from a ring without positions. From any other one, the owner of the next
position is picked. -/
theorem Ordered.pickAt_cases (h : r.Ordered) (position : UInt64) :
    r.slots = [] ∧ r.pickAt position = none ∨
      ∃ p, r.IsNext position p ∧ r.pickAt position = r.owner? p := by
  cases hfind : r.slots.find? fun s => position ≤ s.1 with
  | some s =>
    refine Or.inr ⟨s.1, h.isNext_of_find? hfind, ?_⟩
    rw [pickAt, hfind, h.owner?_eq_some_iff.mpr (List.mem_of_find?_eq_some hfind)]
    rfl
  | none =>
    cases hslots : r.slots with
    | nil =>
      refine Or.inl ⟨rfl, ?_⟩
      rw [pickAt, hslots]
      rfl
    | cons s rest =>
      have hmem : (s.1, s.2) ∈ r.slots := hslots ▸ List.mem_cons_self
      refine Or.inr ⟨s.1, h.isNext_of_head hslots hfind, ?_⟩
      rw [pickAt, hfind, h.owner?_eq_some_iff.mpr hmem, hslots]
      rfl

/-- The owner of the next position is picked. -/
theorem Ordered.pickAt_of_isNext (h : r.Ordered) (hp : r.IsNext position p) :
    r.pickAt position = r.owner? p := by
  rcases h.pickAt_cases position with ⟨hempty, -⟩ | ⟨q, hq, hpick⟩
  · obtain ⟨s, hs, -⟩ := h.occupied_iff.mp hp.occupied
    rw [hempty] at hs
    cases hs
  · rw [hpick, hq.unique hp]

theorem Ordered.pickAt_eq_some_iff (h : r.Ordered) :
    r.pickAt position = some owner ↔ ∃ p, r.IsNext position p ∧ r.owner? p = some owner := by
  constructor
  · intro hpick
    rcases h.pickAt_cases position with ⟨-, hnone⟩ | ⟨p, hp, hsame⟩
    · rw [hnone] at hpick
      cases hpick
    · exact ⟨p, hp, hsame ▸ hpick⟩
  · rintro ⟨p, hp, howner⟩
    rw [h.pickAt_of_isNext hp, howner]

theorem Ordered.pickAt_eq_none_iff (h : r.Ordered) : r.pickAt position = none ↔ r.slots = [] := by
  rcases h.pickAt_cases position with ⟨hempty, hpick⟩ | ⟨p, hp, hpick⟩
  · exact iff_of_true hpick hempty
  · obtain ⟨s, hs, -⟩ := h.occupied_iff.mp hp.occupied
    refine iff_of_false (fun hnone => ?_) (List.ne_nil_of_mem hs)
    have hsome := hp.occupied
    rw [Occupied, ← hpick, hnone] at hsome
    cases hsome

/-! ### Changes -/

/-- Giving positions to an owner moves requests to this owner only. -/
theorem Ordered.pickAt_replace (h : r.Ordered) (positions : List UInt64) (owner : α)
    (position : UInt64) :
    (r.replace positions owner).pickAt position = r.pickAt position ∨
      (r.replace positions owner).pickAt position = some owner := by
  have howner := r.owner?_replace positions owner
  rcases (h.replace positions owner).pickAt_cases position with ⟨hempty, hpick⟩ | ⟨p, hp, hpick⟩
  · have hnone : r.slots = [] := by
      refine List.eq_nil_iff_forall_not_mem.mpr fun s hs => ?_
      have hoccupied : (r.replace positions owner).Occupied s.1 := by
        rw [Occupied, howner]
        split
        · rfl
        · exact h.occupied_iff.mpr ⟨s, hs, rfl⟩
      obtain ⟨t, ht, -⟩ := (h.replace positions owner).occupied_iff.mp hoccupied
      rw [hempty] at ht
      cases ht
    exact Or.inl (hpick.trans (h.pickAt_eq_none_iff.mpr hnone).symm)
  · by_cases hgiven : p ∈ positions
    · exact Or.inr (by rw [hpick, howner, if_pos hgiven])
    · have hsame : (r.replace positions owner).owner? p = r.owner? p := by
        rw [howner, if_neg hgiven]
      have hsubset (q : UInt64) (hq : r.Occupied q) :
          (r.replace positions owner).Occupied q := by
        rw [Occupied, howner]
        split
        · rfl
        · exact hq
      have hoccupied : r.Occupied p := by
        rw [Occupied, ← hsame]
        exact hp.occupied
      exact Or.inl (by rw [hpick, hsame, h.pickAt_of_isNext (hp.of_subset hsubset hoccupied)])

/-- Taking positions from an owner moves requests away from this owner only. -/
theorem Ordered.pickAt_remove [DecidableEq α] (h : r.Ordered) (positions : List UInt64)
    (owner : α) (position : UInt64) :
    (r.remove positions owner).pickAt position = r.pickAt position ∨
      r.pickAt position = some owner := by
  have howner := h.owner?_remove positions owner
  rcases h.pickAt_cases position with ⟨hempty, hpick⟩ | ⟨p, hp, hpick⟩
  · have hnone : (r.remove positions owner).slots = [] := by
      simp [Ring.remove, hempty]
    exact Or.inl (((h.remove positions owner).pickAt_eq_none_iff.mpr hnone).trans hpick.symm)
  · by_cases htaken : p ∈ positions ∧ r.owner? p = some owner
    · exact Or.inr (hpick.trans htaken.2)
    · have hsame : (r.remove positions owner).owner? p = r.owner? p := by
        rw [howner, if_neg htaken]
      have hsubset (q : UInt64) (hq : (r.remove positions owner).Occupied q) : r.Occupied q := by
        rw [Occupied, howner] at hq
        split at hq
        · cases hq
        · exact hq
      have hoccupied : (r.remove positions owner).Occupied p := by
        rw [Occupied, hsame]
        exact hp.occupied
      refine Or.inl ?_
      rw [(h.remove positions owner).pickAt_of_isNext (hp.of_subset hsubset hoccupied), hsame,
        hpick]

/-! ### Rings that come about -/

/-- A change to a ring. -/
inductive Change (α : Type) where
  | insert (name : String) (owner : α)
  | replace (positions : List UInt64) (owner : α)
  | remove (positions : List UInt64) (owner : α)

/-- Makes a change. -/
def change [DecidableEq α] (r : Ring α) : Change α → Ring α
  | .insert name owner => r.insert name owner
  | .replace positions owner => r.replace positions owner
  | .remove positions owner => r.remove positions owner

/-- The ring after some changes. -/
def ofChanges [DecidableEq α] (changes : List (Change α)) : Ring α :=
  changes.foldl change empty

theorem Ordered.change [DecidableEq α] (h : r.Ordered) (c : Change α) : (r.change c).Ordered := by
  cases c with
  | insert name owner => exact h.replace (positionsFor name) owner
  | replace positions owner => exact h.replace positions owner
  | remove positions owner => exact h.remove positions owner

theorem ordered_ofChanges [DecidableEq α] (changes : List (Change α)) :
    (ofChanges changes).Ordered := by
  have hfold (r : Ring α) (h : r.Ordered) : (changes.foldl Ring.change r).Ordered := by
    induction changes generalizing r with
    | nil => exact h
    | cons c changes ih => exact ih (r.change c) (h.change c)
  exact hfold empty ordered_empty

/-- On every ring that comes about, a request is picked an owner if and only if there are
positions, and then the owner of the next position: the least at or after the request's own, or the
least of all when there is none. Inserting an owner gives it its positions and no others; the
request stays where it was or goes to this owner. Removing positions from an owner takes those of
them that it has and no others; the request stays where it was unless it was there. Nothing is
asked of the positions, so those of different names may be the same. -/
theorem requests_go_to_next_owner [DecidableEq α] (changes : List (Change α))
    (request : RequestId) :
    let r := ofChanges changes
    (r.pick request = none ↔ r.isEmpty = true) ∧
      (r.isEmpty = true ∨
        ∃ p, r.IsNext (requestPosition request) p ∧ r.pick request = r.owner? p) ∧
      (∀ name owner,
        (∀ p, (r.insert name owner).owner? p =
          if p ∈ positionsFor name then some owner else r.owner? p) ∧
        ((r.insert name owner).pick request = r.pick request ∨
          (r.insert name owner).pick request = some owner)) ∧
      ∀ positions owner,
        (∀ p, (r.remove positions owner).owner? p =
          if p ∈ positions ∧ r.owner? p = some owner then none else r.owner? p) ∧
        ((r.remove positions owner).pick request = r.pick request ∨
          r.pick request = some owner) := by
  intro r
  have h : r.Ordered := ordered_ofChanges changes
  have hempty : r.isEmpty = true ↔ r.slots = [] := List.isEmpty_iff
  refine ⟨?_, ?_, fun name owner => ⟨?_, ?_⟩, fun positions owner => ⟨?_, ?_⟩⟩
  · rw [hempty]
    exact h.pickAt_eq_none_iff
  · rw [hempty]
    exact (h.pickAt_cases (requestPosition request)).imp And.left id
  · exact r.owner?_replace (positionsFor name) owner
  · exact h.pickAt_replace (positionsFor name) owner (requestPosition request)
  · exact h.owner?_remove positions owner
  · exact h.pickAt_remove positions owner (requestPosition request)

end RemoteCall.Ring
