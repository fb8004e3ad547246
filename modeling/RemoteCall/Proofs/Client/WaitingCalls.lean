import RemoteCall.Client.Pending
import RemoteCall.Proofs.Counting

/-!
# The table of waiting calls

Calls are registered in the table of those that wait, and leave it by an answer, by a failure, by
their caller giving up or by the end of the client, whichever comes first. The tickets that the
table gives out stand each in one place, with the calls that wait or with those that are settled;
what is told to one request changes at most the one call that waits under it.

## Main definitions

* `Pending.Notice`, `Pending.take` : what is told to one request.
* `Pending.Change`, `Pending.change` : all that happens to the table.
* `Pending.Sound` : the state of the table after these calls were registered.

## Main results

* `Pending.Sound.change` : what happens to the table keeps it sound.
* `Pending.Sound.status_take_of_waiting`, `Pending.Sound.status_take_of_ne` : a notice settles the
  call that waits under its request, and no other.
* `Pending.Sound.failEach` : failing every call is failing them one by one, in any order.
-/

namespace RemoteCall

/-- The call waits. -/
def CallStatus.isWaiting : CallStatus → Bool
  | waiting => true
  | settled _ | unknown => false

namespace Pending

/-- What a request is told. -/
inductive Notice where
  | answer (frame : Frame)
  | failure (id : RequestId) (e : Error)
  /-- The caller gave up. -/
  | giveUp (id : RequestId)

namespace Notice

/-- The request that is told. -/
def request : Notice → RequestId
  | answer frame => frame.header.request
  | failure id _ => id
  | giveUp id => id

/-- How a call ends whose answers are read by this serializer. -/
def settlement (serializer : Serializer) : Notice → Settlement
  | answer frame => .delivered (resultOf serializer frame)
  | failure _ e => .delivered (.error e)
  | giveUp _ => .dropped

end Notice

/-- Tells a request; says whether a call waited under it. -/
def take (p : Pending) : Notice → Bool × Pending
  | .answer frame => p.resolve frame
  | .failure id e => p.fail id e
  | .giveUp id => p.remove id

/-- What happens to the table. -/
inductive Change where
  | register (id : RequestId) (serializer : Serializer)
  | notice (n : Notice)
  | failAll (fault : Fault)

/-- The table after a change. -/
def change (p : Pending) : Change → Pending
  | .register id serializer => (p.register id serializer).2
  | .notice n => (p.take n).2
  | .failAll fault => (p.failAll fault).2

/-- The call that a change registers. -/
def Change.registration? : Change → Option (RequestId × Serializer)
  | register id serializer => some (id, serializer)
  | notice _ => none
  | failAll _ => none

/-- The state of the table after these calls were registered, in their order: the ticket of each
stands in one place, and no two calls wait under one request. -/
structure Sound (registered : List (RequestId × Serializer)) (p : Pending) : Prop where
  next : p.next = registered.length
  once : (p.calls.map PendingCall.ticket ++ p.settled.map Prod.fst).Perm
    (List.range registered.length)
  calls : ∀ c ∈ p.calls, registered[c.ticket]? = some (c.id, c.serializer)
  distinct : (p.calls.map PendingCall.id).Nodup

variable {p : Pending} {registered : List (RequestId × Serializer)} {id : RequestId}
  {c : PendingCall} {t : Ticket} {how : Settlement} {serializer : Serializer}

theorem take_eq_settle (p : Pending) (n : Notice) :
    p.take n = p.settle n.request fun c => n.settlement c.serializer := by
  cases n <;> rfl

theorem sound_empty : Sound [] empty where
  next := rfl
  once := .nil
  calls _ hc := absurd hc List.not_mem_nil
  distinct := List.nodup_nil

/-! ### Where a call stands -/

theorem status_eq_waiting_iff : p.status t = .waiting ↔ ∃ c ∈ p.calls, c.ticket = t := by
  rw [status]
  split
  · rename_i hwaits
    simpa using hwaits
  · rename_i hwaits
    constructor
    · intro h
      split at h <;> cases h
    · intro h
      exact absurd (by simpa using h) hwaits

/-- No ticket stands in two places. -/
theorem Sound.nodup (hp : p.Sound registered) :
    (p.calls.map PendingCall.ticket ++ p.settled.map Prod.fst).Nodup :=
  hp.once.nodup_iff.mpr List.nodup_range

theorem Sound.status_eq_settled_iff (hp : p.Sound registered) :
    p.status t = .settled how ↔ (t, how) ∈ p.settled := by
  obtain ⟨-, hsettled, hapart⟩ := List.nodup_append.mp hp.nodup
  have hfind : (p.settled.find? fun s => s.1 == t) = some (t, how) ↔ (t, how) ∈ p.settled := by
    simp [find?_eq_some_iff_of_nodup hsettled]
  rw [status]
  split
  · rename_i hwaits
    obtain ⟨c, hc, rfl⟩ : ∃ c ∈ p.calls, c.ticket = t := by simpa using hwaits
    refine ⟨nofun, fun h => ?_⟩
    exact absurd rfl (hapart c.ticket (List.mem_map_of_mem hc) c.ticket (List.mem_map_of_mem h))
  · rw [← hfind]
    cases hs : p.settled.find? fun s => s.1 == t with
    | none => simp
    | some s =>
      have hst : s.1 = t := by simpa using List.find?_some hs
      simp [Prod.ext_iff, hst]

/-- Every registered call waits or is settled. -/
theorem Sound.status_cases (hp : p.Sound registered) (ht : t < registered.length) :
    p.status t = .waiting ∨ ∃ how, p.status t = .settled how := by
  have hmem := hp.once.mem_iff.mpr (List.mem_range.mpr ht)
  rcases List.mem_append.mp hmem with hmem | hmem
  · exact Or.inl (status_eq_waiting_iff.mpr (List.mem_map.mp hmem))
  · obtain ⟨⟨t, how⟩, hs, rfl⟩ := List.mem_map.mp hmem
    exact Or.inr ⟨how, hp.status_eq_settled_iff.mpr hs⟩

theorem Sound.call?_eq_some_iff (hp : p.Sound registered) :
    p.call? id = some c ↔ c ∈ p.calls ∧ c.id = id :=
  find?_eq_some_iff_of_nodup hp.distinct

/-- The call that waits under a request. -/
theorem Sound.call?_of_waiting (hp : p.Sound registered)
    (hregistered : registered[t]? = some (id, serializer)) (hwaits : p.status t = .waiting) :
    p.call? id = some ⟨id, t, serializer⟩ := by
  obtain ⟨c, hc, rfl⟩ := status_eq_waiting_iff.mp hwaits
  have hcall := hp.calls c hc
  rw [hregistered] at hcall
  cases hcall
  exact hp.call?_eq_some_iff.mpr ⟨hc, rfl⟩

/-- A request is in the table exactly when a call that was registered for it waits. -/
theorem Sound.contains_iff (hp : p.Sound registered) :
    p.contains id = true ↔
      ∃ t serializer, registered[t]? = some (id, serializer) ∧ p.status t = .waiting := by
  rw [contains, Option.isSome_iff_exists]
  constructor
  · rintro ⟨c, hc⟩
    obtain ⟨hmem, rfl⟩ := hp.call?_eq_some_iff.mp hc
    exact ⟨c.ticket, c.serializer, hp.calls c hmem, status_eq_waiting_iff.mpr ⟨c, hmem, rfl⟩⟩
  · rintro ⟨t, serializer, hregistered, hwaits⟩
    exact ⟨_, hp.call?_of_waiting hregistered hwaits⟩

theorem call?_of_not_contains (h : p.contains id = false) : p.call? id = none := by
  simpa [contains] using h

/-! ### Settling one call -/

theorem settle_of_none (h : p.call? id = none) (how : PendingCall → Settlement) :
    p.settle id how = (false, p) := by
  rw [settle, h]

theorem settle_of_some (h : p.call? id = some c) (how : PendingCall → Settlement) :
    p.settle id how = (true, { p with
      calls := p.calls.filter fun d => d.id != id
      settled := (c.ticket, how c) :: p.settled }) := by
  rw [settle, h]

/-- The calls of other requests stay in the table, in their order. -/
theorem calls_settle_eq (p : Pending) (id : RequestId) (how : PendingCall → Settlement) :
    (p.settle id how).2.calls = p.calls.filter fun c => c.id != id := by
  cases h : p.call? id with
  | none =>
    have hothers : ∀ c ∈ p.calls, (c.id != id) = true := by simpa [call?] using h
    rw [settle_of_none h, List.filter_eq_self.mpr hothers]
  | some c => rw [settle_of_some h]

/-- Some requests are given up, one after another. -/
theorem calls_foldl_remove (ids : List RequestId) (p : Pending) :
    (ids.foldl (fun p id => (p.remove id).2) p).calls = p.calls.filter fun c => c.id ∉ ids := by
  induction ids generalizing p with
  | nil => exact (List.filter_eq_self.mpr fun c _ => by simp).symm
  | cons id ids ih =>
    rw [List.foldl_cons, ih, remove, calls_settle_eq, List.filter_filter]
    refine List.filter_congr fun c _ => ?_
    by_cases hid : c.id = id <;> simp [hid]

/-- A call that leaves the table leaves the others. -/
theorem Sound.calls_perm (hp : p.Sound registered) (h : p.call? id = some c) :
    p.calls.Perm (c :: p.calls.filter fun d => d.id != id) := by
  obtain ⟨hc, rfl⟩ := hp.call?_eq_some_iff.mp h
  have hself := filter_eq_singleton hp.distinct hc
  have hparts := List.filter_append_perm (fun d => d.id == c.id) p.calls
  rw [hself] at hparts
  exact hparts.symm

theorem Sound.settle (hp : p.Sound registered) (id : RequestId)
    (how : PendingCall → Settlement) : (p.settle id how).2.Sound registered := by
  cases h : p.call? id with
  | none => rwa [settle_of_none h]
  | some c =>
    rw [settle_of_some h]
    refine ⟨hp.next, ?_, fun d hd => hp.calls d (List.mem_filter.mp hd).1,
      hp.distinct.sublist (List.filter_sublist.map _)⟩
    have hcalls := ((hp.calls_perm h).map PendingCall.ticket).symm
    rw [List.map_cons] at hcalls
    exact List.perm_middle.trans ((hcalls.append_right _).trans hp.once)

/-- Settling one call leaves the others where they are. -/
theorem Sound.status_settle_of_ne (hp : p.Sound registered) (how : PendingCall → Settlement)
    (h : ∀ c, p.call? id = some c → c.ticket ≠ t) : (p.settle id how).2.status t = p.status t := by
  cases hcall : p.call? id with
  | none => rw [settle_of_none hcall]
  | some c =>
    have ht : (c.ticket == t) = false := by simpa using h c hcall
    have hany : (p.calls.filter fun d => d.id != id).any (fun d => d.ticket == t) =
        p.calls.any fun d => d.ticket == t := by
      rw [(hp.calls_perm hcall).any_eq, List.any_cons, ht, Bool.false_or]
    rw [settle_of_some hcall, status, status, hany, List.find?_cons_of_neg (by simp [ht])]

/-! ### Telling a request -/

section Notices

variable {n : Notice}

/-- Nothing happens when no call waits. -/
theorem take_of_not_contains (h : p.contains n.request = false) : p.take n = (false, p) := by
  rw [take_eq_settle, settle_of_none (call?_of_not_contains h)]

/-- The call that waits under the request is settled. -/
theorem Sound.status_take_of_waiting (hp : p.Sound registered)
    (hregistered : registered[t]? = some (n.request, serializer)) (hwaits : p.status t = .waiting) :
    (p.take n).1 = true ∧ (p.take n).2.status t = .settled (n.settlement serializer) := by
  have hcall := hp.call?_of_waiting hregistered hwaits
  have hsound := hp.settle n.request fun c => n.settlement c.serializer
  rw [take_eq_settle]
  rw [settle_of_some hcall] at hsound ⊢
  exact ⟨rfl, hsound.status_eq_settled_iff.mpr List.mem_cons_self⟩

/-- The calls of other requests stay where they are. -/
theorem Sound.status_take_of_ne (hp : p.Sound registered)
    (hregistered : registered[t]? = some (id, serializer)) (hne : n.request ≠ id) :
    (p.take n).2.status t = p.status t := by
  rw [take_eq_settle]
  refine hp.status_settle_of_ne _ fun c hcall hc => hne ?_
  obtain ⟨hmem, hid⟩ := hp.call?_eq_some_iff.mp hcall
  have hother := hp.calls c hmem
  rw [hc, hregistered, Option.some.injEq, Prod.mk.injEq] at hother
  rw [hother.1, hid]

end Notices

/-! ### Registering and failing all -/

/-- A call is registered when none waits under its request. -/
theorem Sound.append (hp : p.Sound registered) (h : p.call? id = none)
    (serializer : Serializer) :
    Sound (registered ++ [(id, serializer)])
      { p with calls := p.calls ++ [⟨id, p.next, serializer⟩], next := p.next + 1 } := by
  have hfresh : ∀ c ∈ p.calls, c.id ≠ id := by simpa [call?] using h
  refine ⟨by rw [List.length_append, hp.next]; rfl, ?_, fun c hc => ?_,
    nodup_map_append_singleton hp.distinct hfresh⟩
  · -- The new ticket stands last among those that wait, in front of those that are settled.
    rw [List.length_append, List.length_singleton, List.range_succ, List.map_append,
      List.append_assoc, ← hp.next]
    have hlast : (p.calls.map PendingCall.ticket ++ ([p.next] ++ p.settled.map Prod.fst)).Perm
        (p.calls.map PendingCall.ticket ++ (p.settled.map Prod.fst ++ [p.next])) :=
      List.perm_append_comm.append_left _
    rw [← List.append_assoc _ _ [p.next]] at hlast
    exact hlast.trans (hp.next ▸ hp.once.append_right [p.next])
  · rcases List.mem_append.mp hc with hc | hc
    · have hcall := hp.calls c hc
      rwa [List.getElem?_append_left (List.getElem?_eq_some_iff.mp hcall).1]
    · obtain rfl := List.mem_singleton.mp hc
      show (registered ++ [(id, serializer)])[p.next]? = _
      rw [hp.next, List.getElem?_concat_length]

theorem Sound.register (hp : p.Sound registered) (id : RequestId) (serializer : Serializer) :
    Sound (registered ++ [(id, serializer)]) (p.register id serializer).2 := by
  have hremoved := hp.settle id fun _ => .dropped
  have hfree : (p.remove id).2.call? id = none := by
    cases hcall : p.call? id with
    | none => rwa [remove, settle_of_none hcall]
    | some c =>
      rw [remove, settle_of_some hcall]
      simp [call?]
  exact hremoved.append hfree serializer

/-- The call that is registered waits. -/
theorem Sound.status_register_self (hp : p.Sound registered) (id : RequestId)
    (serializer : Serializer) :
    (p.register id serializer).1 = registered.length ∧
      (p.register id serializer).2.status registered.length = .waiting := by
  have hticket : (p.register id serializer).1 = registered.length :=
    (hp.settle id fun _ => .dropped).next
  refine ⟨hticket, status_eq_waiting_iff.mpr ⟨⟨id, _, serializer⟩, ?_, hticket⟩⟩
  exact List.mem_append_right _ List.mem_cons_self

/-- A call that is registered under a request of its own leaves the others where they are. -/
theorem Sound.status_register_of_ne (hp : p.Sound registered) (h : p.contains id = false)
    (serializer : Serializer) (ht : t < registered.length) :
    (p.register id serializer).2.status t = p.status t := by
  have hother : (p.next == t) = false := by
    simpa using Nat.ne_of_gt (hp.next ▸ ht)
  rw [Pending.register, remove, settle_of_none (call?_of_not_contains h), status, status]
  simp [hother]

theorem Sound.failAll (hp : p.Sound registered) (fault : Fault) :
    Sound registered (p.failAll fault).2 := by
  refine ⟨hp.next, ?_, fun c hc => absurd hc List.not_mem_nil, List.nodup_nil⟩
  have hall : ((p.failAll fault).2.settled.map Prod.fst) =
      p.calls.map PendingCall.ticket ++ p.settled.map Prod.fst := by
    simp [Pending.failAll]
  rw [hall]
  exact hp.once

theorem not_contains_failAll (p : Pending) (fault : Fault) (id : RequestId) :
    (p.failAll fault).2.contains id = false := rfl

/-- Every call that waits gets the fault. -/
theorem Sound.status_failAll (hp : p.Sound registered) (fault : Fault)
    (hwaits : p.status t = .waiting) :
    (p.failAll fault).2.status t = .settled (.delivered (.error (.rpc fault none))) := by
  obtain ⟨c, hc, rfl⟩ := status_eq_waiting_iff.mp hwaits
  refine (hp.failAll fault).status_eq_settled_iff.mpr (List.mem_append_left _ ?_)
  exact List.mem_map.mpr ⟨c, hc, rfl⟩

/-- The fault is delivered as many times as calls wait. -/
theorem Sound.failAll_fst (hp : p.Sound registered) (fault : Fault) :
    (p.failAll fault).1 =
      (List.range registered.length).countP fun t => (p.status t).isWaiting := by
  have hwaiting : (p.calls.map PendingCall.ticket).countP (fun t => (p.status t).isWaiting) =
      p.calls.length := by
    refine (List.countP_eq_length.mpr fun t ht => ?_).trans (List.length_map _)
    rw [status_eq_waiting_iff.mpr (List.mem_map.mp ht)]
    rfl
  have hsettled :
      (p.settled.map Prod.fst).countP (fun t => (p.status t).isWaiting) = 0 := by
    refine List.countP_eq_zero.mpr fun t ht => ?_
    obtain ⟨⟨t, how⟩, hs, rfl⟩ := List.mem_map.mp ht
    rw [hp.status_eq_settled_iff.mpr hs]
    exact Bool.false_ne_true
  rw [← hp.once.countP_eq, List.countP_append, hwaiting, hsettled]
  rfl

/-- Fails calls one by one; gives the number of those that waited. -/
def failEach (fault : Fault) : List RequestId → Pending → Nat × Pending
  | [], p => (0, p)
  | id :: ids, p =>
    let failed := p.fail id (.rpc fault none)
    let rest := failEach fault ids failed.2
    (rest.1 + failed.1.toNat, rest.2)

theorem Sound.failEach_eq (hp : p.Sound registered) (fault : Fault) {ids : List RequestId}
    (hids : ids.Perm (p.calls.map PendingCall.id)) :
    ∃ settled, settled.Perm (p.failAll fault).2.settled ∧
      failEach fault ids p = (p.calls.length, { p with calls := [], settled }) := by
  induction ids generalizing p with
  | nil =>
    have hnone : p.calls = [] := List.map_eq_nil_iff.mp hids.symm.eq_nil
    refine ⟨p.settled, ?_, ?_⟩
    · rw [Pending.failAll, hnone]
      exact .refl _
    · obtain ⟨calls, settled, next⟩ := p
      obtain rfl : calls = [] := hnone
      rfl
  | cons id ids ih =>
    obtain ⟨c, hc, rfl⟩ := List.mem_map.mp (hids.subset List.mem_cons_self)
    have hcall := hp.call?_eq_some_iff.mpr ⟨hc, rfl⟩
    have hfailed := hp.settle c.id fun _ => .delivered (.error (.rpc fault none))
    have hperm := hp.calls_perm hcall
    rw [settle_of_some hcall] at hfailed
    have hrest := (hids.trans (hperm.map PendingCall.id)).cons_inv
    obtain ⟨settled, hsettled, heq⟩ := ih hfailed hrest
    refine ⟨settled, hsettled.trans ?_, ?_⟩
    · have hwaited := (hperm.map fun d =>
        (d.ticket, Settlement.delivered (.error (.rpc fault none)))).append_right p.settled
      exact List.perm_middle.trans hwaited.symm
    · rw [Pending.failEach, fail, settle_of_some hcall, hperm.length_eq]
      simp only [heq]
      rfl

/-- Failing all calls is failing them one by one, in any order. -/
theorem Sound.failEach (hp : p.Sound registered) (fault : Fault) {ids : List RequestId}
    (hids : ids.Perm (p.calls.map PendingCall.id)) :
    (failEach fault ids p).1 = (p.failAll fault).1 ∧
      ∀ t, (failEach fault ids p).2.status t = (p.failAll fault).2.status t := by
  obtain ⟨settled, hperm, heq⟩ := hp.failEach_eq fault hids
  refine ⟨by rw [heq]; rfl, fun t => ?_⟩
  have hnodup : ((p.failAll fault).2.settled.map Prod.fst).Nodup := (hp.failAll fault).nodup
  have hfind : (settled.find? fun s => s.1 == t) =
      (p.failAll fault).2.settled.find? fun s => s.1 == t := by
    refine Option.ext fun s => ?_
    rw [find?_eq_some_iff_of_nodup hnodup, hperm.mem_iff.symm,
      find?_eq_some_iff_of_nodup ((hperm.map Prod.fst).nodup_iff.mpr hnodup)]
  rw [heq, status, status, hfind]
  rfl

/-! ### What happens to the table -/

theorem Sound.change (hp : p.Sound registered) (e : Change) :
    Sound (registered ++ e.registration?.toList) (p.change e) := by
  cases e with
  | register id serializer => exact hp.register id serializer
  | notice n =>
    rw [Change.registration?, Option.toList_none, List.append_nil, Pending.change, take_eq_settle]
    exact hp.settle n.request _
  | failAll fault =>
    rw [Change.registration?, Option.toList_none, List.append_nil]
    exact hp.failAll fault

theorem Sound.changes (hp : p.Sound registered) (es : List Change) :
    Sound (registered ++ es.filterMap Change.registration?) (es.foldl Pending.change p) := by
  induction es generalizing p registered with
  | nil => rwa [List.filterMap_nil, List.append_nil]
  | cons e es ih =>
    have hes := ih (hp.change e)
    have hcons : (e :: es).filterMap Change.registration? =
        e.registration?.toList ++ es.filterMap Change.registration? := by
      cases h : e.registration? with
      | none =>
        rw [List.filterMap_cons_none h]
        rfl
      | some r =>
        rw [List.filterMap_cons_some h]
        rfl
    rwa [hcons, ← List.append_assoc]

/-- What a call got is never taken back. -/
theorem settled_settle_suffix (p : Pending) (id : RequestId) (how : PendingCall → Settlement) :
    p.settled <:+ (p.settle id how).2.settled := by
  cases h : p.call? id with
  | none =>
    have hsame : (p.settle id how).2.settled = p.settled := by rw [settle_of_none h]
    exact hsame ▸ List.suffix_rfl
  | some c =>
    rw [settle_of_some h]
    exact List.suffix_cons _ _

theorem settled_change_suffix (p : Pending) (e : Change) : p.settled <:+ (p.change e).settled := by
  cases e with
  | register id serializer => exact settled_settle_suffix p id _
  | notice n =>
    rw [change, take_eq_settle]
    exact settled_settle_suffix p n.request _
  | failAll fault => exact List.suffix_append _ _

theorem settled_changes_suffix (p : Pending) (es : List Change) :
    p.settled <:+ (es.foldl change p).settled := by
  induction es generalizing p with
  | nil => exact List.suffix_rfl
  | cons e es ih => exact (settled_change_suffix p e).trans (ih (p.change e))

end Pending

end RemoteCall
