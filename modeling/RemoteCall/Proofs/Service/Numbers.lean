import RemoteCall.Proofs.KeyOrder
import RemoteCall.Proofs.Service.InPlace

/-!
# The numbers of methods

A service that is built from a blank one by registering and merging has its methods under the
numbers from one on, without a gap, in the order in which they were put in, and the numbers it has
left are those that follow. Registering and merging therefore put methods at the end; none that is
there loses its number.

## Main definitions

* `Service.Numbered` : the state of the numbers and names of a service.
* `Service.Takes` : a service can be merged into another.
* `Service.TakenOver` : where the methods of one service stand in another, with their new numbers.
* `Service.Built` : the services that are built by settings, registrations and merges.

## Main results

* `Service.renumber_eq` : when methods are renumbered, and what comes of it.
* `Service.Numbered.merge_ok_iff` : which services are merged.
* `Service.Numbered.register`, `Service.Numbered.merge` : one registration, one merge.
* `Service.Built.numbered` : whatever is built is numbered.
* `Service.Built.owned` : its methods carry its number.
-/

namespace RemoteCall

namespace Service

section Numbering

variable {n : Nat} {m : Method} {methods more : List Method}

/-- The methods have the numbers from `n` on, in their order. -/
def NumberedFrom (n : Nat) (methods : List Method) : Prop :=
  methods.map (fun m => m.id.toNat) = List.range' n methods.length

/-- The methods under the numbers from `n` on, each with the number it had. -/
def renumbered (n : Nat) (methods : List Method) : List (MethodId × Method) :=
  methods.mapIdx fun k m => (m.id, { m with id := UInt8.ofNat (n + k) })

theorem renumbered_cons (n : Nat) (m : Method) (methods : List Method) :
    renumbered n (m :: methods) =
      (m.id, { m with id := UInt8.ofNat n }) :: renumbered (n + 1) methods := by
  simp only [renumbered, List.mapIdx_cons, Nat.add_zero, Nat.add_assoc, Nat.add_comm 1]

@[simp] theorem length_renumbered (n : Nat) (methods : List Method) :
    (renumbered n methods).length = methods.length :=
  List.length_mapIdx

theorem NumberedFrom.append (h : NumberedFrom n methods)
    (hmore : NumberedFrom (n + methods.length) more) : NumberedFrom n (methods ++ more) := by
  rw [NumberedFrom, List.map_append, h, hmore, List.length_append, List.range'_append_1]

theorem NumberedFrom.mem_bounds (h : NumberedFrom n methods) (hm : m ∈ methods) :
    n ≤ m.id.toNat ∧ m.id.toNat < n + methods.length := by
  have hmem : m.id.toNat ∈ methods.map fun m => m.id.toNat := List.mem_map_of_mem hm
  rw [h] at hmem
  exact List.mem_range'_1.mp hmem

/-- Methods with consecutive numbers are in the order of their numbers. -/
theorem NumberedFrom.keyOrdered (h : NumberedFrom n methods) : KeyOrdered Method.id methods := by
  have hincreasing : (methods.map fun m => m.id.toNat).Pairwise (· < ·) := by
    rw [h]
    exact List.pairwise_lt_range'
  exact (List.pairwise_map.mp hincreasing).imp fun hlt => UInt8.lt_iff_toNat_lt.mpr hlt

theorem numberedFrom_renumbered (h : n + methods.length ≤ maxMethodId + 1) :
    NumberedFrom n ((renumbered n methods).map Prod.snd) := by
  induction methods generalizing n with
  | nil => rfl
  | cons m methods ih =>
    rw [List.length_cons, maxMethodId] at h
    have hsmall : n < 256 := by omega
    have hn : (UInt8.ofNat n).toNat = n := UInt8.toNat_ofNat_of_lt hsmall
    have htail := ih (n := n + 1) (by rw [maxMethodId]; omega)
    rw [NumberedFrom, List.length_map, length_renumbered] at htail
    rw [NumberedFrom, renumbered_cons, List.map_cons, List.map_cons, htail, hn, List.length_cons,
      List.length_map, length_renumbered, List.range'_succ]

/-- Consecutive numbers are moved by as much as the first of them. -/
theorem NumberedFrom.renumbered_add (h : NumberedFrom n methods) (k : Nat) :
    renumbered (k + n) methods =
      methods.map fun m => (m.id, { m with id := UInt8.ofNat k + m.id }) := by
  induction methods generalizing n with
  | nil => rfl
  | cons m methods ih =>
    rw [NumberedFrom, List.map_cons, List.length_cons, List.range'_succ] at h
    obtain ⟨hm, hmethods⟩ := List.cons.inj h
    have hnumber : UInt8.ofNat (k + n) = UInt8.ofNat k + m.id := by
      rw [UInt8.ofNat_add, ← hm, UInt8.ofNat_toNat]
    rw [renumbered_cons, Nat.add_assoc, ih hmethods, List.map_cons, hnumber]

/-- Methods that have the numbers from `n` on keep them. -/
theorem NumberedFrom.renumbered_eq (h : NumberedFrom n methods) :
    renumbered n methods = methods.map fun m => (m.id, m) := by
  have hsame := h.renumbered_add 0
  rw [Nat.zero_add] at hsame
  rw [hsame]
  exact List.map_congr_left fun m _ =>
    congrArg (fun id => (m.id, { m with id })) (UInt8.zero_add (a := m.id))

/-- Only the number of a method changes. -/
theorem eq_of_mem_renumbered {r : MethodId × Method} (h : r ∈ renumbered n methods) :
    ∃ m ∈ methods, r.1 = m.id ∧ r.2 = { m with id := r.2.id } := by
  obtain ⟨k, hk, rfl⟩ := List.mem_mapIdx.mp h
  exact ⟨methods[k], List.getElem_mem hk, rfl, rfl⟩

theorem map_fst_renumbered (n : Nat) (methods : List Method) :
    (renumbered n methods).map Prod.fst = methods.map Method.id := by
  induction methods generalizing n with
  | nil => rfl
  | cons m methods ih => rw [renumbered_cons, List.map_cons, List.map_cons, ih]

theorem map_name_renumbered (n : Nat) (methods : List Method) :
    ((renumbered n methods).map Prod.snd).map Method.name = methods.map Method.name := by
  induction methods generalizing n with
  | nil => rfl
  | cons m methods ih => rw [renumbered_cons, List.map_cons, List.map_cons, ih, List.map_cons]

/-- Methods are renumbered when numbers are left for all of them. -/
theorem renumber_eq (ids : MethodIds) (methods : List Method)
    (h : ids.next ≤ maxMethodId + 1) :
    renumber ids methods =
      if ids.next + methods.length ≤ maxMethodId + 1 then
        .ok (renumbered ids.next methods, ⟨ids.next + methods.length⟩)
      else .error .tooManyMethods := by
  induction methods generalizing ids with
  | nil =>
    rw [List.length_nil, Nat.add_zero, if_pos h]
    rfl
  | cons m methods ih =>
    rw [renumber, MethodIds.take, List.length_cons]
    by_cases hnext : ids.next ≤ maxMethodId
    · have hrest := ih ⟨ids.next + 1⟩ (Nat.succ_le_succ hnext)
      rw [if_pos hnext]
      simp only [bind, Except.bind, hrest, renumbered_cons, Nat.add_assoc, Nat.add_comm 1]
      by_cases hroom : ids.next + (methods.length + 1) ≤ maxMethodId + 1
      · simp only [if_pos hroom]
        rfl
      · simp only [if_neg hroom]
    · rw [if_neg hnext, if_neg (by omega)]
      rfl

/-- Methods that follow in the order of the numbers are put at the end. -/
theorem foldl_insertMethod (h : KeyOrdered Method.id (methods ++ more)) :
    more.foldl (fun ms m => insertMethod m ms) methods = methods ++ more := by
  induction more generalizing methods with
  | nil => exact (List.append_nil methods).symm
  | cons m more ih =>
    have hlast : insertMethod m methods = methods ++ [m] := by
      rw [insertMethod_eq]
      exact insertByKey_of_forall_lt fun b hb =>
        (List.pairwise_append.mp h).2.2 b hb m List.mem_cons_self
    rw [List.foldl_cons, hlast, ih (by rwa [List.append_assoc, List.singleton_append]),
      List.append_assoc, List.singleton_append]

end Numbering

/-- The methods of a service have the numbers from one on, as many as are used up, and no two have
one name. -/
structure Numbered (s : Service) : Prop where
  numbers : NumberedFrom 1 s.methods
  next : s.ids.next = s.methods.length + 1
  room : s.methods.length ≤ maxMethodId
  names : (s.methods.map Method.name).Nodup

/-- The methods of `source` stand in `target` behind the methods `before`, under the numbers that
follow, and `renumbering` gives for each of its numbers the one that the method has now. -/
structure TakenOver (source target : Service) (before : List Method) (renumbering : Renumbering) :
    Prop where
  methods :
    target.methods = before ++ (renumbered (before.length + 1) source.methods).map Prod.snd
  renumbering_eq :
    renumbering = (renumbered (before.length + 1) source.methods).map fun r => (r.1, r.2.id)

/-- The other service can be merged: it has the same number and address, none of its methods has a
name that is taken, and numbers are left for all of them. -/
structure Takes (s other : Service) : Prop where
  id : other.id = s.id
  address : other.address = s.address
  names : ∀ m ∈ other.methods, m.name ∉ s.methods.map Method.name
  room : s.methods.length + other.methods.length ≤ maxMethodId

section Steps

variable {s s' other : Service} {signature : Signature} {handler : Handler} {id : MethodId}
  {renumbering : Renumbering}

/-- A method is found under a name exactly when one has it. -/
theorem methodNamed?_isSome_iff {name : String} :
    (s.methodNamed? name).isSome = true ↔ name ∈ s.methods.map Method.name := by
  simp [methodNamed?, List.find?_isSome]

theorem numbered_new (name : String) (address : SocketAddress) : (new name address).Numbered where
  numbers := rfl
  next := rfl
  room := Nat.zero_le _
  names := List.nodup_nil

/-- Methods with the numbers that follow those of a service continue them. -/
theorem Numbered.continued (hs : s.Numbered) {more : List Method}
    (hmore : NumberedFrom (s.methods.length + 1) more) : NumberedFrom 1 (s.methods ++ more) :=
  hs.numbers.append (Nat.add_comm 1 s.methods.length ▸ hmore)

/-- A numbered service stays one when methods with the numbers that follow are put at its end. -/
theorem Numbered.append (hs : s.Numbered) {more : List Method}
    (hmore : NumberedFrom (s.methods.length + 1) more)
    (hroom : s.methods.length + more.length ≤ maxMethodId)
    (hnames : ((s.methods ++ more).map Method.name).Nodup) :
    Numbered { s with
      ids := ⟨s.methods.length + 1 + more.length⟩, methods := s.methods ++ more } where
  numbers := hs.continued hmore
  next := by
    show s.methods.length + 1 + more.length = (s.methods ++ more).length + 1
    rw [List.length_append]
    omega
  room := by rwa [List.length_append]
  names := hnames

/-- Registering keeps a service numbered. -/
theorem Numbered.register (hs : s.Numbered) (h : s.register signature handler = .ok (id, s')) :
    s'.Numbered := by
  rw [Service.register] at h
  by_cases hname : (s.methodNamed? signature.name).isSome = true
  · rw [if_pos hname] at h
    cases h
  rw [if_neg hname, MethodIds.take, hs.next] at h
  by_cases hroom : s.methods.length + 1 ≤ maxMethodId
  · rw [if_pos hroom] at h
    cases h
    let m := Method.ofSignature s.id (UInt8.ofNat (s.methods.length + 1)) signature (some handler)
      s.serializers
    have hmore : NumberedFrom (s.methods.length + 1)
        ((renumbered (s.methods.length + 1) [m]).map Prod.snd) :=
      numberedFrom_renumbered (Nat.succ_le_succ hroom)
    have hlast : [m].foldl (fun ms m => insertMethod m ms) s.methods = s.methods ++ [m] :=
      foldl_insertMethod (hs.continued hmore).keyOrdered
    have hnames : ((s.methods ++ [m]).map Method.name).Nodup :=
      nodup_map_append_singleton hs.names fun n hn heq =>
        hname (methodNamed?_isSome_iff.mpr (List.mem_map.mpr ⟨n, hn, heq⟩))
    show Numbered { s with
      ids := _, methods := [m].foldl (fun ms m => insertMethod m ms) s.methods }
    rw [hlast]
    exact hs.append hmore hroom hnames
  · rw [if_neg hroom] at h
    cases h

/-- What a service that can be merged comes to. -/
theorem Numbered.merge_of_takes (hs : s.Numbered) (h : s.Takes other) :
    s.merge other =
      .ok ((renumbered (s.methods.length + 1) other.methods).map fun r => (r.1, r.2.id),
        { s with
          ids := ⟨s.methods.length + 1 + other.methods.length⟩
          methods := s.methods ++
            (renumbered (s.methods.length + 1) other.methods).map Prod.snd }) := by
  have hroom : s.methods.length + 1 + other.methods.length ≤ maxMethodId + 1 := by
    have := h.room
    omega
  have hclash : (other.methods.find? fun m => (s.methodNamed? m.name).isSome) = none :=
    List.find?_eq_none.mpr fun m hm hname => h.names m hm (methodNamed?_isSome_iff.mp hname)
  have hnext : s.ids.next ≤ maxMethodId + 1 := hs.next ▸ Nat.succ_le_succ hs.room
  have hlast : (renumbered (s.methods.length + 1) other.methods).foldl
      (fun ms r => insertMethod r.2 ms) s.methods =
        s.methods ++ (renumbered (s.methods.length + 1) other.methods).map Prod.snd := by
    rw [← List.foldl_map (f := Prod.snd) (g := fun ms m => insertMethod m ms)]
    exact foldl_insertMethod (hs.continued (numberedFrom_renumbered hroom)).keyOrdered
  rw [Service.merge, if_neg (not_not.mpr h.id), if_neg (not_not.mpr h.address), hclash,
    renumber_eq s.ids other.methods hnext, hs.next, if_pos hroom, ← hlast]
  rfl

/-- A service is merged exactly when it can be. -/
theorem Numbered.merge_ok_iff (hs : s.Numbered) :
    (∃ merged, s.merge other = .ok merged) ↔ s.Takes other := by
  refine ⟨?_, fun h => ⟨_, hs.merge_of_takes h⟩⟩
  rintro ⟨merged, h⟩
  rw [Service.merge] at h
  split at h
  · cases h
  split at h
  · cases h
  split at h
  · cases h
  rename_i hid haddress _ hclash
  refine ⟨not_not.mp hid, not_not.mp haddress, fun m hm hname => ?_, ?_⟩
  · exact List.find?_eq_none.mp hclash m hm (methodNamed?_isSome_iff.mpr hname)
  · have hnext : s.ids.next ≤ maxMethodId + 1 := hs.next ▸ Nat.succ_le_succ hs.room
    rw [renumber_eq s.ids other.methods hnext, hs.next] at h
    by_contra hroom
    rw [if_neg (by omega)] at h
    cases h

/-- Merging puts the methods at the end, under the numbers that follow. -/
theorem Numbered.merge (hs : s.Numbered) (ho : other.Numbered)
    (h : s.merge other = .ok (renumbering, s')) :
    s'.Numbered ∧ s'.id = s.id ∧ TakenOver other s' s.methods renumbering := by
  have htakes := hs.merge_ok_iff.mp ⟨_, h⟩
  rw [hs.merge_of_takes htakes] at h
  cases h
  have hroom := htakes.room
  have hlength : ((renumbered (s.methods.length + 1) other.methods).map Prod.snd).length =
      other.methods.length := by
    rw [List.length_map, length_renumbered]
  have hnames : ((s.methods ++ (renumbered (s.methods.length + 1) other.methods).map
      Prod.snd).map Method.name).Nodup := by
    rw [List.map_append, map_name_renumbered]
    refine hs.names.append ho.names fun name hmem hmem' => ?_
    obtain ⟨m, hm, rfl⟩ := List.mem_map.mp hmem'
    exact htakes.names m hm hmem
  have hnumbered := hs.append (numberedFrom_renumbered (by omega)) (hlength ▸ hroom) hnames
  rw [hlength] at hnumbered
  exact ⟨hnumbered, rfl, rfl, rfl⟩

end Steps

section Lookup

variable {s source target : Service} {before : List Method} {renumbering : Renumbering}

/-- A method is found under its number, and no other is. -/
theorem Numbered.method?_eq_some_iff (hs : s.Numbered) {id : MethodId} {m : Method} :
    s.method? id = some m ↔ m ∈ s.methods ∧ m.id = id :=
  hs.numbers.keyOrdered.find?_eq_some_iff

/-- Every number is one that a method can have. -/
theorem Numbered.number_bounds (hs : s.Numbered) {m : Method} (hm : m ∈ s.methods) :
    1 ≤ m.id.toNat ∧ m.id.toNat ≤ maxMethodId := by
  obtain ⟨hleast, hmost⟩ := hs.numbers.mem_bounds hm
  have hroom := hs.room
  exact ⟨hleast, by omega⟩

theorem Numbered.nodup_ids (hs : s.Numbered) : (s.methods.map Method.id).Nodup :=
  hs.numbers.keyOrdered.nodup

/-- A service that stands alone has its methods under their own numbers. -/
theorem Numbered.takenOver_self (hs : s.Numbered) :
    TakenOver s s [] (s.methods.map fun m => (m.id, m.id)) := by
  have hkept : renumbered (([] : List Method).length + 1) s.methods =
      s.methods.map fun m => (m.id, m) := hs.numbers.renumbered_eq
  constructor
  · rw [hkept, List.map_map, List.nil_append]
    exact (List.map_id s.methods).symm
  · rw [hkept, List.map_map]
    rfl

theorem TakenOver.map_fst (h : TakenOver source target before renumbering) :
    renumbering.map Prod.fst = source.methods.map Method.id := by
  rw [h.renumbering_eq, List.map_map, ← map_fst_renumbered (before.length + 1)]
  rfl

/-- The new numbers are those of the methods that were taken over. -/
theorem TakenOver.map_snd (h : TakenOver source target before renumbering) :
    before.map Method.id ++ renumbering.map Prod.snd = target.methods.map Method.id := by
  rw [h.renumbering_eq, h.methods, List.map_append, List.map_map, List.map_map]
  rfl

theorem TakenOver.nodup_snd (h : TakenOver source target before renumbering)
    (ht : target.Numbered) : (renumbering.map Prod.snd).Nodup :=
  (h.map_snd ▸ ht.nodup_ids).of_append_right

/-- What the source has under an old number the target has under the new one. -/
theorem TakenOver.method (h : TakenOver source target before renumbering)
    {p : MethodId × MethodId} (hp : p ∈ renumbering) :
    ∃ m ∈ source.methods, m.id = p.1 ∧ { m with id := p.2 } ∈ target.methods := by
  rw [h.renumbering_eq] at hp
  obtain ⟨r, hr, rfl⟩ := List.mem_map.mp hp
  obtain ⟨m, hm, hold, hnew⟩ := eq_of_mem_renumbered hr
  refine ⟨m, hm, hold.symm, ?_⟩
  rw [← hnew, h.methods]
  exact List.mem_append_right _ (List.mem_map_of_mem hr)

end Lookup

/-- The services that are built from a blank one by settings, registrations and merges, refused or
not. -/
inductive Built : Service → Prop where
  | new (name : String) (address : SocketAddress) : Built (new name address)
  | withEndpoint {s : Service} (hs : Built s) (endpoint : String) : Built (s.withEndpoint endpoint)
  | withWeight {s : Service} (hs : Built s) (weight : Weight) : Built (s.withWeight weight)
  | withIoThreads {s : Service} (hs : Built s) (count : Nat) : Built (s.withIoThreads count)
  | withSerializers {s : Service} (hs : Built s) (serializers : Serializers) :
      Built (s.withSerializers serializers)
  | register {s : Service} (hs : Built s) (signature : Signature) (handler : Handler) :
      Built (stateAfter (registering signature handler) s)
  | merge {s other : Service} (hs : Built s) (ho : Built other) :
      Built (stateAfter (merging other) s)

/-- Whatever is built is numbered. -/
theorem Built.numbered {s : Service} (h : s.Built) : s.Numbered := by
  induction h with
  | new name address => exact numbered_new name address
  | withEndpoint hs endpoint ih => exact { ih with }
  | withWeight hs weight ih => exact { ih with }
  | withIoThreads hs count ih => exact { ih with }
  | withSerializers hs serializers ih => exact { ih with }
  | register hs signature handler ih =>
    rw [registering_eq]
    exact stateAfter_atomically ih fun id s' h => ih.register h
  | merge hs ho ih iho =>
    rw [merging_eq]
    exact stateAfter_atomically ih fun renumbering s' h => (ih.merge iho h).1

/-- The methods of the service carry its number. -/
def Owned (s : Service) : Prop :=
  ∀ m ∈ s.methods, m.service = s.id

/-- Whatever is built has methods that carry its number. -/
theorem Built.owned {s : Service} (h : s.Built) : s.Owned := by
  induction h with
  | new name address => exact fun m hm => absurd hm List.not_mem_nil
  | withEndpoint hs endpoint ih => exact ih
  | withWeight hs weight ih => exact ih
  | withIoThreads hs count ih => exact ih
  | withSerializers hs serializers ih => exact ih
  | @register s hs signature handler ih =>
    rw [registering_eq]
    refine stateAfter_atomically ih fun id s' h m hm => ?_
    rw [Service.register] at h
    split at h
    · cases h
    cases htake : s.ids.take with
    | error e =>
      rw [htake] at h
      cases h
    | ok taken =>
      rw [htake] at h
      cases h
      have hm : m ∈ insertMethod _ s.methods := hm
      rw [insertMethod_eq] at hm
      rcases mem_of_mem_insertByKey hm with rfl | hm
      · rfl
      · exact ih m hm
  | @merge s other hs ho ih iho =>
    rw [merging_eq]
    refine stateAfter_atomically ih fun renumbering s' h m hm => ?_
    have htakes := hs.numbered.merge_ok_iff.mp ⟨_, h⟩
    obtain ⟨-, hid, htaken⟩ := hs.numbered.merge ho.numbered h
    rw [htaken.methods, List.mem_append] at hm
    rw [hid]
    rcases hm with hm | hm
    · exact ih m hm
    · obtain ⟨r, hr, rfl⟩ := List.mem_map.mp hm
      obtain ⟨n, hn, -, hsame⟩ := eq_of_mem_renumbered hr
      rw [hsame]
      exact (iho n hn).trans htakes.id

end Service

end RemoteCall
