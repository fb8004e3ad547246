import RemoteCall.Proofs.Service.Numbers

/-!
# Merging one service after another

Of three services the second and the third can be merged into the first one after the other, or the
third into the second and what comes of it into the first. The two orders ask for the same things at
different moments: both are refused, or both give the same service. A merge moves the numbers of the
service that it takes over by as many as there are methods already, so a number that is moved twice
on the way through the second service ends where it is moved to at once.

## Main definitions

* `Service.Compatible` : three services that can be merged into one.

## Main results

* `Service.TakenOver.lookup` : the number that a method has after a merge.
* `Service.Numbered.merges_in_turn_iff`, `Service.Numbered.merges_nested_iff` : each order of the
  two merges is possible exactly if the services are compatible.
* `Service.merge_assoc` : the order in which three services are merged makes no difference.
-/

namespace RemoteCall

namespace Service

variable {a b c ab bc source target : Service} {before : List Method}
  {renumbering : Renumbering}

namespace TakenOver

variable (h : TakenOver source target before renumbering)
include h

/-- A method that was taken over has its number moved by the number of the methods before. -/
theorem lookup (hs : source.Numbered) (i : MethodId) :
    renumbering.lookup i =
      (source.method? i).map fun m => UInt8.ofNat before.length + m.id := by
  rw [h.renumbering_eq, NumberedFrom.renumbered_add hs.numbers, List.map_map]
  exact lookup_map Method.id (fun m => UInt8.ofNat before.length + m.id) i source.methods

theorem lookup_of_method? (hs : source.Numbered) {i : MethodId} {m : Method}
    (hm : source.method? i = some m) :
    renumbering.lookup i = some (UInt8.ofNat before.length + i) := by
  rw [h.lookup hs, hm, Option.map_some, (hs.method?_eq_some_iff.mp hm).2]

/-- A method that was taken over is found under the number that it was moved to. -/
theorem method?_moved (hs : source.Numbered) (ht : target.Numbered) {i : MethodId} {m : Method}
    (hm : source.method? i = some m) :
    ∃ m', target.method? (UInt8.ofNat before.length + i) = some m' := by
  have hmem := (hs.method?_eq_some_iff.mp hm).1
  rw [← (hs.method?_eq_some_iff.mp hm).2]
  refine ⟨{ m with id := UInt8.ofNat before.length + m.id },
    ht.method?_eq_some_iff.mpr ⟨?_, rfl⟩⟩
  rw [h.methods, NumberedFrom.renumbered_add hs.numbers, List.map_map]
  exact List.mem_append_right _ (List.mem_map_of_mem hmem)

theorem map_name : target.methods.map Method.name =
    before.map Method.name ++ source.methods.map Method.name := by
  rw [h.methods, List.map_append, map_name_renumbered]

theorem length_methods :
    target.methods.length = before.length + source.methods.length := by
  rw [h.methods, List.length_append, List.length_map, length_renumbered]

end TakenOver

/-- Methods that are renumbered twice are where the last numbers put them. -/
theorem renumbered_renumbered (n k : Nat) (methods : List Method) :
    (renumbered n ((renumbered k methods).map Prod.snd)).map Prod.snd =
      (renumbered n methods).map Prod.snd := by
  induction methods generalizing n k with
  | nil => rfl
  | cons m methods ih =>
    simp only [renumbered_cons, List.map_cons, ih]

theorem renumbered_append (n : Nat) (methods more : List Method) :
    renumbered n (methods ++ more) =
      renumbered n methods ++ renumbered (n + methods.length) more := by
  induction methods generalizing n with
  | nil => rfl
  | cons m methods ih =>
    rw [List.cons_append, renumbered_cons, ih, renumbered_cons, List.cons_append,
      List.length_cons, Nat.add_assoc, Nat.add_comm 1]

/-- A merge changes the methods and the numbers that are left, and nothing else. -/
theorem Numbered.eq_of_merge (ha : a.Numbered) (h : a.merge b = .ok (renumbering, ab)) :
    ab = { a with
      ids := ⟨a.methods.length + 1 + b.methods.length⟩
      methods := a.methods ++ (renumbered (a.methods.length + 1) b.methods).map Prod.snd } := by
  rw [ha.merge_of_takes (ha.merge_ok_iff.mp ⟨_, h⟩)] at h
  cases h
  rfl

/-- Three services can be merged into one: they have the same number and address, no method of one
has the name of a method of another, and there are numbers for all of them. -/
structure Compatible (a b c : Service) : Prop where
  id : b.id = a.id ∧ c.id = a.id
  address : b.address = a.address ∧ c.address = a.address
  second : ∀ m ∈ b.methods, m.name ∉ a.methods.map Method.name
  third : ∀ m ∈ c.methods,
    m.name ∉ a.methods.map Method.name ∧ m.name ∉ b.methods.map Method.name
  room : a.methods.length + b.methods.length + c.methods.length ≤ maxMethodId

/-- When the second service and then the third are merged into the first. -/
theorem Numbered.merges_in_turn_iff (ha : a.Numbered) (hb : b.Numbered) :
    (∃ ab, a.merge b = .ok ab ∧ ∃ abc, ab.2.merge c = .ok abc) ↔ Compatible a b c := by
  constructor
  · rintro ⟨⟨renumbering, ab⟩, hmerge, hlast⟩
    have htakes := ha.merge_ok_iff.mp ⟨_, hmerge⟩
    obtain ⟨hab, -, htaken⟩ := ha.merge hb hmerge
    have hthird := hab.merge_ok_iff.mp hlast
    have hkept := ha.eq_of_merge hmerge
    refine ⟨⟨htakes.id, ?_⟩, ⟨htakes.address, ?_⟩, htakes.names, fun m hm => ?_, ?_⟩
    · exact hthird.id.trans (by rw [hkept])
    · exact hthird.address.trans (by rw [hkept])
    · have hname := hthird.names m hm
      rwa [htaken.map_name, List.mem_append, not_or] at hname
    · rw [← htaken.length_methods]
      exact hthird.room
  · intro h
    have htakes : a.Takes b :=
      ⟨h.id.1, h.address.1, h.second, Nat.le_trans (Nat.le_add_right _ _) h.room⟩
    obtain ⟨⟨renumbering, ab⟩, hmerge⟩ := ha.merge_ok_iff.mpr htakes
    obtain ⟨hab, -, htaken⟩ := ha.merge hb hmerge
    have hkept := ha.eq_of_merge hmerge
    refine ⟨_, hmerge, hab.merge_ok_iff.mpr ⟨?_, ?_, fun m hm => ?_, ?_⟩⟩
    · rw [hkept]
      exact h.id.2
    · rw [hkept]
      exact h.address.2
    · rw [htaken.map_name, List.mem_append, not_or]
      exact h.third m hm
    · rw [htaken.length_methods]
      exact h.room

/-- When the third service is merged into the second and then both into the first. -/
theorem Numbered.merges_nested_iff (ha : a.Numbered) (hb : b.Numbered) (hc : c.Numbered) :
    (∃ bc, b.merge c = .ok bc ∧ ∃ abc, a.merge bc.2 = .ok abc) ↔ Compatible a b c := by
  constructor
  · rintro ⟨⟨renumbering, bc⟩, hmerge, hlast⟩
    have htakes := hb.merge_ok_iff.mp ⟨_, hmerge⟩
    obtain ⟨-, hid, htaken⟩ := hb.merge hc hmerge
    have hboth := ha.merge_ok_iff.mp hlast
    have hkept := hb.eq_of_merge hmerge
    have hnames : ∀ name ∈ bc.methods.map Method.name, name ∉ a.methods.map Method.name := by
      intro name hname
      obtain ⟨m, hm, rfl⟩ := List.mem_map.mp hname
      exact hboth.names m hm
    rw [htaken.map_name] at hnames
    have hbid : b.id = a.id := hid.symm.trans hboth.id
    have hbaddress : b.address = a.address := Eq.trans (by rw [hkept]) hboth.address
    refine ⟨⟨hbid, htakes.id.trans hbid⟩, ⟨hbaddress, htakes.address.trans hbaddress⟩,
      fun m hm => ?_, fun m hm => ⟨?_, htakes.names m hm⟩, ?_⟩
    · exact hnames _ (List.mem_append_left _ (List.mem_map_of_mem hm))
    · exact hnames _ (List.mem_append_right _ (List.mem_map_of_mem hm))
    · rw [Nat.add_assoc, ← htaken.length_methods]
      exact hboth.room
  · intro h
    have hroom := h.room
    have htakes : b.Takes c :=
      ⟨h.id.2.trans h.id.1.symm, h.address.2.trans h.address.1.symm,
        fun m hm => (h.third m hm).2, by omega⟩
    obtain ⟨⟨renumbering, bc⟩, hmerge⟩ := hb.merge_ok_iff.mpr htakes
    obtain ⟨-, hid, htaken⟩ := hb.merge hc hmerge
    have hkept := hb.eq_of_merge hmerge
    refine ⟨_, hmerge, ha.merge_ok_iff.mpr ⟨hid.trans h.id.1, ?_, fun m hm hname => ?_, ?_⟩⟩
    · rw [hkept]
      exact h.address.1
    · have hmem : m.name ∈ bc.methods.map Method.name := List.mem_map_of_mem hm
      rw [htaken.map_name] at hmem
      rcases List.mem_append.mp hmem with hmem | hmem
      · obtain ⟨n, hn, hsame⟩ := List.mem_map.mp hmem
        exact h.second n hn (hsame ▸ hname)
      · obtain ⟨n, hn, hsame⟩ := List.mem_map.mp hmem
        exact (h.third n hn).1 (hsame ▸ hname)
    · rw [htaken.length_methods, ← Nat.add_assoc]
      exact h.room

/-- For services that are built by settings, registrations and merges: the second and then the third
can be merged into the first exactly when the third can be merged into the second and what comes of
it into the first. Both give the same service; they give the same numbers to the methods of the
second, and those of the third have the numbers that the two renumberings of the second order lead
to. -/
theorem merge_assoc (ha : a.Built) (hb : b.Built) (hc : c.Built) :
    ((∃ ab, a.merge b = .ok ab ∧ ∃ abc, ab.2.merge c = .ok abc) ↔
      ∃ bc, b.merge c = .ok bc ∧ ∃ abc, a.merge bc.2 = .ok abc) ∧
    ∀ toAB toABC toBC nested ab abc bc abc',
      a.merge b = .ok (toAB, ab) → ab.merge c = .ok (toABC, abc) →
      b.merge c = .ok (toBC, bc) → a.merge bc = .ok (nested, abc') →
        abc = abc' ∧
        (∀ i m, b.method? i = some m → ∃ j,
          toAB.lookup i = some j ∧ nested.lookup i = some j) ∧
        ∀ i m, c.method? i = some m → ∃ j k,
          toABC.lookup i = some k ∧ toBC.lookup i = some j ∧ nested.lookup j = some k := by
  have ha := ha.numbered
  have hb := hb.numbered
  have hc := hc.numbered
  refine ⟨(ha.merges_in_turn_iff hb).trans (ha.merges_nested_iff hb hc).symm, ?_⟩
  intro toAB toABC toBC nested ab abc bc abc' hmergeAB hmergeABC hmergeBC hnested
  obtain ⟨hab, -, htakenAB⟩ := ha.merge hb hmergeAB
  obtain ⟨-, -, htakenABC⟩ := hab.merge hc hmergeABC
  obtain ⟨hbc, -, htakenBC⟩ := hb.merge hc hmergeBC
  obtain ⟨-, -, htakenNested⟩ := ha.merge hbc hnested
  refine ⟨?_, fun i m hm => ?_, fun i m hm => ?_⟩
  · have hlengthAB : ab.methods.length + 1 = a.methods.length + 1 + b.methods.length := by
      rw [htakenAB.length_methods]
      omega
    have hlengthBC : a.methods.length + 1 + bc.methods.length =
        a.methods.length + 1 + b.methods.length + c.methods.length := by
      rw [htakenBC.length_methods]
      omega
    -- The methods of the third service are renumbered once in one order and twice in the other.
    have hmethods : ab.methods ++
        (renumbered (a.methods.length + 1 + b.methods.length) c.methods).map Prod.snd =
          a.methods ++ (renumbered (a.methods.length + 1) bc.methods).map Prod.snd := by
      rw [htakenAB.methods, htakenBC.methods, renumbered_append, List.map_append,
        renumbered_renumbered, List.append_assoc]
    rw [hab.eq_of_merge hmergeABC, ha.eq_of_merge hnested, hlengthAB, hlengthBC, hmethods,
      ha.eq_of_merge hmergeAB]
  · have hkept : bc.method? i = some m := by
      obtain ⟨hmem, hid⟩ := hb.method?_eq_some_iff.mp hm
      refine hbc.method?_eq_some_iff.mpr ⟨?_, hid⟩
      rw [htakenBC.methods]
      exact List.mem_append_left _ hmem
    exact ⟨_, htakenAB.lookup_of_method? hb hm, htakenNested.lookup_of_method? hbc hkept⟩
  · obtain ⟨m', hmoved⟩ := htakenBC.method?_moved hc hbc hm
    refine ⟨_, _, ?_, htakenBC.lookup_of_method? hc hm,
      htakenNested.lookup_of_method? hbc hmoved⟩
    rw [htakenABC.lookup_of_method? hc hm, htakenAB.length_methods, UInt8.ofNat_add,
      UInt8.add_assoc]

/-- Three services of one name with a method each; the method of the third gets the number 3, at
once or by way of 2. -/
theorem merge_assoc_counters :
    let counting (method : String) := stateAfter (registering (.ofName method) .echo)
      (.new "Counter" (.loopback 8080))
    let a := counting "add"
    let b := counting "reset"
    let c := counting "read"
    a.Built ∧ b.Built ∧ c.Built ∧ (∃ m, b.method? 1 = some m) ∧ (∃ m, c.method? 1 = some m) ∧
      ∃ ab abc bc nested, a.merge b = .ok ([(1, 2)], ab) ∧ ab.merge c = .ok ([(1, 3)], abc) ∧
        b.merge c = .ok ([(1, 2)], bc) ∧ a.merge bc = .ok (nested, abc) ∧
        nested.lookup 1 = some 2 ∧ nested.lookup 2 = some 3 := by
  intro counting a b c
  have hbuilt : ∀ method, (counting method).Built := fun method =>
    .register (.new "Counter" (.loopback 8080)) (.ofName method) .echo
  have ha : a.Numbered := (hbuilt "add").numbered
  have hb : b.Numbered := (hbuilt "reset").numbered
  have hAB := @Numbered.merge_of_takes a b ha ⟨rfl, rfl, by decide, by decide⟩
  have hab := (ha.merge hb hAB).1
  have hABC := @Numbered.merge_of_takes _ c hab ⟨rfl, rfl, by decide, by decide⟩
  have hBC := @Numbered.merge_of_takes b c hb ⟨rfl, rfl, by decide, by decide⟩
  obtain ⟨hiff, hsame⟩ := merge_assoc (hbuilt "add") (hbuilt "reset") (hbuilt "read")
  obtain ⟨_, hBC', ⟨nested, abc⟩, hnested⟩ := hiff.mp ⟨_, hAB, _, hABC⟩
  cases hBC.symm.trans hBC'
  obtain ⟨rfl, hsecond, hthird⟩ := hsame _ _ _ _ _ _ _ _ hAB hABC hBC hnested
  obtain ⟨_, ⟨⟩, htwo⟩ := hsecond 1 _ rfl
  obtain ⟨_, _, ⟨⟩, ⟨⟩, hthree⟩ := hthird 1 _ rfl
  exact ⟨hbuilt "add", hbuilt "reset", hbuilt "read", ⟨_, rfl⟩, ⟨_, rfl⟩, _, _, _, nested,
    hAB, hABC, hBC, hnested, htwo, hthree⟩

end Service

end RemoteCall
