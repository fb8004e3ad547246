import RemoteCall.Proofs.Service.Description

/-!
# Numbers that are issued again

A service issues numbers in a row, whether methods have them or not. In a service that goes back to
a blank one the numbers that are left lie beyond those in use, so registering and merging add
methods and take none away. A service that is read from a description has the numbers of the
description and issues from one on: what is registered there or merged into it takes the place of
the methods that have the issued numbers.

## Main definitions

* `Service.Obtained` : all services there are, by what they go back to.
* `Service.Puts` : methods with the numbers that follow are put into a service.
* `Service.Issues` : what becomes of the numbers of a service when some are issued.
* `Service.Keeps` : every number leads where it led, and there are so many methods more.

## Main results

* `Service.Puts.issues` : the numbers that are issued are given to the methods that are put in.
* `Service.Issues.keeps_iff` : every number leads where it led unless one was issued again.
* `Service.numbers_issued` : what registering and merging do to the numbers in use.
* `Service.number_issued_again` : a method that is lost.
-/

namespace RemoteCall

namespace Service

variable {s s' other : Service} {methods more : List Method} {issued : List MethodId}
  {renumbering : Renumbering}

/-! ### Putting methods into a list -/

section Lists

/-- Methods that are put in one after the other keep the order of the numbers. -/
theorem keyOrdered_foldl_insertMethod (h : KeyOrdered Method.id methods) (more : List Method) :
    KeyOrdered Method.id (more.foldl (fun ms m => insertMethod m ms) methods) := by
  induction more generalizing methods with
  | nil => exact h
  | cons m more ih =>
    rw [List.foldl_cons, insertMethod_eq]
    exact ih (h.insertByKey m)

/-- Under a number stands what was put in with it last, or else what stood there. -/
theorem find?_foldl_insertMethod_last (more methods : List Method) (i : MethodId) :
    ((more.foldl (fun ms m => insertMethod m ms) methods).find? fun m => m.id == i) =
      (more.reverse.find? fun m => m.id == i).or (methods.find? fun m => m.id == i) := by
  induction more generalizing methods with
  | nil => rfl
  | cons m more ih =>
    rw [List.foldl_cons, ih, insertMethod_eq, find?_insertByKey, List.reverse_cons,
      List.find?_append, Option.or_assoc, List.find?_singleton]
    by_cases hi : m.id = i <;> simp [hi]

/-- Under a number stands what was put in with it, or else what stood there. -/
theorem find?_foldl_insertMethod (hmore : (more.map Method.id).Nodup) (i : MethodId) :
    ((more.foldl (fun ms m => insertMethod m ms) methods).find? fun m => m.id == i) =
      (more.find? fun m => m.id == i).or (methods.find? fun m => m.id == i) := by
  have hlast : (more.reverse.find? fun m => m.id == i) = more.find? fun m => m.id == i := by
    refine Option.ext fun m => ?_
    rw [find?_eq_some_iff_of_nodup hmore, find?_eq_some_iff_of_nodup, List.mem_reverse]
    rwa [List.map_reverse, List.nodup_reverse]
  rw [find?_foldl_insertMethod_last, hlast]

/-- The list grows by the methods whose numbers were not in use. -/
theorem length_foldl_insertMethod (h : KeyOrdered Method.id methods)
    (hmore : (more.map Method.id).Nodup) :
    (more.foldl (fun ms m => insertMethod m ms) methods).length = methods.length +
      (more.map Method.id).countP fun i => (methods.find? fun m => m.id == i).isNone := by
  induction more generalizing methods with
  | nil => rfl
  | cons m more ih =>
    obtain ⟨hm, hmore⟩ := List.nodup_cons.mp hmore
    -- Whether the numbers to come are in use is as it was before this method was put in.
    have hothers : ∀ i ∈ more.map Method.id,
        ((insertByKey Method.id m methods).find? fun n => n.id == i).isNone =
          (methods.find? fun n => n.id == i).isNone := by
      intro i hi
      have hne : m.id ≠ i := fun hmi => hm (hmi ▸ hi)
      rw [find?_insertByKey, if_neg hne]
    rw [List.foldl_cons, insertMethod_eq, ih (h.insertByKey m) hmore, h.length_insertByKey,
      List.countP_congr fun i hi => by rw [hothers i hi], List.map_cons, List.countP_cons]
    cases (methods.find? fun n => n.id == m.id).isNone
    · rfl
    · rw [Bool.toNat_true, if_pos rfl]
      omega

theorem mem_of_mem_foldl_insertMethod {m : Method}
    (h : m ∈ more.foldl (fun ms m => insertMethod m ms) methods) : m ∈ more ∨ m ∈ methods := by
  induction more generalizing methods with
  | nil => exact Or.inr h
  | cons n more ih =>
    rcases ih h with h | h
    · exact Or.inl (List.mem_cons_of_mem n h)
    · dsimp only at h
      rw [insertMethod_eq] at h
      rcases mem_of_mem_insertByKey h with rfl | h
      · exact Or.inl List.mem_cons_self
      · exact Or.inr h

end Lists

/-! ### Issuing numbers -/

/-- The methods are in the order of their numbers, and the next number is one that a method can have
or the first one beyond. -/
structure Tabled (s : Service) : Prop where
  ordered : KeyOrdered Method.id s.methods
  next_le : s.ids.next ≤ maxMethodId + 1

/-- Methods with the numbers that follow are put into a service. -/
structure Puts (s s' : Service) (more : List Method) : Prop where
  numbers : NumberedFrom s.ids.next more
  room : s.ids.next + more.length ≤ maxMethodId + 1
  next : s'.ids.next = s.ids.next + more.length
  methods : s'.methods = more.foldl (fun ms m => insertMethod m ms) s.methods

/-- These numbers, each once, are given to methods, whether others have them or not. All other
numbers lead where they led, and there are as many methods more as numbers that were not in use. -/
structure Issues (s s' : Service) (issued : List MethodId) : Prop where
  nodup : issued.Nodup
  found : ∀ i ∈ issued, (s'.method? i).isSome = true
  others : ∀ i, i ∉ issued → s'.method? i = s.method? i
  length : s'.methods.length =
    s.methods.length + issued.countP fun i => (s.method? i).isNone

/-- Every number that led to a method leads to it still, and there are so many methods more. -/
structure Keeps (s s' : Service) (count : Nat) : Prop where
  kept : ∀ i m, s.method? i = some m → s'.method? i = some m
  length : s'.methods.length = s.methods.length + count

/-- The numbers that are left lie beyond those in use. -/
def HasSpare (s : Service) : Prop :=
  ∀ m ∈ s.methods, m.id.toNat < s.ids.next

namespace Puts

theorem method?_eq (h : Puts s s' more) {m : Method} (hm : m ∈ more) :
    s'.method? m.id = some m := by
  have hnodup := (NumberedFrom.keyOrdered h.numbers).nodup
  have hfound : (more.find? fun n => n.id == m.id) = some m :=
    (find?_eq_some_iff_of_nodup hnodup).mpr ⟨hm, rfl⟩
  rw [method?, h.methods, find?_foldl_insertMethod hnodup, hfound]
  rfl

/-- The numbers that are issued are given to the methods that are put in. -/
theorem issues (h : Puts s s' more) (hs : s.Tabled) : Issues s s' (more.map Method.id) := by
  have hnodup := (NumberedFrom.keyOrdered h.numbers).nodup
  refine ⟨hnodup, fun i hi => ?_, fun i hi => ?_, ?_⟩
  · obtain ⟨m, hm, rfl⟩ := List.mem_map.mp hi
    rw [h.method?_eq hm]
    rfl
  · have hnone : (more.find? fun n => n.id == i) = none := by
      refine List.find?_eq_none.mpr fun n hn hni => hi ?_
      rw [← beq_iff_eq.mp hni]
      exact List.mem_map_of_mem hn
    rw [method?, h.methods, find?_foldl_insertMethod hnodup, hnone]
    rfl
  · rw [h.methods]
    exact length_foldl_insertMethod hs.ordered hnodup

theorem tabled (h : Puts s s' more) (hs : s.Tabled) : s'.Tabled where
  ordered := by
    rw [h.methods]
    exact keyOrdered_foldl_insertMethod hs.ordered more
  next_le := by
    rw [h.next]
    exact h.room

/-- A number that is left is not in use. -/
theorem not_in_use (h : Puts s s' more) (hs : s.HasSpare) :
    ∀ i ∈ more.map Method.id, s.method? i = none := by
  intro i hi
  obtain ⟨m, hm, rfl⟩ := List.mem_map.mp hi
  obtain ⟨hleast, -⟩ := NumberedFrom.mem_bounds h.numbers hm
  refine List.find?_eq_none.mpr fun n hn hnm => ?_
  have hlt := hs n hn
  rw [beq_iff_eq.mp hnm] at hlt
  exact Nat.not_lt.mpr hleast hlt

theorem hasSpare (h : Puts s s' more) (hs : s.HasSpare) : s'.HasSpare := by
  intro m hm
  rw [h.methods] at hm
  rw [h.next]
  rcases mem_of_mem_foldl_insertMethod hm with hm | hm
  · exact (NumberedFrom.mem_bounds h.numbers hm).2
  · exact Nat.lt_add_right _ (hs m hm)

end Puts

/-- Every number leads where it led unless one was issued again. -/
theorem Issues.keeps_iff (h : Issues s s' issued) :
    Keeps s s' issued.length ↔ ∀ i ∈ issued, s.method? i = none := by
  constructor
  · intro hkeeps i hi
    have hcount := Nat.add_left_cancel (h.length.symm.trans hkeeps.length)
    exact Option.isNone_iff_eq_none.mp (List.countP_eq_length.mp hcount i hi)
  · intro hfree
    refine ⟨fun i m hm => ?_, ?_⟩
    · have hi : i ∉ issued := fun hi => Option.some_ne_none m (hm.symm.trans (hfree i hi))
      rw [h.others i hi, hm]
    · rw [h.length,
        List.countP_eq_length.mpr fun i hi => Option.isNone_iff_eq_none.mpr (hfree i hi)]

/-- Registering puts one method in. -/
theorem puts_of_register {signature : Signature} {handler : Handler} {id : MethodId}
    (h : s.register signature handler = .ok (id, s')) :
    Puts s s' [.ofSignature s.id id signature (some handler) s.serializers] := by
  rw [register] at h
  split at h
  · cases h
  rw [MethodIds.take] at h
  by_cases hroom : s.ids.next ≤ maxMethodId
  · rw [if_pos hroom] at h
    cases h
    have hsmall : s.ids.next < 256 := Nat.lt_of_le_of_lt hroom (by decide)
    have hnumber : (UInt8.ofNat s.ids.next).toNat = s.ids.next := UInt8.toNat_ofNat_of_lt hsmall
    exact ⟨congrArg (fun n => [n]) hnumber, Nat.succ_le_succ hroom, rfl, rfl⟩
  · rw [if_neg hroom] at h
    cases h

/-- Merging puts the methods of the other service in, under the numbers that follow. -/
theorem Tabled.puts_of_merge (hs : s.Tabled) (h : s.merge other = .ok (renumbering, s')) :
    Puts s s' ((renumbered s.ids.next other.methods).map Prod.snd) ∧
      renumbering.map Prod.snd =
        ((renumbered s.ids.next other.methods).map Prod.snd).map Method.id := by
  rw [merge] at h
  split at h
  · cases h
  split at h
  · cases h
  split at h
  · cases h
  rw [renumber_eq s.ids other.methods hs.next_le] at h
  by_cases hroom : s.ids.next + other.methods.length ≤ maxMethodId + 1
  · rw [if_pos hroom] at h
    cases h
    have hlength : ((renumbered s.ids.next other.methods).map Prod.snd).length =
        other.methods.length := by
      rw [List.length_map, length_renumbered]
    refine ⟨⟨numberedFrom_renumbered hroom, hlength ▸ hroom, ?_, ?_⟩, ?_⟩
    · rw [hlength]
    · rw [List.foldl_map]
    · rw [List.map_map, List.map_map]
      rfl
  · rw [if_neg hroom] at h
    cases h

/-! ### Services and what they go back to -/

/-- What a service goes back to. -/
inductive Origin where
  | blank
  | description
  deriving DecidableEq

/-- The services that settings, registrations and merges, refused or not, make of a blank service or
of one that was read from a description. What is merged into a service does not change what it goes
back to. -/
inductive Obtained : Origin → Service → Prop where
  | new (name : String) (address : SocketAddress) : Obtained .blank (new name address)
  | ofInfo {info : ServiceInfo} {address : SocketAddress} {serializers : Serializers} {s : Service}
    (h : ofInfo info address serializers = .ok s) : Obtained .description s
  | withEndpoint {origin : Origin} {s : Service} (hs : Obtained origin s) (endpoint : String) :
      Obtained origin (s.withEndpoint endpoint)
  | withWeight {origin : Origin} {s : Service} (hs : Obtained origin s) (weight : Weight) :
      Obtained origin (s.withWeight weight)
  | withIoThreads {origin : Origin} {s : Service} (hs : Obtained origin s) (count : Nat) :
      Obtained origin (s.withIoThreads count)
  | withSerializers {origin : Origin} {s : Service} (hs : Obtained origin s)
    (serializers : Serializers) : Obtained origin (s.withSerializers serializers)
  | register {origin : Origin} {s : Service} (hs : Obtained origin s) (signature : Signature)
    (handler : Handler) : Obtained origin (stateAfter (registering signature handler) s)
  | merge {origin origin' : Origin} {s other : Service} (hs : Obtained origin s)
    (ho : Obtained origin' other) : Obtained origin (stateAfter (merging other) s)

/-- What putting methods in preserves, registering and merging do. -/
theorem Tabled.preserve {P : Service → Prop} (hs : s.Tabled ∧ P s)
    (h : ∀ s' more, Puts s s' more → P s') :
    (∀ signature handler, (stateAfter (registering signature handler) s).Tabled ∧
        P (stateAfter (registering signature handler) s)) ∧
      ∀ other, (stateAfter (merging other) s).Tabled ∧ P (stateAfter (merging other) s) := by
  refine ⟨fun signature handler => ?_, fun other => ?_⟩
  · rw [registering_eq]
    refine stateAfter_atomically (P := fun s => s.Tabled ∧ P s) hs fun id s' hregister => ?_
    exact ⟨(puts_of_register hregister).tabled hs.1, h s' _ (puts_of_register hregister)⟩
  · rw [merging_eq]
    refine stateAfter_atomically (P := fun s => s.Tabled ∧ P s) hs fun renumbering s' hmerge => ?_
    have hputs := (hs.1.puts_of_merge hmerge).1
    exact ⟨hputs.tabled hs.1, h s' _ hputs⟩

/-- A service that goes back to a blank one has spare numbers; every service is in order. -/
theorem Obtained.tabled {origin : Origin} (h : s.Obtained origin) :
    s.Tabled ∧ (origin = .blank → s.HasSpare) := by
  have hfresh : MethodIds.fresh.next ≤ maxMethodId + 1 := by decide
  have hgrows {origin : Origin} {s : Service} (hs : s.Tabled ∧ (origin = .blank → s.HasSpare)) :=
    Tabled.preserve hs fun s' more hputs horigin => hputs.hasSpare (hs.2 horigin)
  induction h with
  | new name address =>
    exact ⟨⟨List.Pairwise.nil, hfresh⟩, fun _ m hm => absurd hm List.not_mem_nil⟩
  | ofInfo h =>
    obtain ⟨⟨weight, hweight⟩, hids⟩ := bounds_of_ofInfo h
    rw [ofInfo_eq hweight hids] at h
    cases h
    exact ⟨⟨keyOrdered_foldl_insertMethod List.Pairwise.nil _, hfresh⟩, nofun⟩
  | withEndpoint _ _ ih => exact ⟨⟨ih.1.ordered, ih.1.next_le⟩, ih.2⟩
  | withWeight _ _ ih => exact ⟨⟨ih.1.ordered, ih.1.next_le⟩, ih.2⟩
  | withIoThreads _ _ ih => exact ⟨⟨ih.1.ordered, ih.1.next_le⟩, ih.2⟩
  | withSerializers _ _ ih => exact ⟨⟨ih.1.ordered, ih.1.next_le⟩, ih.2⟩
  | register _ signature handler ih => exact (hgrows ih).1 signature handler
  | merge _ _ ih _ => exact (hgrows ih).2 _

/-- What registering and merging do to the numbers in use, in any service there is. The numbers that
they issue are given to the methods that come in, all other numbers lead where they led, and every
number leads where it led, with as many methods more as come in, exactly when no number that was
issued was in use. In a service that goes back to a blank one none is. -/
theorem numbers_issued {origin : Origin} (hs : s.Obtained origin) :
    (∀ signature handler id s', s.register signature handler = .ok (id, s') →
      Issues s s' [id] ∧ (∃ m, s'.method? id = some m ∧ m.name = signature.name) ∧
        (Keeps s s' 1 ↔ s.method? id = none) ∧ (origin = .blank → Keeps s s' 1)) ∧
    ∀ other renumbering s', s.merge other = .ok (renumbering, s') →
      Issues s s' (renumbering.map Prod.snd) ∧ renumbering.length = other.methods.length ∧
        (Keeps s s' other.methods.length ↔ ∀ p ∈ renumbering, s.method? p.2 = none) ∧
          (origin = .blank → Keeps s s' other.methods.length) := by
  obtain ⟨htabled, hspare⟩ := hs.tabled
  refine ⟨fun signature handler id s' h => ?_, fun other renumbering s' h => ?_⟩
  · have hputs := puts_of_register h
    have hissues : Issues s s' [id] := hputs.issues htabled
    have hkeeps : Keeps s s' 1 ↔ s.method? id = none := by
      simpa using hissues.keeps_iff
    refine ⟨hissues, ?_, hkeeps, fun horigin => ?_⟩
    · exact ⟨_, hputs.method?_eq List.mem_cons_self, rfl⟩
    · exact hkeeps.mpr (hputs.not_in_use (hspare horigin) id List.mem_cons_self)
  · obtain ⟨hputs, hnumbers⟩ := htabled.puts_of_merge h
    have hissues := hputs.issues htabled
    have hfree := hissues.keeps_iff
    have hlength : renumbering.length = other.methods.length := by
      rw [← List.length_map Prod.snd, hnumbers, List.length_map, List.length_map, length_renumbered]
    rw [← hnumbers, List.length_map, hlength, List.forall_mem_map] at hfree
    rw [← hnumbers] at hissues
    refine ⟨hissues, hlength, hfree, fun horigin => hfree.mpr ?_⟩
    have hspare := hputs.not_in_use (hspare horigin)
    rwa [← hnumbers, List.forall_mem_map] at hspare

/-- A service with one method registers a second one or takes over the method of another service. -/
theorem numbers_issued_counter :
    let counting (method : String) := stateAfter (registering (.ofName method) .echo)
      (.new "Counter" (.loopback 8080))
    let s := counting "add"
    s.Obtained .blank ∧
      (∃ s', s.register (.ofName "reset") .echo = .ok (2, s') ∧ Keeps s s' 1) ∧
      ∃ s', s.merge (counting "read") = .ok ([(1, 2)], s') ∧ Keeps s s' 1 := by
  intro counting s
  have hs : s.Obtained .blank := .register (.new "Counter" (.loopback 8080)) (.ofName "add") .echo
  have hbuilt : s.Built := .register (.new "Counter" (.loopback 8080)) (.ofName "add") .echo
  have hmerge := @Numbered.merge_of_takes s (counting "read") hbuilt.numbered
    ⟨rfl, rfl, by decide, by decide⟩
  obtain ⟨hregistered, hmerged⟩ := numbers_issued hs
  obtain ⟨-, -, -, hone⟩ := hregistered (.ofName "reset") .echo 2 _ rfl
  obtain ⟨-, -, -, htwo⟩ := hmerged (counting "read") _ _ hmerge
  exact ⟨hs, ⟨_, rfl, hone rfl⟩, _, hmerge, htwo rfl⟩

/-- A service is read from a description of one method, number 1. The method that is registered
there gets the number 1 as well: the other one is not found any more, and there is one method as
before. -/
theorem number_issued_again :
    ∃ s s', ofInfo ⟨serviceId "echo", "echo", 1, [⟨"ping", "N/A", "N/A", 1⟩]⟩
        (.loopback 8080) .none = .ok s ∧
      s.register (.ofName "pong") .echo = .ok (1, s') ∧
      (s.method? 1).map Method.name = some "ping" ∧ (s'.method? 1).map Method.name = some "pong" ∧
      s.methods.length = 1 ∧ s'.methods.length = 1 :=
  ⟨_, _, rfl, rfl, rfl, rfl, rfl, rfl⟩

end Service

end RemoteCall
