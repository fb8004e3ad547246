import RemoteCall.Proofs.Service.Reissue

/-!
# Descriptions that are accepted

A client is told by a server what methods a service has, and believes nothing that it can check: a
weight outside its bounds is refused, and so is a number that no method can have. What is not
refused is taken over method by method, in the order in which the methods are listed. The numbers
are the keys of the service that is built, so of several methods with one number only the one listed
last is there: the service is described as it was by the server exactly when no two methods have one
number.

## Main definitions

* `ServiceInfo.inOrder` : the description with its methods in the order of their numbers.

## Main results

* `Service.info_eq_inOrder_iff` : nothing is lost unless two methods have one number.
* `Service.descriptions_taken_over` : what is refused, and what becomes of everything else.
* `Service.listed_method_lost` : a description that is accepted without one of its methods.
-/

namespace RemoteCall

/-- The description with its methods in the order of their numbers. -/
def ServiceInfo.inOrder (info : ServiceInfo) : ServiceInfo :=
  { info with methods := info.methods.mergeSort fun m n => m.id ≤ n.id }

/-- The method that a description lists last under a number. -/
def ServiceInfo.lastUnder? (info : ServiceInfo) (i : MethodId) : Option MethodInfo :=
  info.methods.reverse.find? fun m => m.id == i

/-- Methods that are listed under different numbers are the last under them. -/
theorem ServiceInfo.lastUnder?_eq_some_iff {info : ServiceInfo}
    (h : (info.methods.map MethodInfo.id).Nodup) {i : MethodId} {m : MethodInfo} :
    info.lastUnder? i = some m ↔ m ∈ info.methods ∧ m.id = i := by
  rw [lastUnder?, find?_eq_some_iff_of_nodup, List.mem_reverse]
  rwa [List.map_reverse, List.nodup_reverse]

/-- Sorting methods with different numbers puts them in the order of the numbers. -/
theorem ServiceInfo.keyOrdered_inOrder {info : ServiceInfo}
    (h : (info.methods.map MethodInfo.id).Nodup) :
    KeyOrdered MethodInfo.id info.inOrder.methods := by
  have hsorted : info.inOrder.methods.Pairwise fun m n => decide (m.id ≤ n.id) = true := by
    refine List.pairwise_mergeSort (fun a b c hab hbc => ?_) (fun a b => ?_) info.methods
    · exact decide_eq_true (Std.le_trans (of_decide_eq_true hab) (of_decide_eq_true hbc))
    · rw [Bool.or_eq_true, decide_eq_true_iff, decide_eq_true_iff]
      exact Std.le_total
  have hdistinct : (info.inOrder.methods.map MethodInfo.id).Nodup :=
    ((List.mergeSort_perm info.methods _).map MethodInfo.id).nodup_iff.mpr h
  refine (hsorted.and (List.pairwise_map.mp hdistinct)).imp fun hmn => ?_
  exact Std.lt_of_le_of_ne (of_decide_eq_true hmn.1) hmn.2

namespace Service

variable {s : Service} {info : ServiceInfo} {address : SocketAddress} {serializers : Serializers}

/-- The service is what a description comes to: of its number, name and weight, with methods in the
order of their numbers that the description lists and that have no handler. Under each number stands
the method that is listed last under it. -/
structure Reads (s : Service) (info : ServiceInfo) (address : SocketAddress)
    (serializers : Serializers) : Prop where
  id : s.id = info.id
  name : s.name = info.name
  weight : s.weight.val = info.weight
  address : s.address = address
  ordered : KeyOrdered MethodInfo.id s.info.methods
  found : ∀ i, (s.method? i).map Method.info = info.lastUnder? i
  methods : ∀ m ∈ s.methods, m.info ∈ info.methods ∧ m = .ofInfo info.id m.info serializers

/-- The methods of a service are described under different numbers. -/
theorem Reads.nodup (h : s.Reads info address serializers) :
    (s.info.methods.map MethodInfo.id).Nodup :=
  h.ordered.nodup

/-- What stands under a number is what the service describes under it. -/
theorem Reads.mem_iff (h : s.Reads info address serializers) {m : MethodInfo} :
    m ∈ s.info.methods ↔ info.lastUnder? m.id = some m := by
  have hfound : (s.info.methods.find? fun n => n.id == m.id) = info.lastUnder? m.id := by
    rw [← h.found, Service.info, List.find?_map]
    rfl
  rw [← hfound, h.ordered.find?_eq_some_iff, and_iff_left rfl]

/-- Nothing is lost unless two methods have one number. -/
theorem Reads.info_eq_inOrder_iff (h : s.Reads info address serializers) :
    s.info = info.inOrder ↔ (info.methods.map MethodInfo.id).Nodup := by
  have hperm : info.inOrder.methods.Perm info.methods := List.mergeSort_perm _ _
  constructor
  · intro heq
    have hnodup := h.nodup
    rw [heq] at hnodup
    exact (hperm.map MethodInfo.id).nodup_iff.mp hnodup
  · intro hnodup
    have hmethods : s.info.methods.Perm info.inOrder.methods := by
      refine (List.perm_ext_iff_of_nodup (List.Nodup.of_map _ h.nodup)
        (hperm.nodup_iff.mpr (List.Nodup.of_map _ hnodup))).mpr fun m => ?_
      rw [h.mem_iff, ServiceInfo.lastUnder?_eq_some_iff hnodup, and_iff_left rfl, hperm.mem_iff]
    have hsame : s.info.methods = info.inOrder.methods := by
      refine List.Perm.eq_of_pairwise (fun m n _ _ hmn hnm => ?_) h.ordered
        (ServiceInfo.keyOrdered_inOrder hnodup) hmethods
      exact absurd (Std.lt_trans hmn hnm) Std.lt_irrefl
    calc s.info = ⟨s.id, s.name, s.weight.val, s.info.methods⟩ := rfl
      _ = info.inOrder := by rw [h.id, h.name, h.weight, hsame]; rfl

/-- An accepted description is read. -/
theorem reads_of_ofInfo (h : ofInfo info address serializers = .ok s) :
    s.Reads info address serializers := by
  obtain ⟨⟨weight, hweight⟩, hids⟩ := bounds_of_ofInfo h
  rw [ofInfo_eq hweight hids] at h
  cases h
  refine ⟨rfl, rfl, hweight.symm, rfl, ?_, fun i => ?_, fun m hm => ?_⟩
  · exact List.pairwise_map.mpr (keyOrdered_foldl_insertMethod List.Pairwise.nil _)
  · have hdescribed : (Method.info ∘ fun m => Method.ofInfo info.id m serializers) =
        fun m => m := rfl
    rw [method?, find?_foldl_insertMethod_last, List.find?_nil, Option.or_none, ← List.map_reverse,
      List.find?_map, Option.map_map, hdescribed, Option.map_id_fun']
    rfl
  · rcases mem_of_mem_foldl_insertMethod hm with hm | hm
    · obtain ⟨n, hn, rfl⟩ := List.mem_map.mp hm
      exact ⟨hn, rfl⟩
    · cases hm

/-- For every description, well formed or not: it is refused for its weight or for the first of its
methods whose number no method can have, if there is such, and for nothing else. A description that
is not refused is read. The service is then described as the description has it, with the methods in
the order of their numbers, and each listed method stands under its number, exactly when no two
methods are listed under one number. -/
theorem descriptions_taken_over (info : ServiceInfo) (address : SocketAddress)
    (serializers : Serializers) :
    match ofInfo info address serializers with
    | .error e => info.refusal? = some e
    | .ok s =>
      info.refusal? = none ∧ s.Reads info address serializers ∧
        ((info.methods.map MethodInfo.id).Nodup ↔
          s.info = info.inOrder ∧
            ∀ m ∈ info.methods, (s.method? m.id).map Method.info = some m) := by
  cases hrefusal : info.refusal? with
  | some e => rw [ofInfo_eq_error hrefusal]
  | none =>
    obtain ⟨⟨weight, hweight⟩, hids⟩ := refusal?_eq_none_iff.mp hrefusal
    have hofInfo := ofInfo_eq hweight hids address serializers
    have hreads := reads_of_ofInfo hofInfo
    rw [hofInfo]
    refine ⟨rfl, hreads, fun hnodup => ?_, fun h => hreads.info_eq_inOrder_iff.mp h.1⟩
    refine ⟨hreads.info_eq_inOrder_iff.mpr hnodup, fun m hm => ?_⟩
    rw [hreads.found]
    exact (ServiceInfo.lastUnder?_eq_some_iff hnodup).mpr ⟨hm, rfl⟩

/-- Two methods are listed under one number. The description is accepted, the first of them is found
neither under its number nor under its name, and the service is described with the other one
only. -/
theorem listed_method_lost :
    let ping : MethodInfo := ⟨"ping", "string", "string", 1⟩
    let pong : MethodInfo := ⟨"pong", "string", "string", 1⟩
    let info : ServiceInfo := ⟨serviceId "echo", "echo", 1, [ping, pong]⟩
    ∃ s, ofInfo info (.loopback 9000) .standard = .ok s ∧
      s.info = { info with methods := [pong] } ∧ s.info ≠ info.inOrder ∧
      (s.method? 1).map Method.name = some "pong" ∧ (s.methodNamed? "ping").isNone = true := by
  intro ping pong info
  refine ⟨_, rfl, rfl, ?_, rfl, rfl⟩
  show ({ info with methods := [pong] } : ServiceInfo) ≠ info.inOrder
  intro h
  have hlength := congrArg (fun info => info.methods.length) h
  simp [ServiceInfo.inOrder, info] at hlength

end Service

end RemoteCall
