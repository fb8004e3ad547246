import RemoteCall.Proofs.Compact
import RemoteCall.Proofs.Service.Numbers

/-!
# Descriptions of services

A server describes a service to its clients: number, name and weight, and of each method the name,
the number and the declared types. A client builds a service of its own from the description. What
it then finds under the name of a method is what the server has under this name, since a service
that was built by registering and merging has its methods under different names and under numbers
that a client accepts, and since the types that both sides know select the serializers.

## Main definitions

* `Service.BuiltByType` : the services whose methods have the serializers of their declared types.
* `Method.Agrees` : client and server call a method in the same way.

## Main results

* `ServiceInfo.run_reader` : a description is read back, whatever follows it.
* `Service.Numbered.ofInfo_info` : the service that a client builds from a description.
* `Service.description_agrees` : client and server agree on a service.
-/

namespace RemoteCall

/-! ### Descriptions in the compact format -/

namespace MethodInfo

/-- The length of each text fits 64 bits. -/
def Fits (m : MethodInfo) : Prop :=
  ∀ t ∈ [m.name, m.parameterType, m.returnType], (Utf8.encode t).length < UInt64.size

/-- A method is read back, whatever follows it. -/
theorem run_reader {m : MethodInfo} (h : m.Fits) (rest : Bytes) :
    reader.run (m.encode ++ rest) = .ok (m, rest) := by
  have hname := h m.name (by simp)
  have hparameter := h m.parameterType (by simp)
  have hreturn := h m.returnType (by simp)
  simp only [encode, reader, List.append_assoc]
  rw [Compact.run_bind (Compact.run_readText _ _ hname),
    Compact.run_bind (Compact.run_readText _ _ hparameter),
    Compact.run_bind (Compact.run_readText _ _ hreturn)]
  exact Compact.run_bind (Compact.run_readByte m.id rest)

theorem isLocal_reader : Compact.IsLocal reader :=
  Compact.isLocal_readText.bind fun _ => Compact.isLocal_readText.bind fun _ =>
    Compact.isLocal_readText.bind fun _ => Compact.isLocal_readByte.bind fun _ =>
      Compact.isLocal_pure _

end MethodInfo

namespace ServiceInfo

/-- The length of each text fits 64 bits, and so does the number of methods. -/
structure Fits (s : ServiceInfo) : Prop where
  name : (Utf8.encode s.name).length < UInt64.size
  methods : ∀ m ∈ s.methods, m.Fits
  count : s.methods.length < UInt64.size

/-- A description is read back, whatever follows it. -/
theorem run_reader {s : ServiceInfo} (h : s.Fits) (rest : Bytes) :
    reader.run (s.encode ++ rest) = .ok (s, rest) := by
  have hmethods := Compact.run_readList (fun m hm => MethodInfo.run_reader (h.methods m hm)) h.count
  simp only [encode, reader, List.append_assoc]
  rw [Compact.run_bind (Compact.run_readWord _ s.id.toNat_lt),
    Compact.run_bind (Compact.run_readText _ _ h.name), List.singleton_append,
    Compact.run_bind (Compact.run_readByte s.weight _), Compact.run_bind (hmethods rest),
    UInt32.ofNat_toNat]
  rfl

theorem isLocal_reader : Compact.IsLocal reader :=
  (Compact.isLocal_readVarint 15 5).bind fun _ => Compact.isLocal_readText.bind fun _ =>
    Compact.isLocal_readByte.bind fun _ => MethodInfo.isLocal_reader.readList.bind fun _ =>
      Compact.isLocal_pure _

end ServiceInfo

/-! ### Services from descriptions -/

/-- A method as a client has it from a description: under the same number, with the same declared
types and the same serializers. -/
structure Method.Agrees (published learned : Method) : Prop where
  service : learned.service = published.service
  id : learned.id = published.id
  name : learned.name = published.name
  parameterType : learned.parameterType = published.parameterType
  returnType : learned.returnType = published.returnType
  parameterSerializer : learned.parameterSerializer = published.parameterSerializer
  returnSerializer : learned.returnSerializer = published.returnSerializer

/-- The serializers of the method are those of its declared types. -/
structure Method.IsByType (m : Method) (serializers : Serializers) : Prop where
  parameterSerializer : m.parameterSerializer = serializers.resolve m.parameterType
  returnSerializer : m.returnSerializer = serializers.resolve m.returnType

/-- The number is one that a method can have. -/
abbrev MethodInfo.IsNumbered (m : MethodInfo) : Prop :=
  1 ≤ m.id.toNat ∧ m.id.toNat ≤ maxMethodId

/-- Why the number of a method is refused. -/
def MethodInfo.refusal (m : MethodInfo) : Refusal :=
  .methodNumber m.name m.id

/-- Why a description is refused, if it is: for its weight, or else for the first of its methods
with a number that no method can have. -/
def ServiceInfo.refusal? (info : ServiceInfo) : Option Refusal :=
  match Weight.ofByte info.weight with
  | .error e => some e
  | .ok _ => (info.methods.find? fun m => !decide m.IsNumbered).map MethodInfo.refusal

/-- The declared types select the serializers. -/
structure Signature.IsByType (s : Signature) : Prop where
  parameterSerializer : s.parameterSerializer = none
  returnSerializer : s.returnSerializer = none

namespace Service

variable {s s' other : Service} {m : Method}

/-- Descriptions whose weight is one and whose methods have numbers that a method can have are
accepted. -/
theorem ofInfo_eq {info : ServiceInfo} {weight : Weight} (hweight : info.weight = weight.val)
    (hids : ∀ m ∈ info.methods, 1 ≤ m.id.toNat ∧ m.id.toNat ≤ maxMethodId)
    (address : SocketAddress) (serializers : Serializers) :
    ofInfo info address serializers =
      .ok { id := info.id, name := info.name, address, endpoint := none, weight,
            ioThreads := none, ids := .fresh, serializers,
            methods := (info.methods.map fun m => Method.ofInfo info.id m serializers).foldl
              (fun methods m => insertMethod m methods) [] } := by
  have hadd (infos : List MethodInfo) (methods : List Method)
      (h : ∀ m ∈ infos, 1 ≤ m.id.toNat ∧ m.id.toNat ≤ maxMethodId) :
      infos.foldlM (fun methods (m : MethodInfo) =>
          if 1 ≤ m.id.toNat ∧ m.id.toNat ≤ maxMethodId then
            .ok (insertMethod (.ofInfo info.id m serializers) methods)
          else .error (.methodNumber m.name m.id)) methods =
        (.ok ((infos.map fun m => Method.ofInfo info.id m serializers).foldl
          (fun methods m => insertMethod m methods) methods) : Except Refusal (List Method)) := by
    induction infos generalizing methods with
    | nil => rfl
    | cons m infos ih =>
      rw [List.foldlM_cons, if_pos (h m List.mem_cons_self)]
      exact ih _ fun n hn => h n (List.mem_cons_of_mem m hn)
  rw [ofInfo, hweight, Weight.ofByte_val]
  dsimp only [bind, Except.bind]
  rw [hadd info.methods [] hids]
  rfl

/-- A description with something to refuse is refused for it. -/
theorem ofInfo_eq_error {info : ServiceInfo} {e : Refusal} (h : info.refusal? = some e)
    (address : SocketAddress) (serializers : Serializers) :
    ofInfo info address serializers = .error e := by
  have hadd (infos : List MethodInfo) (methods : List Method)
      (h : (infos.find? fun m => !decide m.IsNumbered).map MethodInfo.refusal = some e) :
      infos.foldlM (fun methods (m : MethodInfo) =>
        if 1 ≤ m.id.toNat ∧ m.id.toNat ≤ maxMethodId then
          .ok (insertMethod (.ofInfo info.id m serializers) methods)
        else .error (.methodNumber m.name m.id)) methods =
          (.error e : Except Refusal (List Method)) := by
    induction infos generalizing methods with
    | nil => cases h
    | cons m infos ih =>
      rw [List.foldlM_cons]
      by_cases hm : m.IsNumbered
      · rw [List.find?_cons_of_neg (by simp [hm])] at h
        rw [if_pos hm]
        exact ih _ h
      · rw [List.find?_cons_of_pos (by simp [hm])] at h
        cases h
        rw [if_neg hm]
        rfl
  rw [ServiceInfo.refusal?] at h
  rw [ofInfo]
  cases hweight : Weight.ofByte info.weight with
  | error e' =>
    rw [hweight] at h
    cases h
    rfl
  | ok weight =>
    rw [hweight] at h
    dsimp only [bind, Except.bind]
    rw [hadd info.methods [] h]

/-- A description in which there is nothing to refuse. -/
theorem refusal?_eq_none_iff {info : ServiceInfo} :
    info.refusal? = none ↔
      (∃ weight : Weight, info.weight = weight.val) ∧ ∀ m ∈ info.methods, m.IsNumbered := by
  have hmethods : (info.methods.find? fun m => !decide m.IsNumbered).map MethodInfo.refusal = none ↔
      ∀ m ∈ info.methods, m.IsNumbered := by
    simp [List.find?_eq_none, MethodInfo.IsNumbered, Nat.one_le_iff_ne_zero]
  rw [ServiceInfo.refusal?]
  by_cases hweight : 1 ≤ info.weight ∧ info.weight ≤ 10
  · rw [Weight.ofByte, dif_pos hweight]
    exact hmethods.trans (and_iff_right ⟨⟨info.weight, hweight.1, hweight.2⟩, rfl⟩).symm
  · rw [Weight.ofByte, dif_neg hweight]
    refine iff_of_false (fun hnone => ?_) fun h => hweight ?_
    · cases hnone
    · obtain ⟨⟨weight, hval⟩, -⟩ := h
      rw [hval]
      exact ⟨weight.one_le, weight.le_ten⟩

/-- No other description is accepted. -/
theorem bounds_of_ofInfo {info : ServiceInfo} {address : SocketAddress} {serializers : Serializers}
    (h : ofInfo info address serializers = .ok s) :
    (∃ weight : Weight, info.weight = weight.val) ∧
      ∀ m ∈ info.methods, 1 ≤ m.id.toNat ∧ m.id.toNat ≤ maxMethodId := by
  refine refusal?_eq_none_iff.mp (Option.eq_none_iff_forall_ne_some.mpr fun e he => ?_)
  rw [ofInfo_eq_error he] at h
  cases h

/-- The service that a client builds from the description of a numbered service has the methods of
that service in their order. -/
theorem Numbered.ofInfo_info (hs : s.Numbered) (address : SocketAddress)
    (serializers : Serializers) :
    ofInfo s.info address serializers =
      .ok { id := s.id, name := s.name, address, endpoint := none, weight := s.weight,
            ioThreads := none, ids := .fresh, serializers,
            methods := s.methods.map fun m => Method.ofInfo s.id m.info serializers } := by
  have hids (m : MethodInfo) (hm : m ∈ s.info.methods) :
      1 ≤ m.id.toNat ∧ m.id.toNat ≤ maxMethodId := by
    obtain ⟨n, hn, rfl⟩ := List.mem_map.mp hm
    exact hs.number_bounds hn
  have hordered : KeyOrdered Method.id
      (s.methods.map fun m => Method.ofInfo s.id m.info serializers) :=
    List.pairwise_map.mpr hs.numbers.keyOrdered
  have hmethods : (s.info.methods.map fun m => Method.ofInfo s.info.id m serializers) =
      s.methods.map fun m => Method.ofInfo s.id m.info serializers := List.map_map
  rw [ofInfo_eq rfl hids, hmethods, foldl_insertMethod (by rwa [List.nil_append]),
    List.nil_append]
  rfl

/-- The services that are built from a blank one by settings, registrations and merges, refused or
not, with the standard serializers: each method has those of its declared types. -/
inductive BuiltByType : Service → Prop where
  | new (name : String) (address : SocketAddress) : BuiltByType (new name address)
  | withEndpoint {s : Service} (hs : BuiltByType s) (endpoint : String) :
      BuiltByType (s.withEndpoint endpoint)
  | withWeight {s : Service} (hs : BuiltByType s) (weight : Weight) :
      BuiltByType (s.withWeight weight)
  | withIoThreads {s : Service} (hs : BuiltByType s) (count : Nat) :
      BuiltByType (s.withIoThreads count)
  | register {s : Service} (hs : BuiltByType s) {signature : Signature} (h : signature.IsByType)
      (handler : Handler) : BuiltByType (stateAfter (registering signature handler) s)
  | merge {s other : Service} (hs : BuiltByType s) (ho : BuiltByType other) :
      BuiltByType (stateAfter (merging other) s)

theorem BuiltByType.built (h : s.BuiltByType) : s.Built := by
  induction h with
  | new name address => exact .new name address
  | withEndpoint hs endpoint ih => exact .withEndpoint ih endpoint
  | withWeight hs weight ih => exact .withWeight ih weight
  | withIoThreads hs count ih => exact .withIoThreads ih count
  | register hs h handler ih => exact .register ih _ handler
  | merge hs ho ih iho => exact .merge ih iho

/-- All methods of the service carry its number and have the standard serializers of their declared
types, and so will those that are registered. -/
structure IsByType (s : Service) : Prop where
  serializers : s.serializers = .standard
  service : ∀ m ∈ s.methods, m.service = s.id
  methods : ∀ m ∈ s.methods, m.IsByType .standard

theorem IsByType.register (hs : s.IsByType) {signature : Signature}
    (hsignature : signature.IsByType) {handler : Handler} {id : MethodId}
    (h : s.register signature handler = .ok (id, s')) : s'.IsByType := by
  obtain ⟨ids, rfl⟩ : ∃ ids, s' = { s with
      ids, methods := insertMethod (.ofSignature s.id id signature (some handler) s.serializers)
        s.methods } := by
    rw [Service.register] at h
    split at h
    · cases h
    · cases htake : s.ids.take with
      | error e =>
        rw [htake] at h
        cases h
      | ok taken =>
        rw [htake] at h
        cases h
        exact ⟨_, rfl⟩
  have hmem (m : Method) (hm : m ∈ insertMethod (.ofSignature s.id id signature (some handler)
      s.serializers) s.methods) :
      m = .ofSignature s.id id signature (some handler) s.serializers ∨ m ∈ s.methods := by
    rw [insertMethod_eq] at hm
    exact mem_of_mem_insertByKey hm
  refine ⟨hs.serializers, fun m hm => ?_, fun m hm => ?_⟩
  · rcases hmem m hm with rfl | hm
    · rfl
    · exact hs.service m hm
  · rcases hmem m hm with rfl | hm
    · constructor
      · rw [Method.ofSignature, hsignature.parameterSerializer, hs.serializers, Option.getD_none]
      · rw [Method.ofSignature, hsignature.returnSerializer, hs.serializers, Option.getD_none]
    · exact hs.methods m hm

theorem IsByType.merge (hs : s.IsByType) (hnumbered : s.Numbered) (ho : other.IsByType)
    {renumbering : Renumbering} (h : s.merge other = .ok (renumbering, s')) : s'.IsByType := by
  have htakes := hnumbered.merge_ok_iff.mp ⟨_, h⟩
  rw [hnumbered.merge_of_takes htakes] at h
  cases h
  have hmem (m : Method) (hm : m ∈ s.methods ++
      (renumbered (s.methods.length + 1) other.methods).map Prod.snd) :
      m ∈ s.methods ∨ ∃ n ∈ other.methods, m = { n with id := m.id } := by
    refine (List.mem_append.mp hm).imp_right fun hm => ?_
    obtain ⟨r, hr, rfl⟩ := List.mem_map.mp hm
    obtain ⟨n, hn, -, heq⟩ := eq_of_mem_renumbered hr
    exact ⟨n, hn, heq⟩
  refine ⟨hs.serializers, fun m hm => ?_, fun m hm => ?_⟩
  · rcases hmem m hm with hm | ⟨n, hn, heq⟩
    · exact hs.service m hm
    · rw [heq]
      exact (ho.service n hn).trans htakes.id
  · rcases hmem m hm with hm | ⟨n, hn, heq⟩
    · exact hs.methods m hm
    · rw [heq]
      exact ⟨(ho.methods n hn).parameterSerializer, (ho.methods n hn).returnSerializer⟩

theorem BuiltByType.isByType (h : s.BuiltByType) : s.IsByType := by
  induction h with
  | new name address =>
    exact ⟨rfl, fun _ hm => absurd hm List.not_mem_nil, fun _ hm => absurd hm List.not_mem_nil⟩
  | withEndpoint hs endpoint ih => exact { ih with }
  | withWeight hs weight ih => exact { ih with }
  | withIoThreads hs count ih => exact { ih with }
  | register hs h handler ih =>
    rw [registering_eq]
    exact stateAfter_atomically ih fun id s' hregister => ih.register h hregister
  | merge hs ho ih iho =>
    rw [merging_eq]
    exact stateAfter_atomically ih fun renumbering s' hmerge =>
      ih.merge hs.built.numbered iho hmerge

/-- A client that knows the standard serializers has the method as the server has it. -/
theorem IsByType.agrees (hs : s.IsByType) (hm : m ∈ s.methods) :
    m.Agrees (.ofInfo s.id m.info .standard) where
  service := (hs.service m hm).symm
  id := rfl
  name := rfl
  parameterType := rfl
  returnType := rfl
  parameterSerializer := (hs.methods m hm).parameterSerializer.symm
  returnSerializer := (hs.methods m hm).returnSerializer.symm

/-- The names and the types in the description of a service. -/
def texts (s : Service) : List String :=
  s.name :: s.methods.flatMap fun m => [m.name, m.parameterType, m.returnType]

/-- A description of numbered methods fits when its texts do. -/
theorem Numbered.fits_info (hs : s.Numbered)
    (h : ∀ t ∈ s.texts, (Utf8.encode t).length < UInt64.size) : s.info.Fits where
  name := h s.name List.mem_cons_self
  methods _ hinfo t ht := by
    obtain ⟨m, hm, rfl⟩ := List.mem_map.mp hinfo
    exact h t (List.mem_cons_of_mem s.name (List.mem_flatMap.mpr ⟨m, hm, ht⟩))
  count := by
    have hroom := hs.room
    rw [info, List.length_map]
    exact Nat.lt_of_le_of_lt hroom (by decide)

/-- For every service that is built with the standard serializers by settings, registrations and
merges, and whose texts are of a length that fits 64 bits: its description is read back from its
bytes, whatever follows them, and not when they break off. A client at any address builds from it a
service of the same number, name and weight, which has under each name the method that the server
has under it, and none where the server has none. -/
theorem description_agrees (hs : s.BuiltByType)
    (htexts : ∀ t ∈ s.texts, (Utf8.encode t).length < UInt64.size) :
    (∀ rest, ServiceInfo.decode (s.info.encode ++ rest) = .ok s.info) ∧
    (∀ front, front <+: s.info.encode → front ≠ s.info.encode →
      ∃ e, ServiceInfo.decode front = .error e) ∧
    ∀ address, ∃ learned, ofInfo s.info address .standard = .ok learned ∧
      learned.id = s.id ∧ learned.name = s.name ∧ learned.weight = s.weight ∧
      ∀ name, Option.Rel Method.Agrees (s.methodNamed? name) (learned.methodNamed? name) := by
  have hnumbered := hs.built.numbered
  have hfits := hnumbered.fits_info htexts
  refine ⟨fun rest => ?_, fun front hfront hne => ?_, fun address => ?_⟩
  · rw [ServiceInfo.decode, Compact.decode, ServiceInfo.run_reader hfits]
    rfl
  · have hread := ServiceInfo.run_reader hfits []
    rw [List.append_nil] at hread
    exact ServiceInfo.isLocal_reader.decode_of_prefix hread hfront hne
  · refine ⟨_, hnumbered.ofInfo_info address .standard, rfl, rfl, rfl, fun name => ?_⟩
    have hfind : ((s.methods.map fun m => Method.ofInfo s.id m.info .standard).find?
        fun m => m.name == name) =
          (s.methodNamed? name).map fun m => Method.ofInfo s.id m.info .standard :=
      List.find?_map
    show Option.Rel _ _ (List.find? _ _)
    rw [hfind]
    cases hname : s.methodNamed? name with
    | none => exact .none
    | some m => exact .some (hs.isByType.agrees (List.mem_of_find?_eq_some hname))

/-- A service of two methods, of which the second takes a number and gives none. -/
theorem description_agrees_counter :
    let reading : Signature := { Signature.ofName "read" with returnType := "long" }
    let adding : Signature := { Signature.ofName "add" with parameterType := "long" }
    let s := stateAfter (registering adding .echo) (stateAfter (registering reading .echo)
      ((Service.new "Counter" (.loopback 8080)).withWeight ⟨3, by decide, by decide⟩))
    s.BuiltByType ∧ (∀ t ∈ s.texts, (Utf8.encode t).length < UInt64.size) ∧
      (s.methodNamed? "add").map Method.id = some 2 ∧
      ServiceInfo.decode (s.info.encode ++ [0xff]) = .ok s.info ∧
      ∃ learned, ofInfo s.info (.loopback 9090) .standard = .ok learned ∧
        Option.Rel Method.Agrees (s.methodNamed? "add") (learned.methodNamed? "add") := by
  intro reading adding s
  have hs : s.BuiltByType :=
    .register (.register (.withWeight (.new "Counter" (.loopback 8080)) _) ⟨rfl, rfl⟩ .echo)
      ⟨rfl, rfl⟩ .echo
  have htexts : s.texts = ["Counter", "read", "N/A", "long", "add", "long", "N/A"] := rfl
  have hfits : ∀ t ∈ s.texts, (Utf8.encode t).length < UInt64.size := by
    rw [htexts]
    decide
  obtain ⟨hread, -, hlearned⟩ := description_agrees hs hfits
  obtain ⟨learned, hofInfo, -, -, -, hmethods⟩ := hlearned (.loopback 9090)
  exact ⟨hs, hfits, rfl, hread [0xff], learned, hofInfo, hmethods "add"⟩

end Service

end RemoteCall
