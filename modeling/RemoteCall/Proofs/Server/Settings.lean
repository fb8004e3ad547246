import RemoteCall.Proofs.Server.Binding

/-!
# What an executor is set up with

The methods of a group share one executor, which the first of them sets up. Which one is the first
depends on the order in which the services are listed when the server starts, and a registry that
finds its services by number lists them in any order. In each service it is always the same method
of a group that comes first, the leader; so the settings of an executor are those of one of the
leaders of its group, and any leader may be the one.

## Main definitions

* `Settings` : the number of threads, the capacity, the answer to a full queue and the patience of
  idle threads.
* `leadersOf` : the first method of a group in each service.

## Main results

* `firstOf_methods` : the first method of a group leads it in the first service that has one.
* `Groups.settings_of_leader` : which settings a method is executed with, and when they are the same
  in whatever order the services are listed.
* `Groups.settings_by_order` : two services whose order decides.
-/

namespace RemoteCall

namespace Server

/-! ### Settings -/

/-- What an executor is set up with. -/
structure Settings where
  minThreads : Nat
  maxThreads : Nat
  capacity : Nat
  overflow : OverflowMode
  keepAliveMs : Nat
  deriving DecidableEq, Repr

/-- What the executor was set up with. -/
def Executor.settings (e : Executor) : Settings :=
  { minThreads := e.minThreads
    maxThreads := e.maxThreads
    capacity := e.queue.capacity
    overflow := e.mode
    keepAliveMs := e.keepAliveMs }

/-- What an executor is set up with for methods that are executed so. There is room for one call at
least. -/
def Settings.ofExecution (x : Execution) : Settings :=
  { minThreads := x.minThreads
    maxThreads := x.maxThreads
    capacity := max x.capacity 1
    overflow := x.overflow
    keepAliveMs := x.keepAliveMs }

/-- What an executor is set up with for a method. -/
def settingsOf (m : Method) : Settings :=
  .ofExecution m.execution

@[simp] theorem settings_executorOf (m : Method) : (executorOf m).settings = settingsOf m := rfl

/-! ### Leaders -/

/-- The first of the methods that have a holder, in each service that has one. -/
def leadersOf (services : List Service) (h : Holder) : List Method :=
  services.filterMap fun s => firstOf s.methods h

variable {services services' : List Service} {h : Holder} {m n : Method} {s : Service}

theorem mem_leadersOf :
    m ∈ leadersOf services h ↔ ∃ s ∈ services, firstOf s.methods h = some m :=
  List.mem_filterMap

theorem leadersOf_perm (hperm : services.Perm services') (h : Holder) :
    (leadersOf services h).Perm (leadersOf services' h) :=
  hperm.filterMap _

/-- The first method of a holder is the leader in the first service that has one. -/
theorem firstOf_methods (services : List Service) (h : Holder) :
    firstOf (services.flatMap Service.methods) h = (leadersOf services h).head? := by
  rw [firstOf, List.find?_flatMap, leadersOf, List.head?_filterMap]
  rfl

/-- A holder of some method has a leader. -/
theorem leadersOf_ne_nil (hs : s ∈ services) (hm : m ∈ s.methods) :
    leadersOf services (Holder.of m) ≠ [] := by
  have hsome : (firstOf s.methods (Holder.of m)).isSome = true :=
    List.find?_isSome.mpr ⟨m, hm, beq_self_eq_true _⟩
  obtain ⟨n, hn⟩ := Option.isSome_iff_exists.mp hsome
  exact List.ne_nil_of_mem (mem_leadersOf.mpr ⟨s, hs, hn⟩)

/-- The services can be listed so that any leader comes first. -/
theorem exists_perm_head (hm : m ∈ leadersOf services h) :
    ∃ services', services'.Perm services ∧ (leadersOf services' h).head? = some m := by
  obtain ⟨s, hs, hfirst⟩ := mem_leadersOf.mp hm
  obtain ⟨front, back, rfl⟩ := List.append_of_mem hs
  refine ⟨s :: (front ++ back), List.perm_middle.symm, ?_⟩
  simp [leadersOf, hfirst]

/-! ### Settings of methods -/

namespace Groups

variable {g : Groups} {holders : List Holder} {done : List Method} {r : Registry}

/-- What the executor of a method was set up with. -/
def settings? (g : Groups) (key : MethodKey) : Option Settings :=
  (g.executor? key).map Executor.settings

/-- A method is executed with the settings of the first method of its holder. -/
theorem Laid.settings?_eq (hg : g.Laid holders done) (hm : m ∈ done) :
    g.settings? (keyOf m) = (firstOf done (Holder.of m)).map settingsOf := by
  rw [settings?, hg.executor?_eq hm, Option.map_map]
  rfl

/-- A published method is executed with the settings of the leader of its holder in the service that
is listed first among those that have one. -/
theorem settings?_ofServices (hr : Registry.Reaches .new r) (hperm : services.Perm r.services)
    (hm : m ∈ r.methods) :
    (ofServices services).settings? (keyOf m) =
      (leadersOf services (Holder.of m)).head?.map settingsOf := by
  have hsound : r.Sound := (hr.sound Registry.sound_new).1
  have howned : ∀ s ∈ r.services, s.Owned := fun s hs => (hr.built s hs).owned
  have hmethods : (services.flatMap Service.methods).Perm r.methods := hperm.flatMap_right _
  have hkeys : ((services.flatMap Service.methods).map keyOf).Nodup :=
    (hmethods.map keyOf).nodup_iff.mpr (hsound.nodup_keys howned)
  obtain ⟨holders, hg⟩ := laid_ofMethods hkeys
  rw [ofServices, hg.settings?_eq (hmethods.mem_iff.mpr hm), firstOf_methods]

/-- A method that is not shared is its own leader, and the only one. -/
theorem eq_of_mem_leadersOf (hr : Registry.Reaches .new r) (hm : m ∈ r.methods)
    (hshared : m.execution.shared = false) (hn : n ∈ leadersOf r.services (Holder.of m)) :
    n = m := by
  have hsound : r.Sound := (hr.sound Registry.sound_new).1
  have howned : ∀ s ∈ r.services, s.Owned := fun s hs => (hr.built s hs).owned
  obtain ⟨s, hs, hfirst⟩ := mem_leadersOf.mp hn
  have hmem : n ∈ r.methods := List.mem_flatMap.mpr ⟨s, hs, List.mem_of_find?_eq_some hfirst⟩
  have hholder : Holder.of n = Holder.of m := by simpa using List.find?_some hfirst
  rcases Holder.of_eq_of_iff.mp hholder with ⟨-, -, hkey⟩ | ⟨-, hgroup, -⟩
  · exact hsound.eq_of_key howned hmem hm hkey
  · rw [hshared] at hgroup
    cases hgroup

/-- For every registry that publications lead to, and in whatever order its services are listed: a
method is executed with the settings of the leader of its group in the first service that has one,
and with its own settings if it shares no group. The settings of a method are the same in all orders
exactly when those of all leaders of its group are. -/
theorem settings_of_leader (hr : Registry.Reaches .new r) :
    (∀ services, services.Perm r.services → ∀ m ∈ r.methods,
      (∃ n, (leadersOf services (Holder.of m)).head? = some n ∧
          (ofServices services).settings? (keyOf m) = some (settingsOf n)) ∧
        (m.execution.shared = false →
          (ofServices services).settings? (keyOf m) = some (settingsOf m))) ∧
      ∀ m ∈ r.methods,
        (∀ services services', services.Perm r.services → services'.Perm r.services →
          (ofServices services).settings? (keyOf m) =
            (ofServices services').settings? (keyOf m)) ↔
          ∀ n ∈ leadersOf r.services (Holder.of m), ∀ n' ∈ leadersOf r.services (Holder.of m),
            settingsOf n = settingsOf n' := by
  have hfirst : ∀ services, services.Perm r.services → ∀ m ∈ r.methods,
      ∃ n ∈ leadersOf r.services (Holder.of m),
        (leadersOf services (Holder.of m)).head? = some n ∧
          (ofServices services).settings? (keyOf m) = some (settingsOf n) := by
    intro services hperm m hm
    have hleaders := leadersOf_perm hperm (Holder.of m)
    obtain ⟨s, hs, hms⟩ := List.mem_flatMap.mp hm
    have hne : leadersOf services (Holder.of m) ≠ [] := fun hnil =>
      leadersOf_ne_nil hs hms (List.Perm.nil_eq (hnil ▸ hleaders)).symm
    refine ⟨_, hleaders.mem_iff.mp (List.head_mem hne), List.head?_eq_some_head hne, ?_⟩
    rw [settings?_ofServices hr hperm hm, List.head?_eq_some_head hne]
    rfl
  refine ⟨fun services hperm m hm => ?_, fun m hm => ⟨fun hsame => ?_, fun hsame => ?_⟩⟩
  · obtain ⟨n, hn, hhead, hsettings⟩ := hfirst services hperm m hm
    refine ⟨⟨n, hhead, hsettings⟩, fun hshared => ?_⟩
    rw [hsettings, eq_of_mem_leadersOf hr hm hshared hn]
  · intro n hn n' hn'
    -- Each of the two leaders is the first in some order.
    obtain ⟨services, hperm, hhead⟩ := exists_perm_head hn
    obtain ⟨services', hperm', hhead'⟩ := exists_perm_head hn'
    have heq := hsame services services' hperm hperm'
    rw [settings?_ofServices hr hperm hm, settings?_ofServices hr hperm' hm, hhead, hhead'] at heq
    exact Option.some.inj heq
  · intro services services' hperm hperm'
    obtain ⟨n, hn, -, hsettings⟩ := hfirst services hperm m hm
    obtain ⟨n', hn', -, hsettings'⟩ := hfirst services' hperm' m hm
    rw [hsettings, hsettings', hsame n hn n' hn']

/-! ### Two services that share a group -/

/-- The method of a service that has just this one. -/
def onlyMethod (service method : String) (execution : Execution) : Method :=
  .ofSignature (serviceId service) 1 { Signature.ofName method with execution } (some .echo)
    .standard

/-- A service with one method, which is executed so. -/
def oneMethod (service method : String) (execution : Execution) : Service :=
  stateAfter (Service.registering { Signature.ofName method with execution } .echo)
    (.new service (.loopback 8080))

/-- A registry of two services. -/
def bothPublished (s t : Service) : Registry :=
  stateAfter (Registry.publishing t) (stateAfter (Registry.publishing s) .new)

section Both

variable (service service' method method' : String) (execution execution' : Execution)

theorem methods_oneMethod :
    (oneMethod service method execution).methods = [onlyMethod service method execution] := rfl

theorem reaches_bothPublished :
    Registry.Reaches .new (bothPublished (oneMethod service method execution)
      (oneMethod service' method' execution')) :=
  .publish (.publish .refl (.register (.new service _) _ _)) (.register (.new service' _) _ _)

variable {service service'}

theorem services_bothPublished (hid : serviceId service ≠ serviceId service') :
    (bothPublished (oneMethod service method execution)
      (oneMethod service' method' execution')).services =
      [oneMethod service method execution, oneMethod service' method' execution'] := by
  have hfirst : stateAfter (Registry.publishing (oneMethod service method execution)) .new =
      ⟨[oneMethod service method execution], false⟩ := rfl
  have hother : ((oneMethod service method execution).id ==
      (oneMethod service' method' execution').id) = false := beq_false_of_ne hid
  have hnone : Registry.service? ⟨[oneMethod service method execution], false⟩
      (oneMethod service' method' execution').id = none :=
    (List.find?_cons_of_neg (by simp [hother])).trans List.find?_nil
  rw [bothPublished, hfirst]
  simp [-bind_pure_comp, stateAfter, Registry.publishing, hnone]

theorem mem_methods_bothPublished (hid : serviceId service ≠ serviceId service') :
    onlyMethod service method execution ∈ (bothPublished (oneMethod service method execution)
      (oneMethod service' method' execution')).methods := by
  rw [Registry.methods, services_bothPublished _ _ _ _ hid, List.flatMap_cons, methods_oneMethod]
  exact List.mem_cons_self

variable {execution execution'}

/-- Each of two methods that share a group leads it in its own service. -/
theorem firstOf_bothShared (hshared : execution.shared = true) (hshared' : execution'.shared = true)
    (hgroup : execution.group = execution'.group) :
    firstOf (oneMethod service' method' execution').methods
        (Holder.of (onlyMethod service method execution)) =
      some (onlyMethod service' method' execution') := by
  have hholder : Holder.of (onlyMethod service' method' execution') =
      Holder.of (onlyMethod service method execution) :=
    Holder.of_eq_of_iff.mpr (Or.inr ⟨hshared', hshared, hgroup.symm⟩)
  simp [firstOf, methods_oneMethod, hholder]

/-- Both methods lead the group that they share, in the order of their services. -/
theorem leadersOf_bothShared (hshared : execution.shared = true)
    (hshared' : execution'.shared = true) (hgroup : execution.group = execution'.group) :
    let m := onlyMethod service method execution
    let m' := onlyMethod service' method' execution'
    let s := oneMethod service method execution
    let t := oneMethod service' method' execution'
    leadersOf [s, t] (Holder.of m) = [m, m'] ∧ leadersOf [t, s] (Holder.of m) = [m', m] := by
  intro m m' s t
  have hleader : firstOf s.methods (Holder.of m) = some m :=
    firstOf_bothShared _ _ hshared hshared rfl
  have hleader' : firstOf t.methods (Holder.of m) = some m' :=
    firstOf_bothShared _ _ hshared hshared' hgroup
  constructor
  · simp [leadersOf, hleader, hleader']
  · simp [leadersOf, hleader, hleader']

/-- When both methods share a group, the one that is listed first decides. -/
theorem settings?_bothPublished (hid : serviceId service ≠ serviceId service')
    (hshared : execution.shared = true) (hshared' : execution'.shared = true)
    (hgroup : execution.group = execution'.group) :
    let m := onlyMethod service method execution
    let s := oneMethod service method execution
    let t := oneMethod service' method' execution'
    (ofServices [s, t]).settings? (keyOf m) = some (settingsOf m) ∧
      (ofServices [t, s]).settings? (keyOf m) =
        some (settingsOf (onlyMethod service' method' execution')) := by
  intro m s t
  have hr : Registry.Reaches .new (bothPublished s t) := reaches_bothPublished _ _ _ _ _ _
  have hservices : (bothPublished s t).services = [s, t] := services_bothPublished _ _ _ _ hid
  have hm : m ∈ (bothPublished s t).methods := mem_methods_bothPublished _ _ _ _ hid
  obtain ⟨hleaders, hswapped⟩ := leadersOf_bothShared method method' hshared hshared' hgroup
  constructor
  · rw [settings?_ofServices hr (by rw [hservices]) hm, hleaders]
    rfl
  · rw [settings?_ofServices hr (by rw [hservices]; exact .swap s t []) hm, hswapped]
    rfl

/-- When both methods ask for the same, so do all leaders of their group. -/
theorem settingsOf_of_mem_leadersOf (hid : serviceId service ≠ serviceId service')
    (hshared : execution.shared = true) (hshared' : execution'.shared = true)
    (hgroup : execution.group = execution'.group)
    (hsettings : Settings.ofExecution execution' = .ofExecution execution) {n : Method}
    (hn : n ∈ leadersOf (bothPublished (oneMethod service method execution)
      (oneMethod service' method' execution')).services
        (Holder.of (onlyMethod service method execution))) :
    settingsOf n = settingsOf (onlyMethod service method execution) := by
  rw [services_bothPublished _ _ _ _ hid,
    (leadersOf_bothShared method method' hshared hshared' hgroup).1] at hn
  rcases List.mem_pair.mp hn with rfl | rfl
  · rfl
  · exact hsettings

end Both

/-- Two services whose methods share a group and ask for the same executor: the order in which they
are listed makes no difference. -/
theorem settings_of_leader_agreed :
    let asked := (Execution.pool 2 4).sharedIn "io"
    let read := onlyMethod "Disk" "read" asked
    let r := bothPublished (oneMethod "Disk" "read" asked) (oneMethod "Net" "send" asked)
    Registry.Reaches .new r ∧ read ∈ r.methods ∧
      ∀ services services', services.Perm r.services → services'.Perm r.services →
        (ofServices services).settings? (keyOf read) =
          (ofServices services').settings? (keyOf read) := by
  intro asked read r
  have hid : serviceId "Disk" ≠ serviceId "Net" := by decide +kernel
  have hr : Registry.Reaches .new r := reaches_bothPublished _ _ _ _ _ _
  have hread : read ∈ r.methods := mem_methods_bothPublished _ _ _ _ hid
  refine ⟨hr, hread, ((settings_of_leader hr).2 read hread).mpr fun n hn n' hn' => ?_⟩
  rw [settingsOf_of_mem_leadersOf "read" "send" hid rfl rfl rfl rfl hn,
    settingsOf_of_mem_leadersOf "read" "send" hid rfl rfl rfl rfl hn']

/-- Two services whose methods share a group and ask for different executors. In the order of
publication both are executed as the first one asks, in the other order as the second one does. -/
theorem settings_by_order :
    let first := (Execution.pool 2 4).sharedIn "io"
    let second := ((Execution.single.withCapacity 5).withOverflow .waterMark).sharedIn "io"
    let disk := oneMethod "Disk" "read" first
    let net := oneMethod "Net" "send" second
    Registry.Reaches .new (bothPublished disk net) ∧
      (bothPublished disk net).services = [disk, net] ∧
      (ofServices [disk, net]).settings? (serviceId "Disk", 1) =
        some ⟨2, 4, 10000, .delay, 60000⟩ ∧
      (ofServices [net, disk]).settings? (serviceId "Disk", 1) =
        some ⟨1, 1, 5, .waterMark, 60000⟩ := by
  intro first second disk net
  have hid : serviceId "Disk" ≠ serviceId "Net" := by decide +kernel
  exact ⟨reaches_bothPublished _ _ _ _ _ _, services_bothPublished _ _ _ _ hid,
    settings?_bothPublished "read" "send" hid rfl rfl rfl⟩

end Groups

end Server

end RemoteCall
