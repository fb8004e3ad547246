import Mathlib.Data.List.TakeWhile
import RemoteCall.Proofs.KeyOrder
import RemoteCall.Proofs.Service.Publication
import RemoteCall.Server.Start

/-!
# What a failed start has announced

A server that starts listens on its addresses in order and announces the services of each as soon
as it listens there. A later failure takes nothing back: the directory is left with everything that
had been announced by then.

The order of the addresses is their own. The services at one address are announced in the order in
which the registry lists them, which may be any: what is due up to an address does not depend on it,
but what was announced there before a failure does.

## Main definitions

* `Announcement` : what a server tells a directory about one service.
* `Startup.plan` : the announcements that are due for the addresses that are listened on.
* `Startup.Progress` : how far a start has come, and what it has announced.

## Main results

* `Registry.addressesOf_perm` : the addresses do not depend on the order of the services.
* `Directory.resolve_publish` : what is found after an announcement.
* `Startup.serve_spec` : a start goes through the addresses as far as it comes.
* `Startup.announced_before_failure` : the directory that a failed start leaves.
-/

namespace RemoteCall

/-! ### Addresses of services -/

namespace Registry

variable {listed services : List Service}

theorem mem_insertAddress {a b : SocketAddress} {addresses : List SocketAddress} :
    b ∈ insertAddress a addresses ↔ b = a ∨ b ∈ addresses := by
  induction addresses with
  | nil => exact List.mem_singleton.trans (or_iff_left List.not_mem_nil).symm
  | cons c addresses ih =>
    rw [insertAddress]
    split
    · rename_i hac
      subst hac
      simp
    · split
      · exact List.mem_cons
      · rw [List.mem_cons, ih, List.mem_cons, or_left_comm]

/-- The addresses that are collected are in their order, and are those of the services. -/
theorem addressesOf_spec (services : List Service) :
    KeyOrdered SocketAddress.orderKey (addressesOf services) ∧
      ∀ a, a ∈ addressesOf services ↔ ∃ s ∈ services, s.address = a := by
  have hfold (addresses : List SocketAddress)
      (hordered : KeyOrdered SocketAddress.orderKey addresses) :
      let collected := services.foldl (fun as s => insertAddress s.address as) addresses
      KeyOrdered SocketAddress.orderKey collected ∧
        ∀ a, a ∈ collected ↔ a ∈ addresses ∨ ∃ s ∈ services, s.address = a := by
    induction services generalizing addresses with
    | nil => exact ⟨hordered, by simp⟩
    | cons s services ih =>
      obtain ⟨hcollected, hmem⟩ := ih (insertAddress s.address addresses)
        (insertAddress_eq s.address addresses ▸ hordered.insertByKey s.address)
      refine ⟨hcollected, fun a => (hmem a).trans ?_⟩
      rw [mem_insertAddress, or_assoc, or_left_comm, eq_comm]
      simp only [List.mem_cons, exists_eq_or_imp]
  obtain ⟨hordered, hmem⟩ := hfold [] .nil
  exact ⟨hordered, fun a => (hmem a).trans (or_iff_right List.not_mem_nil)⟩

/-- In whatever order services are listed, their addresses are the same. -/
theorem addressesOf_perm (h : listed.Perm services) :
    addressesOf listed = addressesOf services := by
  obtain ⟨hordered, hmem⟩ := addressesOf_spec listed
  obtain ⟨hordered', hmem'⟩ := addressesOf_spec services
  refine hordered.eq_of_mem_iff hordered' fun a => ?_
  rw [hmem, hmem']
  simp only [h.mem_iff]

theorem map_fst_groupByAddress (services : List Service) :
    (groupByAddress services).map Prod.fst = addressesOf services := by
  rw [groupByAddress, List.map_map]
  exact List.map_id _

end Registry

/-! ### Directories -/

namespace Directory

variable {d : Directory} {endpoint service endpoint' service' : String}

theorem Entry.isFor_iff {e : Entry} :
    e.isFor endpoint service = true ↔ e.endpoint = endpoint ∧ e.service = service := by
  simp [Entry.isFor]

/-- The entry that is found is the one of the endpoint and the service. -/
theorem isFor_of_found {e : Entry} (he : d.entry? endpoint service = some e) :
    e.endpoint = endpoint ∧ e.service = service := by
  rw [Directory.entry?] at he
  have hfor : e.isFor endpoint service = true := by simpa using List.find?_some he
  exact Entry.isFor_iff.mp hfor

/-- A change of what an entry holds. -/
def Entry.Keeps (f : Entry → Entry) : Prop :=
  ∀ e, (f e).endpoint = e.endpoint ∧ (f e).service = e.service

theorem Entry.Keeps.isFor {f : Entry → Entry} (hf : Entry.Keeps f) (e : Entry) :
    (f e).isFor endpoint service = e.isFor endpoint service := by
  rw [Entry.isFor, Entry.isFor, (hf e).1, (hf e).2]

/-- A change of one entry. -/
theorem entry?_modify {f : Entry → Entry} (hf : Entry.Keeps f) :
    Directory.entry? (d.modify endpoint service f) endpoint' service' =
      if endpoint = endpoint' ∧ service = service' then (d.entry? endpoint service).map f
      else d.entry? endpoint' service' := by
  have hkeep (e : Entry) : (if e.isFor endpoint service then f e else e).isFor endpoint' service' =
      e.isFor endpoint' service' := by
    split
    · exact hf.isFor e
    · rfl
  rw [modify, Directory.entry?, List.find?_map, Function.comp_def]
  simp only [hkeep]
  split
  · rename_i hsame
    obtain ⟨rfl, rfl⟩ := hsame
    refine Option.map_congr fun e he => ?_
    exact if_pos (Entry.isFor_iff.mpr (isFor_of_found he))
  · rename_i hother
    refine (Option.map_congr fun e he => ?_).trans Option.map_id'
    refine if_neg fun h => hother ?_
    obtain ⟨hendpoint, hservice⟩ := Entry.isFor_iff.mp h
    obtain ⟨hendpoint', hservice'⟩ := isFor_of_found he
    exact ⟨hendpoint.symm.trans hendpoint', hservice.symm.trans hservice'⟩

theorem resolve_modify {f : Entry → Entry} (hf : Entry.Keeps f)
    (haddresses : ∀ e, (f e).addresses = e.addresses) :
    (d.modify endpoint service f).resolve endpoint' service' = d.resolve endpoint' service' := by
  rw [resolve, entry?_modify hf, resolve]
  split
  · rename_i hsame
    obtain ⟨rfl, rfl⟩ := hsame
    rw [Option.map_map]
    congr 2
    funext e
    exact haddresses e
  · rfl

/-- The entries with one for the endpoint and the service, which is new and empty if there was
none. -/
def withEntry (d : Directory) (endpoint service : String) : Directory :=
  if (d.entry? endpoint service).isSome then d
  else ⟨d.entries ++ [⟨endpoint, service, [], none⟩]⟩

theorem exists_withEntry (d : Directory) (endpoint service : String) :
    ∃ e, Directory.entry? (d.withEntry endpoint service) endpoint service = some e := by
  rw [withEntry]
  split
  · rename_i hsome
    exact Option.isSome_iff_exists.mp hsome
  · exact Option.isSome_iff_exists.mp (by simp [Directory.entry?, Entry.isFor])

theorem resolve_withEntry (d : Directory) (endpoint service endpoint' service' : String) :
    (d.withEntry endpoint service).resolve endpoint' service' = d.resolve endpoint' service' := by
  rw [withEntry]
  split
  · rfl
  · rename_i hnone
    rw [resolve, resolve, Directory.entry?, Directory.entry?, List.find?_append]
    cases hfind : d.entries.find? fun e => e.isFor endpoint' service' with
    | some e => rfl
    | none =>
      rw [Option.none_or, List.find?_singleton]
      split <;> rfl

/-- An announced address comes last, and what was known of it before is gone. The addresses of
other services stay. -/
theorem resolve_publish (d : Directory) (endpoint : String) (a : WeightedAddress)
    (info : ServiceInfo) (endpoint' service : String) :
    (d.publish endpoint a info).resolve endpoint' service =
      if endpoint = endpoint' ∧ info.name = service then
        (d.resolve endpoint' service).filter (fun b => b.address ≠ a.address) ++ [a]
      else d.resolve endpoint' service := by
  have hadd : Entry.Keeps fun e =>
      { e with addresses := e.addresses.filter (fun b => b.address ≠ a.address) ++ [a] } :=
    fun _ => ⟨rfl, rfl⟩
  have hinsert : d.insert endpoint info.name a = (d.withEntry endpoint info.name).modify endpoint
      info.name fun e =>
        { e with addresses := e.addresses.filter (fun b => b.address ≠ a.address) ++ [a] } := rfl
  have hdescribe : Entry.Keeps fun e => { e with info := some info } := fun _ => ⟨rfl, rfl⟩
  rw [publish, resolve_modify hdescribe fun _ => rfl, hinsert, resolve, entry?_modify hadd]
  split
  · rename_i hsame
    obtain ⟨rfl, rfl⟩ := hsame
    rw [← resolve_withEntry d endpoint info.name, resolve]
    obtain ⟨e, he⟩ := exists_withEntry d endpoint info.name
    rw [he]
    rfl
  · exact resolve_withEntry d endpoint info.name endpoint' service

end Directory

/-! ### Announcements -/

namespace Server

/-- What a server tells a directory about one service. -/
structure Announcement where
  endpoint : String
  address : WeightedAddress
  info : ServiceInfo

/-- Tries to make an announcement. -/
def Host.offer (host : Host) (a : Announcement) : Except Error Unit :=
  host.announce a.endpoint a.address a.info

/-- Whether an announcement is taken. -/
def Host.takes (host : Host) (a : Announcement) : Bool :=
  (host.offer a).isOk

theorem Host.takes_of_ok {host : Host} {a : Announcement} (h : host.offer a = .ok ()) :
    host.takes a = true := by
  rw [takes, h]
  rfl

theorem Host.not_takes_of_error {host : Host} {a : Announcement} {e : Error}
    (h : host.offer a = .error e) : ¬host.takes a = true := by
  rw [takes, h]
  exact Bool.false_ne_true

end Server

namespace Directory

open Server (Announcement)

/-- A directory after announcements. -/
def announced (d : Directory) (as : List Announcement) : Directory :=
  as.foldl (fun d a => d.publish a.endpoint a.address a.info) d

variable {d : Directory}

theorem announced_append (d : Directory) (as bs : List Announcement) :
    d.announced (as ++ bs) = (d.announced as).announced bs :=
  List.foldl_append

theorem mem_resolve_publish {endpoint : String} {a : WeightedAddress} {info : ServiceInfo}
    {endpoint' service : String} {address : SocketAddress} :
    address ∈ ((d.publish endpoint a info).resolve endpoint' service).map WeightedAddress.address ↔
      address ∈ (d.resolve endpoint' service).map WeightedAddress.address ∨
        endpoint = endpoint' ∧ info.name = service ∧ a.address = address := by
  rw [resolve_publish]
  split
  · rename_i hfor
    rw [List.map_append, List.mem_append, List.map_singleton, List.mem_singleton]
    constructor
    · rintro (hbefore | rfl)
      · obtain ⟨b, hb, rfl⟩ := List.mem_map.mp hbefore
        exact Or.inl (List.mem_map_of_mem (List.mem_filter.mp hb).1)
      · exact Or.inr ⟨hfor.1, hfor.2, rfl⟩
    · rintro (hbefore | ⟨-, -, rfl⟩)
      · obtain ⟨b, hb, rfl⟩ := List.mem_map.mp hbefore
        by_cases hsame : b.address = a.address
        · exact Or.inr hsame
        · exact Or.inl (List.mem_map_of_mem (List.mem_filter.mpr ⟨hb, decide_eq_true hsame⟩))
      · exact Or.inr rfl
  · rename_i hother
    have hnot : ¬(endpoint = endpoint' ∧ info.name = service ∧ a.address = address) :=
      fun h => hother ⟨h.1, h.2.1⟩
    rw [or_iff_left hnot]

/-- An address is found once it has been announced, and stays. -/
theorem mem_resolve_announced (d : Directory) (as : List Announcement) (endpoint service : String)
    (address : SocketAddress) :
    address ∈ ((d.announced as).resolve endpoint service).map WeightedAddress.address ↔
      address ∈ (d.resolve endpoint service).map WeightedAddress.address ∨
        ∃ a ∈ as, a.endpoint = endpoint ∧ a.info.name = service ∧ a.address.address = address := by
  induction as generalizing d with
  | nil => simp [announced]
  | cons a as ih =>
    have hfirst : d.announced (a :: as) =
        (d.publish a.endpoint a.address a.info).announced as := rfl
    rw [hfirst, ih, mem_resolve_publish, or_assoc]
    simp only [List.mem_cons, exists_eq_or_imp]

end Directory

/-! ### Starting -/

namespace Server.Startup

variable {host : Host} {configured : Nat} {bound : SocketAddress} {u left : Startup}
  {d : Directory} {listed services : List Service}
  {groups : List (SocketAddress × List Service)}
  {due : List Announcement} {r : Except Error Unit} {e : Error}

/-- The announcement of a service at a bound address, if it names an endpoint. -/
def announcement? (bound : SocketAddress) (s : Service) : Option Announcement :=
  s.endpoint.map fun endpoint => ⟨endpoint, ⟨bound, s.weight⟩, s.info⟩

/-- The announcements of the services at the addresses that are listened on, in their order. -/
def plan : List Endpoint → List (SocketAddress × List Service) → List Announcement
  | listening :: endpoints, (_, services) :: groups =>
    services.filterMap (announcement? listening.bound) ++ plan endpoints groups
  | _, _ => []

@[simp] theorem plan_nil (groups : List (SocketAddress × List Service)) : plan [] groups = [] :=
  rfl

/-- What is due for addresses is the same in whatever order the services are listed; the order of
the announcements at one address is not. -/
theorem plan_perm (h : listed.Perm services) (endpoints : List Endpoint) :
    (plan endpoints (Registry.groupByAddress listed)).Perm
      (plan endpoints (Registry.groupByAddress services)) := by
  rw [Registry.groupByAddress, Registry.groupByAddress, Registry.addressesOf_perm h]
  generalize Registry.addressesOf services = addresses
  induction endpoints generalizing addresses with
  | nil => exact .refl _
  | cons endpoint endpoints ih =>
    cases addresses with
    | nil => exact .refl _
    | cons a addresses => exact ((h.filter _).filterMap _).append (ih addresses)

/-- An announcement that is due is not taken, after those before it were. -/
def Refused (host : Host) (due : List Announcement) (e : Error) : Prop :=
  ∃ refused rest, due = due.takeWhile host.takes ++ refused :: rest ∧ host.offer refused = .error e

theorem Refused.head {a : Announcement} (ha : host.offer a = .error e) :
    Refused host (a :: due) e := by
  refine ⟨a, due, ?_, ha⟩
  rw [List.takeWhile_cons_of_neg (Host.not_takes_of_error ha), List.nil_append]

theorem Refused.cons {a : Announcement} (ha : host.takes a = true) (h : Refused host due e) :
    Refused host (a :: due) e := by
  obtain ⟨refused, rest, hdue, hrefused⟩ := h
  refine ⟨refused, rest, ?_, hrefused⟩
  rw [List.takeWhile_cons_of_pos ha, List.cons_append, ← hdue]

theorem Refused.append_left {before : List Announcement}
    (hbefore : ∀ a ∈ before, host.takes a = true) (h : Refused host due e) :
    Refused host (before ++ due) e := by
  induction before with
  | nil => exact h
  | cons a before ih =>
    obtain ⟨ha, hbefore⟩ := List.forall_mem_cons.mp hbefore
    exact (ih hbefore).cons ha

/-- A service without an endpoint is passed over; for another one, the directory has its
announcement unless it is not taken. -/
theorem announce_cases (host : Host) (bound : SocketAddress) (hdirectory : u.directory = some d)
    (s : Service) :
    announcement? bound s = none ∧ u.announce host bound s = (.ok (), u) ∨
      ∃ a, announcement? bound s = some a ∧
        (host.takes a = true ∧
            u.announce host bound s = (.ok (), { u with directory := some (d.announced [a]) }) ∨
          ∃ e, host.offer a = .error e ∧ u.announce host bound s = (.error e, u)) := by
  rw [announcement?, announce, hdirectory]
  cases s.endpoint with
  | none => exact Or.inl ⟨rfl, rfl⟩
  | some endpoint =>
    let a : Announcement := ⟨endpoint, ⟨bound, s.weight⟩, s.info⟩
    refine Or.inr ⟨a, rfl, ?_⟩
    cases hoffer : host.offer a with
    | error e =>
      have hannounce : host.announce endpoint ⟨bound, s.weight⟩ s.info = .error e := hoffer
      exact Or.inr ⟨e, rfl, by simp only [hannounce]⟩
    | ok _ =>
      have hannounce : host.announce endpoint ⟨bound, s.weight⟩ s.info = .ok () := hoffer
      refine Or.inl ⟨Host.takes_of_ok hoffer, ?_⟩
      simp only [hannounce]
      rfl

/-- The services at an address are announced until an announcement is not taken. -/
theorem announceAll_spec (hdirectory : u.directory = some d)
    (h : u.announceAll host bound services = (r, left)) :
    left.endpoints = u.endpoints ∧
      left.directory =
        some (d.announced ((services.filterMap (announcement? bound)).takeWhile host.takes)) ∧
      (r = .ok () ∧ (∀ a ∈ services.filterMap (announcement? bound), host.takes a = true) ∨
        ∃ e, r = .error e ∧ Refused host (services.filterMap (announcement? bound)) e) := by
  induction services generalizing u d with
  | nil =>
    cases h
    exact ⟨rfl, hdirectory, Or.inl ⟨rfl, by simp⟩⟩
  | cons s services ih =>
    rw [announceAll] at h
    rcases announce_cases host bound hdirectory s with
      ⟨hdue, hannounce⟩ | ⟨a, hdue, ⟨htaken, hannounce⟩ | ⟨e, hoffer, hannounce⟩⟩ <;>
      rw [hannounce] at h
    · rw [List.filterMap_cons_none hdue]
      exact ih hdirectory h
    · obtain ⟨hendpoints, hleft, hresult⟩ := ih rfl h
      rw [List.filterMap_cons_some hdue, List.takeWhile_cons_of_pos htaken]
      refine ⟨hendpoints, hleft, hresult.imp ?_ ?_⟩
      · rintro ⟨hr, hall⟩
        exact ⟨hr, List.forall_mem_cons.mpr ⟨htaken, hall⟩⟩
      · rintro ⟨e, hr, hrefused⟩
        exact ⟨e, hr, hrefused.cons htaken⟩
    · cases h
      rw [List.filterMap_cons_some hdue,
        List.takeWhile_cons_of_neg (Host.not_takes_of_error hoffer)]
      exact ⟨rfl, hdirectory, Or.inr ⟨e, rfl, .head hoffer⟩⟩

/-- The address of a listener that is ready is the one that was asked for. -/
theorem requested_of_bind {taken : List SocketAddress} {address : SocketAddress} {threads : Nat}
    {endpoint : Endpoint} (h : host.bind taken address threads = .ok endpoint) :
    endpoint.requested = address := by
  rw [Host.bind] at h
  split at h
  · cases h
  · rename_i bound _
    dsimp only at h
    cases hready : host.makeReady ⟨address, bound, max threads 1⟩ with
    | error e =>
      rw [hready] at h
      cases h
    | ok _ =>
      rw [hready] at h
      cases h
      rfl

/-- An address cannot be listened on, after all services of those before it have been announced. -/
def Unheard (host : Host) (configured : Nat) (taken : List SocketAddress)
    (endpoints : List Endpoint) (groups : List (SocketAddress × List Service)) (e : Error) : Prop :=
  (∀ a ∈ plan endpoints groups, host.takes a = true) ∧
    ∃ address services, groups[endpoints.length]? = some (address, services) ∧
      host.bind (taken ++ endpoints.map Endpoint.bound) address (ioThreads configured services) =
        .error e

/-- One more address before those, where everything has been announced. -/
theorem Unheard.cons {taken : List SocketAddress} {endpoint : Endpoint} {opened : List Endpoint}
    {address : SocketAddress}
    (hdue : ∀ a ∈ services.filterMap (announcement? endpoint.bound), host.takes a = true)
    (h : Unheard host configured (taken ++ [endpoint.bound]) opened groups e) :
    Unheard host configured taken (endpoint :: opened) ((address, services) :: groups) e := by
  obtain ⟨hall, next, others, hgroup, hbind⟩ := h
  refine ⟨fun a ha => ?_, next, others, ?_, ?_⟩
  · rw [plan, List.mem_append] at ha
    exact ha.elim (hdue a) (hall a)
  · rwa [List.length_cons, List.getElem?_cons_succ]
  · rwa [List.map_cons, List.append_cons]

/-- A start, beside the addresses that are `taken`, has listened on the first addresses and made the
announcements that were due there until something failed. -/
structure Progress (host : Host) (configured : Nat) (taken : List SocketAddress) (d : Directory)
    (groups : List (SocketAddress × List Service)) (opened : List Endpoint)
    (r : Except Error Unit) (directory : Option Directory) : Prop where
  requested : opened.map Endpoint.requested <+: groups.map Prod.fst
  announced : directory = some (d.announced ((plan opened groups).takeWhile host.takes))
  result : r = .ok () ∧ opened.length = groups.length ∧
        (∀ a ∈ plan opened groups, host.takes a = true) ∨
      ∃ e, r = .error e ∧
        (Unheard host configured taken opened groups e ∨ Refused host (plan opened groups) e)

/-- One more address before those, where everything has been announced. -/
theorem Progress.cons {taken : List SocketAddress} {endpoint : Endpoint} {opened : List Endpoint}
    {directory : Option Directory}
    (hdue : ∀ a ∈ services.filterMap (announcement? endpoint.bound), host.takes a = true)
    (h : Progress host configured (taken ++ [endpoint.bound])
      (d.announced (services.filterMap (announcement? endpoint.bound))) groups opened r directory) :
    Progress host configured taken d ((endpoint.requested, services) :: groups)
      (endpoint :: opened) r directory where
  requested := List.cons_prefix_cons.mpr ⟨rfl, h.requested⟩
  announced := by
    rw [plan, List.takeWhile_append_of_pos hdue, Directory.announced_append]
    exact h.announced
  result := by
    refine h.result.imp ?_ ?_
    · rintro ⟨hr, hlength, hall⟩
      refine ⟨hr, congrArg Nat.succ hlength, fun a ha => ?_⟩
      exact (List.mem_append.mp ha).elim (hdue a) (hall a)
    · rintro ⟨e, hr, hunheard | hrefused⟩
      · exact ⟨e, hr, Or.inl (hunheard.cons hdue)⟩
      · exact ⟨e, hr, Or.inr (hrefused.append_left hdue)⟩

/-- A start goes through the addresses as far as it comes. -/
theorem serve_spec (hdirectory : u.directory = some d)
    (h : u.serve host configured groups = (r, left)) :
    ∃ opened, left.endpoints = u.endpoints ++ opened ∧
      Progress host configured (u.endpoints.map Endpoint.bound) d groups opened r
        left.directory := by
  induction groups generalizing u d with
  | nil =>
    cases h
    exact ⟨[], (List.append_nil _).symm, List.prefix_rfl, hdirectory,
      Or.inl ⟨rfl, rfl, by simp⟩⟩
  | cons group groups ih =>
    obtain ⟨address, services⟩ := group
    rw [serve] at h
    cases hbind : host.bind (u.endpoints.map Endpoint.bound) address
        (ioThreads configured services) with
    | error e =>
      rw [hbind] at h
      cases h
      refine ⟨[], (List.append_nil _).symm, List.nil_prefix, hdirectory,
        Or.inr ⟨e, rfl, Or.inl ⟨by simp, address, services, rfl, ?_⟩⟩⟩
      rwa [List.map_nil, List.append_nil]
    | ok endpoint =>
      obtain rfl := requested_of_bind hbind
      let listening : Startup := { u with endpoints := u.endpoints ++ [endpoint] }
      rcases hannounce : listening.announceAll host endpoint.bound services with ⟨result, after⟩
      simp only [hbind, listening] at h hannounce
      rw [hannounce] at h
      have hlistening : listening.directory = some d := hdirectory
      obtain ⟨hendpoints, hafter, hresult⟩ := announceAll_spec hlistening hannounce
      rcases hresult with ⟨rfl, htaken⟩ | ⟨e, rfl, hrefused⟩
      · -- Everything at this address is announced, and the start goes on to the others.
        rw [List.takeWhile_eq_self_iff.mpr htaken] at hafter
        obtain ⟨opened, hleft, hprogress⟩ := ih hafter h
        have hbounds : after.endpoints.map Endpoint.bound =
            u.endpoints.map Endpoint.bound ++ [endpoint.bound] := by
          rw [hendpoints, List.map_append, List.map_singleton]
        rw [hbounds] at hprogress
        refine ⟨endpoint :: opened, ?_, hprogress.cons htaken⟩
        rw [hleft, hendpoints, List.append_assoc, List.singleton_append]
      · cases h
        have hplan : plan [endpoint] ((endpoint.requested, services) :: groups) =
            services.filterMap (announcement? endpoint.bound) := List.append_nil _
        refine ⟨[endpoint], hendpoints, List.cons_prefix_cons.mpr ⟨rfl, List.nil_prefix⟩, ?_,
          Or.inr ⟨e, rfl, Or.inr ?_⟩⟩
        · rw [hafter, hplan]
        · rwa [hplan]

/-- When a start fails, nothing that it has announced is taken back. In whatever order the services
of a registry are listed, it has listened on the first of the addresses in their order, and made the
announcements that were due there, those at one address in the order of the list, until one was not
taken. It fails because nothing was published or because of a thread, and then it has announced
nothing; because the next address cannot be listened on when everything due has been announced; or
because of the announcement that was not taken. An address is in the directory afterwards when it
was there before or is one of those announced. -/
theorem announced_before_failure {registry : Registry} (hlisted : listed.Perm registry.services)
    (h : ofServices host configured listed (some d) = (.error e, left)) :
    let groups := Registry.groupByAddress listed
    let due := plan left.endpoints groups
    let done := due.takeWhile host.takes
    left.endpoints.map Endpoint.requested <+: registry.byAddress.map Prod.fst ∧
      due.Perm (plan left.endpoints registry.byAddress) ∧
      left.directory = some (d.announced done) ∧
      (registry.services = [] ∧ done = [] ∧ e = Refusal.noServices.toError ∨
        done = [] ∧ host.startThreads 0 (threadsOf listed) = .error e ∨
        done = due ∧ (∃ address services,
          groups[left.endpoints.length]? = some (address, services) ∧
          host.bind (left.endpoints.map Endpoint.bound) address (ioThreads configured services) =
            .error e) ∨
        ∃ refused rest, due = done ++ refused :: rest ∧ host.offer refused = .error e) ∧
      ∀ endpoint service address,
        address ∈ ((d.announced done).resolve endpoint service).map WeightedAddress.address ↔
          address ∈ (d.resolve endpoint service).map WeightedAddress.address ∨
            ∃ a ∈ done, a.endpoint = endpoint ∧ a.info.name = service ∧
              a.address.address = address := by
  intro groups due done
  have hsame : groups.map Prod.fst = registry.byAddress.map Prod.fst := by
    rw [Registry.byAddress, Registry.map_fst_groupByAddress, Registry.map_fst_groupByAddress]
    exact Registry.addressesOf_perm hlisted
  rw [ofServices] at h
  split at h
  · rename_i hnone
    cases h
    obtain rfl := List.isEmpty_iff.mp hnone
    exact ⟨List.nil_prefix, plan_perm hlisted _, rfl, Or.inl ⟨hlisted.symm.eq_nil, rfl, rfl⟩,
      Directory.mem_resolve_announced d done⟩
  · split at h
    · rename_i hthreads
      cases h
      exact ⟨List.nil_prefix, plan_perm hlisted _, rfl, Or.inr (Or.inl ⟨rfl, hthreads⟩),
        Directory.mem_resolve_announced d done⟩
    · obtain ⟨opened, hopened, hprogress⟩ := serve_spec rfl h
      obtain rfl : left.endpoints = opened := hopened
      refine ⟨hsame ▸ hprogress.requested, plan_perm hlisted _, hprogress.announced,
        Or.inr (Or.inr ?_), Directory.mem_resolve_announced d done⟩
      rcases hprogress.result with ⟨hok, -⟩ | ⟨e', he, ⟨hall, hnext⟩ | hrefused⟩
      · cases hok
      · cases he
        exact Or.inl ⟨List.takeWhile_eq_self_iff.mpr hall, hnext⟩
      · cases he
        exact Or.inr hrefused

/-- A service at a port that the machine chooses, announced under `zk`. -/
def announcedService : Service :=
  (Service.new "b" (.loopback 0)).withEndpoint "zk"

/-- A service at a port that is not for ordinary programs. -/
def deniedService : Service :=
  .new "a" (.v4 0xCB007107 1)

/-- Both are published. -/
def halfDenied : Registry :=
  ⟨[announcedService, deniedService], false⟩

theorem reaches_halfDenied : Registry.Reaches .new halfDenied := by
  have hannounced : announcedService.Built := .withEndpoint (.new "b" _) "zk"
  have hdenied : deniedService.Built := .new "a" _
  have hid : (announcedService.id == deniedService.id) = false := by decide +kernel
  have hnone : Registry.service? ⟨[announcedService], false⟩ deniedService.id = none :=
    (List.find?_cons_of_neg (by simp [hid])).trans List.find?_nil
  have hfirst : stateAfter (Registry.publishing announcedService) .new =
      ⟨[announcedService], false⟩ := Registry.stateAfter_publishing_of_none rfl rfl
  have hboth : stateAfter (Registry.publishing deniedService) ⟨[announcedService], false⟩ =
      halfDenied := Registry.stateAfter_publishing_of_none rfl hnone
  rw [← hboth, ← hfirst]
  exact .publish (.publish .refl hannounced) hdenied

theorem run_halfDenied :
    (run .isolated 1 halfDenied (some .empty)).1 =
      .error (.ofIo "binding 203.0.113.7:1" Host.denied) := by
  decide +kernel

/-- The first service is announced when the second address is denied, also when it is listed
last. -/
theorem announced_before_failure_halfDenied :
    let listed := [deniedService, announcedService]
    let left := (ofServices .isolated 1 listed (some .empty)).2
    let due := plan left.endpoints (Registry.groupByAddress listed)
    listed.Perm halfDenied.services ∧
      ofServices .isolated 1 listed (some .empty) =
        (.error (.ofIo "binding 203.0.113.7:1" Host.denied), left) ∧
      left.directory = some (Directory.empty.announced due) ∧
      due.map Announcement.endpoint = ["zk"] := by
  intro listed left due
  have hlisted : listed.Perm halfDenied.services := .swap _ _ _
  have hresult : (ofServices .isolated 1 listed (some .empty)).1 =
      .error (.ofIo "binding 203.0.113.7:1" Host.denied) := by decide +kernel
  have hrun : ofServices .isolated 1 listed (some .empty) =
      (.error (.ofIo "binding 203.0.113.7:1" Host.denied), left) := Prod.ext hresult rfl
  obtain ⟨-, -, hdirectory, -, -⟩ := announced_before_failure hlisted hrun
  have htakes : due.takeWhile Host.isolated.takes = due :=
    List.takeWhile_eq_self_iff.mpr fun _ _ => rfl
  rw [htakes] at hdirectory
  exact ⟨hlisted, hrun, hdirectory, by decide +kernel⟩

/-- A failed start leaves an address in the directory that it has announced, where nothing was
before. -/
theorem failed_start_announced :
    Registry.Reaches .new halfDenied ∧
      (run .isolated 1 halfDenied (some .empty)).1 =
        .error (.ofIo "binding 203.0.113.7:1" Host.denied) ∧
      Directory.empty.resolve "zk" "b" = [] ∧
      (run .isolated 1 halfDenied (some .empty)).2.directory.map (fun d => d.resolve "zk" "b") =
        some [⟨.loopback 40000, .least⟩] :=
  ⟨reaches_halfDenied, run_halfDenied, rfl, by decide +kernel⟩

end Server.Startup

end RemoteCall
