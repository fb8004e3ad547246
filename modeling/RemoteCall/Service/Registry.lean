import RemoteCall.Service.Basic

/-!
# Published services

A server's services are collected in a registry before it starts. Publishing a service whose number
is already there merges it into the one that is; once the registry is frozen nothing is published.

Services are found by number and may be listed in any order. What depends on this order is given the
list.
-/

namespace RemoteCall

/-- The services that a server has published, in the order of their first publication. -/
structure Registry where
  services : List Service
  frozen : Bool

namespace Registry

/-- Nothing is published yet. -/
def new : Registry := ⟨[], false⟩

instance : Inhabited Registry := ⟨new⟩

/-- The service of this number. -/
def service? (r : Registry) (id : ServiceId) : Option Service :=
  r.services.find? fun s => s.id == id

/-- The published service of this name. -/
def serviceNamed? (r : Registry) (name : String) : Option Service :=
  r.services.find? fun s => s.name == name

/-- Replaces the service of the same number. -/
def replace (r : Registry) (s : Service) : Registry :=
  { r with services := r.services.map fun t => if t.id = s.id then s else t }

/-- Publishes a service; gives the number that each of its methods ends up with. A refusal changes
nothing. -/
def publish (r : Registry) (s : Service) : Except Refusal (Service.Renumbering × Registry) :=
  if r.frozen then .error (.started s.name)
  else
    match r.service? s.id with
    | some existing => do
      let (renumbering, merged) ← existing.merge s
      pure (renumbering, r.replace merged)
    | none =>
      .ok (s.methods.map fun m => (m.id, m.id), { r with services := r.services ++ [s] })

/-- Ends publication. -/
def freeze (r : Registry) : Registry :=
  { r with frozen := true }

/-- The method of a request. -/
def method? (r : Registry) (service : ServiceId) (method : MethodId) : Option Method :=
  (r.service? service).bind fun s => s.method? method

/-- The methods of all services. -/
def methods (r : Registry) : List Method :=
  r.services.flatMap Service.methods

/-- Puts an address into a list ordered by address, unless it is there. -/
def insertAddress (a : SocketAddress) : List SocketAddress → List SocketAddress
  | [] => [a]
  | b :: rest =>
    if a = b then b :: rest
    else if a.before b then a :: b :: rest
    else b :: insertAddress a rest

/-- The addresses of services, in their order. -/
def addressesOf (services : List Service) : List SocketAddress :=
  services.foldl (fun as s => insertAddress s.address as) []

/-- The services at each address: the addresses in their order, and the services at one address as
they are listed. -/
def groupByAddress (services : List Service) : List (SocketAddress × List Service) :=
  (addressesOf services).map fun a => (a, services.filter fun s => s.address = a)

/-- The services at each address, listed as they were published. -/
def byAddress (r : Registry) : List (SocketAddress × List Service) :=
  groupByAddress r.services

end Registry

end RemoteCall
