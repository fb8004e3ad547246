import RemoteCall.Location
import RemoteCall.Service.Info
import RemoteCall.Service.Weight

/-!
# Directories

A directory knows the addresses of services under endpoints. `Directory` keeps its entries in
memory: for an endpoint and a service name the weighted addresses, in the order in which they were
last announced, and the service's description if one was published.
-/

namespace RemoteCall

/-- An address and its share of connections. -/
structure WeightedAddress where
  address : SocketAddress
  weight : Weight
  deriving DecidableEq, Repr

/-- What a directory knows of one service under one endpoint. -/
structure Directory.Entry where
  endpoint : String
  service : String
  addresses : List WeightedAddress
  info : Option ServiceInfo
  deriving DecidableEq, Repr

/-- The entries of a directory, one for each endpoint and service. -/
structure Directory where
  entries : List Directory.Entry
  deriving DecidableEq, Repr

namespace Directory

/-- A directory without entries. -/
def empty : Directory := ⟨[]⟩

instance : Inhabited Directory := ⟨empty⟩

/-- The entry is the one of this endpoint and service. -/
def Entry.isFor (e : Entry) (endpoint service : String) : Bool :=
  e.endpoint == endpoint && e.service == service

/-- The entry of an endpoint and a service. -/
def entry? (d : Directory) (endpoint service : String) : Option Entry :=
  d.entries.find? fun e => e.isFor endpoint service

/-- Changes the entry of an endpoint and a service, if there is one. -/
def modify (d : Directory) (endpoint service : String) (f : Entry → Entry) : Directory :=
  ⟨d.entries.map fun e => if e.isFor endpoint service then f e else e⟩

/-- Adds an address behind the others; an address that is there moves and takes the new weight. -/
def insert (d : Directory) (endpoint service : String) (a : WeightedAddress) : Directory :=
  let d := if (d.entry? endpoint service).isSome then d
    else ⟨d.entries ++ [⟨endpoint, service, [], none⟩]⟩
  d.modify endpoint service fun e =>
    { e with addresses := e.addresses.filter (fun b => b.address ≠ a.address) ++ [a] }

/-- Removes an address. -/
def remove (d : Directory) (endpoint service : String) (address : SocketAddress) : Directory :=
  d.modify endpoint service fun e =>
    { e with addresses := e.addresses.filter fun b => b.address ≠ address }

/-- Announces that an address serves what the description says. -/
def publish (d : Directory) (endpoint : String) (a : WeightedAddress) (info : ServiceInfo) :
    Directory :=
  (d.insert endpoint info.name a).modify endpoint info.name fun e => { e with info := some info }

/-- The addresses of a service. -/
def resolve (d : Directory) (endpoint service : String) : List WeightedAddress :=
  ((d.entry? endpoint service).map Entry.addresses).getD []

/-- The description of a service, if one was published. -/
def info? (d : Directory) (endpoint service : String) : Option ServiceInfo :=
  (d.entry? endpoint service).bind Entry.info

end Directory

end RemoteCall
