import RemoteCall.Directory
import RemoteCall.Server.Groups

/-!
# Starting a server

A server that starts freezes its registry, starts the threads of its executors and of the delay
list, and goes through the addresses of its services in order. It listens on each, and announces the
services there that name an endpoint of a directory. The first failure ends the start, and
`Startup.ofServices` gives the directory as it is then.

The services are listed in any order. The order decides in which order executors are made, and in
which order the services at one address are announced.
-/

namespace RemoteCall.Server

/-- An address that a server listens on. -/
structure Endpoint where
  requested : SocketAddress
  bound : SocketAddress
  /-- The number of threads that read and write on the connections. -/
  ioThreads : Nat
  deriving DecidableEq, Repr

/-- What is done with a listener before it takes connections. -/
inductive Preparation where
  /-- The listener is told not to block. -/
  | configure
  | readAddress
  | buildRuntime
  | register
  deriving DecidableEq, Repr

namespace Preparation

/-- What is done, in this order. -/
def all : List Preparation :=
  [configure, readAddress, buildRuntime, register]

/-- What an error says that it was met in. -/
def context : Preparation → String
  | configure => "configuring listener"
  | readAddress => "reading bound address"
  | buildRuntime => "building I/O runtime"
  | register => "registering listener"

end Preparation

/-- A thread that a server starts with. -/
structure Thread where
  name : String
  /-- What an error says that it was met in. -/
  context : String
  deriving DecidableEq, Repr

/-- The threads that the executors of services start with, one executor after the other, and the
thread of the delay list. -/
def threadsOf (services : List Service) : List Thread :=
  let core (e : Executor) : List Thread :=
    (List.range e.minThreads).map fun n =>
      ⟨s!"ringrpc-{e.name}-{n}", "spawning executor thread"⟩
  (Groups.ofServices services).executors.flatMap core ++
    [⟨"ringrpc-delay", "spawning delay worker"⟩]

/-- What the machine and the directory do for a server that starts. -/
structure Host where
  /-- Starts a thread of a name, after so many others. -/
  spawn : (started : Nat) → (name : String) → Except IoError Unit
  /-- Listens on an address, beside those that are `taken`; gives the address with the port that was
  assigned. -/
  listen : (taken : List SocketAddress) → SocketAddress → Except IoError SocketAddress
  /-- Makes a listener ready. -/
  prepare : Preparation → Endpoint → Except IoError Unit
  /-- Whether a connection to an address comes about. -/
  connect : SocketAddress → Except IoError Unit
  /-- Whether an announcement under an endpoint is taken. -/
  announce : (endpoint : String) → WeightedAddress → ServiceInfo → Except Error Unit

namespace Host

/-- Starts threads until one cannot be started. -/
def startThreads (host : Host) (started : Nat) : List Thread → Except Error Unit
  | [] => .ok ()
  | t :: rest => do
    (host.spawn started t.name).mapError (.ofIo t.context)
    host.startThreads (started + 1) rest

/-- Makes a listener ready, until something fails. -/
def makeReady (host : Host) (endpoint : Endpoint) : Except Error Unit :=
  Preparation.all.forM fun p => (host.prepare p endpoint).mapError (.ofIo p.context)

/-- Listens on an address and makes the listener ready, with one thread at least. -/
def bind (host : Host) (taken : List SocketAddress) (address : SocketAddress) (ioThreads : Nat) :
    Except Error Endpoint :=
  match host.listen taken address with
  | .error e => .error (.ofIo s!"binding {address.text}" e)
  | .ok bound =>
    let endpoint : Endpoint := ⟨address, bound, max ioThreads 1⟩
    (host.makeReady endpoint).map fun _ => endpoint

/-- The ports below this one are not for ordinary programs. -/
def firstOpenPort : UInt16 := 1024

/-- The port that a machine assigns first when a program leaves the choice to it. -/
def firstFreePort : Nat := 40000

/-- The address is none of the machine. -/
def noSuchAddress : IoError := ⟨.other, "Cannot assign requested address (os error 99)"⟩

/-- The program may not listen on the port. -/
def denied : IoError := ⟨.other, "Permission denied (os error 13)"⟩

/-- Somebody listens there already. -/
def inUse : IoError := ⟨.other, "Address already in use (os error 98)"⟩

/-- No network leads to the address. -/
def unreachable : IoError := ⟨.other, "Network is unreachable (os error 101)"⟩

/-- A machine that is connected to nothing, not even to itself, and has no addresses of its own. It
takes every IPv4 address for its own, and of the proper IPv6 addresses only the one that stands for
all; no connection comes about; it has threads enough, and its directory takes every announcement.
-/
def isolated : Host where
  spawn _ _ := .ok ()
  listen taken address :=
    let own := match address with
      | .v4 _ _ => true
      | .v6 ip _ _ => ip = 0 || address.mapped?.isSome
    if !own then .error noSuchAddress
    else if 0 < address.port ∧ address.port < firstOpenPort then .error denied
    else if taken.any address.overlaps then .error inUse
    else if 0 < address.port then .ok address
    else .ok (address.withPort (UInt16.ofNat (firstFreePort + taken.length)))
  prepare _ _ := .ok ()
  connect address :=
    if address.mapped?.isSome then .error unreachable else .error noSuchAddress
  announce _ _ _ := .ok ()

end Host

/-- How far a start has come. -/
structure Startup where
  endpoints : List Endpoint
  /-- The directory, if the server has one. -/
  directory : Option Directory

namespace Startup

/-- Announces a service at its bound address, if it names an endpoint and there is a directory. -/
def announce (host : Host) (bound : SocketAddress) (u : Startup) (s : Service) :
    Except Error Unit × Startup :=
  match s.endpoint, u.directory with
  | some endpoint, some directory =>
    let address : WeightedAddress := ⟨bound, s.weight⟩
    match host.announce endpoint address s.info with
    | .error e => (.error e, u)
    | .ok () => (.ok (), { u with directory := some (directory.publish endpoint address s.info) })
  | _, _ => (.ok (), u)

/-- Announces services until one is not taken. -/
def announceAll (host : Host) (bound : SocketAddress) (u : Startup) :
    List Service → Except Error Unit × Startup
  | [] => (.ok (), u)
  | s :: rest =>
    match u.announce host bound s with
    | (.ok (), u) => u.announceAll host bound rest
    | failed => failed

/-- The number of threads for an address: the configured one, or more if a service asks for it. -/
def ioThreads (configured : Nat) (services : List Service) : Nat :=
  services.foldl (fun n s => max n (s.ioThreads.getD 0)) configured

/-- Listens on addresses and announces the services there, until something fails. -/
def serve (host : Host) (configured : Nat) (u : Startup) :
    List (SocketAddress × List Service) → Except Error Unit × Startup
  | [] => (.ok (), u)
  | (address, services) :: rest =>
    match host.bind (u.endpoints.map Endpoint.bound) address (ioThreads configured services) with
    | .error e => (.error e, u)
    | .ok endpoint =>
      match { u with endpoints := u.endpoints ++ [endpoint] }.announceAll host endpoint.bound
        services with
      | (.ok (), u) => u.serve host configured rest
      | failed => failed

/-- Starts a server of services that are listed in this order. -/
def ofServices (host : Host) (configured : Nat) (services : List Service)
    (directory : Option Directory) : Except Error Unit × Startup :=
  let u : Startup := ⟨[], directory⟩
  if services.isEmpty then (.error Refusal.noServices.toError, u)
  else
    match host.startThreads 0 (threadsOf services) with
    | .error e => (.error e, u)
    | .ok () => u.serve host configured (Registry.groupByAddress services)

/-- Starts a server of published services, listed as they were published. -/
def run (host : Host) (configured : Nat) (registry : Registry) (directory : Option Directory) :
    Except Error Unit × Startup :=
  ofServices host configured registry.services directory

/-- Where a service is reached. -/
def addressOf? (u : Startup) (registry : Registry) (service : String) : Option SocketAddress :=
  (registry.serviceNamed? service).bind fun s =>
    (u.endpoints.find? fun e => e.requested == s.address).map Endpoint.bound

end Startup

end RemoteCall.Server
