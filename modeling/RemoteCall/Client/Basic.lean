import RemoteCall.Client.Connection
import RemoteCall.Client.Pending
import RemoteCall.Client.Retry
import RemoteCall.Directory
import RemoteCall.Frame.Codec
import RemoteCall.RequestId
import RemoteCall.Service.Basic

/-!
# The state of a client

A client holds the calls that wait for an answer, the services it has learned, and one pool of
connections for each service it was asked to connect to. Connections are numbered and never
forgotten; the ring of a pool holds the numbers of those in use.

What happens to a client is one of the steps in `Client.Steps`.
-/

namespace RemoteCall

/-- The number of a connection. -/
abbrev LinkId := Nat

/-- The number of a pool. -/
abbrev PoolId := Nat

/-- Whether a pool has learned its service. -/
inductive Readiness where
  | pending
  | ready
  | failed (fault : Fault)
  deriving DecidableEq, Repr

/-- The connections to one service. -/
structure Pool where
  service : ServiceId
  location : Location
  ring : Ring LinkId
  readiness : Readiness
  /-- The number of connections is settled; a description that arrives opens no more. -/
  fannedOut : Bool
  shutdown : Bool

namespace Pool

/-- A pool without connections. -/
def new (service : ServiceId) (location : Location) : Pool :=
  { service
    location
    ring := .empty
    readiness := .pending
    fannedOut := false
    shutdown := false }

/-- Settles whether the service was learned; only the first answer counts. -/
def markReady (p : Pool) (r : Readiness) : Pool :=
  match p.readiness with
  | .pending => { p with readiness := r }
  | _ => p

end Pool

/-- A connection that is to be replaced after a wait. -/
structure Reconnect where
  pool : PoolId
  old : LinkId
  delayMs : Nat
  deriving DecidableEq, Repr

/-- A client. -/
structure Client where
  config : ClientConfig
  serializers : Serializers
  directory : Option Directory
  /-- The services learned, each number once. -/
  services : List Service
  pending : Pending
  links : List Link
  pools : List Pool
  reconnects : List Reconnect
  ids : RequestId.Generator
  stopping : Bool
  nowMs : Nat

namespace Client

/-- A client that was not asked for anything yet. -/
def new (config : ClientConfig) (serializers : Serializers) (directory : Option Directory)
    (worker : UInt64) : Client :=
  { config
    serializers
    directory
    services := []
    pending := .empty
    links := []
    pools := []
    reconnects := []
    ids := .new worker
    stopping := false
    nowMs := 1 }

/-- The bound on frames. -/
def codec (c : Client) : Codec :=
  .ofLimit c.config.maxFrameSize

/-- The fault of calls that are cut off when the client stops. -/
def stoppingFault : Fault :=
  ⟨.clientStopping, "client shutting down"⟩

/-- The error of calls that come when the client stops. -/
def stoppingError : Error :=
  .rpc stoppingFault none

/-- A learned service. -/
def service? (c : Client) (id : ServiceId) : Option Service :=
  c.services.find? fun s => s.id == id

/-- Learns a service, in place of one with the same number. -/
def learn (c : Client) (s : Service) : Client :=
  { c with services := c.services.filter (fun t => t.id != s.id) ++ [s] }

/-- A connection. -/
def link? (c : Client) (l : LinkId) : Option Link :=
  c.links[l]?

/-- Changes a connection. -/
def onLink (c : Client) (l : LinkId) (f : Link → Link) : Client :=
  { c with links := c.links.modify l f }

/-- Adds a connection; gives its number. -/
def addLink (c : Client) (link : Link) : LinkId × Client :=
  (c.links.length, { c with links := c.links ++ [link] })

/-- A pool. -/
def pool? (c : Client) (p : PoolId) : Option Pool :=
  c.pools[p]?

/-- Changes a pool. -/
def onPool (c : Client) (p : PoolId) (f : Pool → Pool) : Client :=
  { c with pools := c.pools.modify p f }

/-- The pool was shut down. -/
def isShutdown (c : Client) (p : PoolId) : Bool :=
  (c.pool? p).any Pool.shutdown

/-- The ring of a pool. -/
def ring (c : Client) (p : PoolId) : Ring LinkId :=
  ((c.pool? p).map Pool.ring).getD .empty

/-- The connections on the ring of a pool. -/
def ringLinks (c : Client) (p : PoolId) : List Link :=
  (c.ring p).owners.filterMap c.link?

end Client

end RemoteCall
