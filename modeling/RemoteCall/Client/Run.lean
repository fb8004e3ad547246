import RemoteCall.Client.Steps

/-!
# Running a client

The steps of a client in one order, on a network where each address can be reached or not and no
server ever answers. Time is virtual.
-/

namespace RemoteCall.Client

/-- Whether a connection to an address can be opened. -/
abbrev Network := SocketAddress → Bool

/-- Connects a slot and puts it on the ring of a pool. -/
def attach (network : Network) (p : PoolId) (c : Client) (slot : Slot) : Client :=
  if network slot.address then
    let (l, c) := c.opened p slot
    (c.putOnRing p l).recheck p l
  else c.notOpened p slot

/-- The slots of the addresses that a directory gives, as many for each as its weight. -/
def discoveredSlots (addresses : List WeightedAddress) : List Slot :=
  addresses.flatMap fun a =>
    (List.range a.weight.val.toNat).map fun i => ⟨a.address, UInt64.ofNat i, true, []⟩

/-- The pool is ready if its service is known. -/
def readyIfKnown (c : Client) (p : PoolId) (service : ServiceId) : Client :=
  if (c.service? service).isSome then c.markReady p .ready else c

/-- Opens the connections that a directory gives. -/
def startFromDirectory (network : Network) (c : Client) (p : PoolId) (pool : Pool)
    (endpoint service : String) : Except Error Client :=
  match c.directory with
  | none =>
    .error (.ofFault .clientError
      s!"no discovery collaborator configured for {pool.location.text}")
  | some directory =>
    match directory.resolve endpoint service with
    | [] =>
      .error (.ofFault .clientError
        s!"discovery returned no addresses for {pool.location.text}")
    | first :: others => do
      let c := c.onPool p fun pool => { pool with fannedOut := true }
      let c ← match directory.info? endpoint service with
        | none => pure c
        | some info => c.install p info first.address
      let c := (discoveredSlots (first :: others)).foldl (attach network p) c
      pure (c.readyIfKnown p pool.service)

/-- Opens the first connections of a pool. -/
def start (network : Network) (c : Client) (p : PoolId) (pool : Pool) : Except Error Client :=
  match pool.location with
  | .directory endpoint service => c.startFromDirectory network p pool endpoint service
  | .address address =>
    let c := attach network p c ⟨address, 0, false, []⟩
    match c.service? pool.service with
    | none => .ok c
    | some s =>
      let c := (furtherSlots address s.weight.val.toNat).foldl (attach network p) c
      .ok (c.markReady p .ready)

/-- A client that is bound to one service. -/
structure Session where
  pool : PoolId
  service : Service

/-- The session of a pool that is ready. -/
def session (c : Client) (p : PoolId) (pool : Pool) (name : String) :
    Except Error Session :=
  match (c.pool? p).map Pool.readiness with
  | some (.failed fault) => .error (.rpc fault none)
  | some .ready =>
    match c.service? pool.service with
    | some service => .ok ⟨p, service⟩
    | none => .error (.ofFault .unknownService s!"no metadata for service {name}")
  | _ => .error (.timeout c.config.metadataTimeoutMs)

/-- Connects to a service at a location. A pool that does not get ready is shut down again. -/
def connect (network : Network) (c : Client) (service location : String) :
    Except Error Session × Client :=
  if c.stopping then (.error stoppingError, c)
  else
    match Location.parse location with
    | .error e => (.error e, c)
    | .ok place =>
      let pool := Pool.new (serviceId service) place
      let p := c.pools.length
      let c := { c with pools := c.pools ++ [pool] }
      match c.start network p pool with
      | .error e => (.error e, c.shutdownPool p)
      | .ok c =>
        match c.session p pool service with
        | .ok s => (.ok s, c)
        | .error e => (.error e, c.shutdownPool p)

/-- Lets time pass. The client is shut down when the planned moment has come. -/
def elapse (shutdownAt : Option Nat) (ms : Nat) (c : Client) : Client :=
  let c := { c with nowMs := c.nowMs + ms }
  if shutdownAt.any (· ≤ c.nowMs) then c.shutdown else c

/-- Makes one attempt of a call. -/
def attempt (shutdownAt : Option Nat) (c : Client) (p : PoolId) (m : Method) (parameter : Value) :
    Attempt × Client :=
  match c.begin p m parameter with
  | (.over a, c) => (a, c)
  | (.sent s, c) =>
    let c := c.elapse shutdownAt c.config.callTimeoutMs
    match c.pending.status s.ticket with
    | .settled (.delivered r) => c.finish s (.answered r)
    | .waiting => c.finish s .timedOut
    | _ => c.finish s .dropped

/-- Makes at most `fuel` attempts of a call. A call that is not over then goes on until the planned
shutdown, or for ever if none is planned. -/
def invokeUpTo (shutdownAt : Option Nat) (p : PoolId) (m : Method) (parameter : Value) :
    (fuel : Nat) → CallProgress → Client → Option (Except Error Value) × Client
  | 0, _, c =>
    if shutdownAt.isSome then (some (.error stoppingError), c.shutdown) else (none, c)
  | fuel + 1, progress, c =>
    if c.stopping then (some (.error stoppingError), c)
    else
      let (a, c) := c.attempt shutdownAt p m parameter
      match progress.after c.config a with
      | .finished r => (some r, c)
      | .again pauseMs progress =>
        invokeUpTo shutdownAt p m parameter fuel progress (c.elapse shutdownAt pauseMs)

/-- A number of attempts that is enough for every call whose pauses are not empty. -/
def maxAttempts (config : ClientConfig) : Nat :=
  (config.maxRetries + 1) * (config.callTimeoutMs + 2)

/-- Calls a method of a session by name; `none` if the call goes on for ever. -/
def call (shutdownAt : Option Nat) (c : Client) (s : Session) (method : String)
    (parameter : Value) : Option (Except Error Value) × Client :=
  match s.service.methodNamed? method with
  | none =>
    (some (.error (.ofFault .clientError
      s!"service {s.service.name} has no method {method}")), c)
  | some m => invokeUpTo shutdownAt s.pool m parameter (maxAttempts c.config) .start c

end RemoteCall.Client
