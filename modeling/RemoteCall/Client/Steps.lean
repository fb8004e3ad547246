import RemoteCall.Client.Basic

/-!
# What happens to a client

The steps of the tasks of a client: connections that are opened, answered on, lost, opened again and
closed, and calls that are sent and answered. A task can be interrupted between any two steps, so
opening a connection, putting it on the ring, and closing it again when the pool was shut down in
between are steps of their own.
-/

namespace RemoteCall.Client

/-! ### Opening connections -/

/-- The frame that asks for the description of a service. -/
def probe (c : Client) (service : ServiceId) : Bytes :=
  (c.codec.frameBytes (.empty (.metadataProbe service))).toOption.getD []

/-- A slot was connected. While the service is unknown the connection asks for it. -/
def opened (c : Client) (p : PoolId) (slot : Slot) : LinkId × Client :=
  let link := Link.active slot c.config.writeQueueCapacity
  match c.pool? p with
  | none => c.addLink link
  | some pool =>
    if (c.service? pool.service).isSome then c.addLink link
    else c.addLink ((link.send? (c.probe pool.service)).getD link)

/-- Puts a connection on the ring at the positions of its slot. -/
def putOnRing (c : Client) (p : PoolId) (l : LinkId) : Client :=
  match c.link? l with
  | none => c
  | some link =>
    let positions := Ring.positionsFor link.slot.name
    (c.onPool p fun pool => { pool with ring := pool.ring.replace positions l }).onLink l
      fun link => { link with slot := { link.slot with positions } }

/-- Closes a connection whose pool was shut down meanwhile. -/
def recheck (c : Client) (p : PoolId) (l : LinkId) : Client :=
  if c.isShutdown p then c.onLink l Link.close else c

/-- Plans to connect the slot of a connection again, unless the pool was shut down. -/
def scheduleReconnect (c : Client) (p : PoolId) (l : LinkId) : Client :=
  if c.isShutdown p then c
  else
    let c := c.onLink l fun link => (link.transition .inactive .reconnectScheduled).2
    { c with reconnects := c.reconnects ++ [⟨p, l, c.config.reconnectDelayMs⟩] }

/-- A slot could not be connected. A slot from a directory is left out; any other keeps its place
with a placeholder and is tried again. -/
def notOpened (c : Client) (p : PoolId) (slot : Slot) : Client :=
  if slot.discovered then c
  else
    let (l, c) := c.addLink (.placeholder slot)
    (c.putOnRing p l).scheduleReconnect p l

/-- The slots that a service of this weight has beside the first one. -/
def furtherSlots (address : SocketAddress) (weight : Nat) : List Slot :=
  ((List.range weight).drop 1).map fun i => ⟨address, UInt64.ofNat i, false, []⟩

/-! ### Connecting again -/

/-- A slot was connected again: the new connection takes over the positions. -/
def replaced (c : Client) (r : Reconnect) (l : LinkId) : Client :=
  match c.link? r.old with
  | none => c
  | some old =>
    c.onPool r.pool fun pool => { pool with ring := pool.ring.replace old.slot.positions l }

/-- A slot could not be connected again. One from a directory leaves the ring; any other is tried
again. -/
def notReplaced (c : Client) (r : Reconnect) : Client :=
  match c.link? r.old with
  | none => c
  | some old =>
    if old.slot.discovered then
      c.onPool r.pool fun pool => { pool with ring := pool.ring.remove old.slot.positions r.old }
    else
      { c with
        reconnects := c.reconnects ++ [{ r with delayMs := c.config.reconnectRetryDelayMs }] }

/-- A connection was lost. The calls sent on it and not answered are dropped, so that they are made
again. -/
def lost (c : Client) (p : PoolId) (l : LinkId) : Client :=
  match c.link? l with
  | none => c
  | some link =>
    match link.transition .active .inactive with
    | (false, _) => c
    | (true, link) =>
      let (ids, link) := link.takeInflight
      let c := c.onLink l fun _ => link
      let pending := ids.foldl (fun pending id => (pending.remove id).2) c.pending
      { c with pending }.scheduleReconnect p l

/-! ### Frames from servers -/

/-- Learns the service of a pool from its description. -/
def install (c : Client) (p : PoolId) (info : ServiceInfo) (address : SocketAddress) :
    Except Error Client :=
  match c.pool? p with
  | none => .ok c
  | some pool =>
    if info.id ≠ pool.service then
      .error (.ofFault .unknownService
        s!"expected service {pool.service}, server described {info.id} ({info.name})")
    else
      match Service.ofInfo info address c.serializers with
      | .ok s => .ok (c.learn s)
      | .error e => .error e.toError

/-- Settles whether the service of a pool was learned. -/
def markReady (c : Client) (p : PoolId) (r : Readiness) : Client :=
  c.onPool p fun pool => pool.markReady r

/-- A description arrived. Gives the slots that are to be connected before the pool is ready; only
the first description asks for any. -/
def described (c : Client) (p : PoolId) (l : LinkId) (body : Bytes) : List Slot × Client :=
  match c.link? l, ServiceInfo.decode body with
  | none, _ => ([], c)
  | _, .error e =>
    ([], c.markReady p (.failed ⟨.clientSerializerError, (Error.compact e).message⟩))
  | some link, .ok info =>
    match c.install p info link.slot.address with
    | .error e => ([], c.markReady p (.failed e.toFault))
    | .ok c =>
      if (c.pool? p).any Pool.fannedOut then ([], c.markReady p .ready)
      else
        (furtherSlots link.slot.address info.weight.toNat,
          c.onPool p fun pool => { pool with fannedOut := true })

/-- The fault in an answer to the question for a description. -/
def probeFault (body : Bytes) : Fault :=
  match Fault.decode body with
  | .ok fault => fault
  | .error e => ⟨.clientSerializerError, (Error.compact e).message⟩

/-- A frame arrived on a connection. Gives the slots that are to be connected because of it. -/
def receive (c : Client) (p : PoolId) (l : LinkId) (frame : Frame) : List Slot × Client :=
  match frame.header.type with
  | .abnormal =>
    if frame.header.answersProbe then ([], c.markReady p (.failed (probeFault frame.body)))
    else ([], { c with pending := (c.pending.resolve frame).2 })
  | .normal | .empty => ([], { c with pending := (c.pending.resolve frame).2 })
  | .metadata => c.described p l frame.body
  | .heartbeat | .object => ([], c)

/-- A frame could not be read; tells whether reading goes on. A failure that belongs to a call is
its result. -/
def readFailure (c : Client) (e : Error) : Bool × Client :=
  match e.call? with
  | some r => (true, { c with pending := (c.pending.fail r.request e).2 })
  | none =>
    match e with
    | .frameTooLarge _ _ => (true, c)
    | _ => (false, c)

/-! ### Shutdown -/

/-- Shuts a pool down: no more reconnects, and all connections on its ring are closed. -/
def shutdownPool (c : Client) (p : PoolId) : Client :=
  if c.isShutdown p then c
  else
    let c := c.onPool p fun pool => { pool with shutdown := true }
    let c := { c with reconnects := c.reconnects.filter fun r => r.pool != p }
    let c := (c.ring p).owners.foldl (fun c l => c.onLink l Link.close) c
    c.markReady p (.failed stoppingFault)

/-- Shuts the client down: all its pools, and all calls that wait. -/
def shutdown (c : Client) : Client :=
  if c.stopping then c
  else
    let c := { c with stopping := true }
    let c := (List.range c.pools.length).foldl shutdownPool c
    { c with pending := (c.pending.failAll stoppingFault).2 }

/-! ### Attempts of a call -/

/-- A request that was sent and waits for its answer. -/
structure Sent where
  request : RequestId
  ticket : Ticket
  link : LinkId
  deriving DecidableEq, Repr

/-- How far an attempt comes without waiting. -/
inductive Begun where
  | over (a : Attempt)
  | sent (s : Sent)

/-- A fresh request id. When it has to wait for the next millisecond, this much time passes. -/
def nextId (c : Client) : RequestId × Client :=
  match c.ids.next [UInt64.ofNat c.nowMs, UInt64.ofNat (c.nowMs + 1)] with
  | some (id, ids, _) => (id, { c with ids, nowMs := max c.nowMs ids.last.toNat })
  | none => (0, c)

/-- Picks a connection for a fresh request and queues the request there. -/
def begin (c : Client) (p : PoolId) (m : Method) (parameter : Value) : Begun × Client :=
  let (request, c) := c.nextId
  match (c.ring p).pick request with
  | none => (.over .unwritable, c)
  | some l =>
    match c.link? l with
    | none => (.over .unwritable, c)
    | some link =>
      if !link.isWritable then (.over .unwritable, c)
      else
        let h : Header := ⟨m.service, request, m.id, .object⟩
        match c.codec.valueBytes h m.parameterSerializer parameter with
        | .error e =>
          (.over (.failed (.rpc ⟨.clientSerializerError, e.message⟩ (some h.call))), c)
        | .ok bytes =>
          match link.send? bytes with
          | none => (.over .unwritable, c)
          | some link =>
            let (ticket, pending) := c.pending.register request m.returnSerializer
            (.sent ⟨request, ticket, l⟩, { c with pending }.onLink l fun _ => link.track request)

/-- How the wait for an answer ends. -/
inductive Waited where
  | answered (result : Except Error Value)
  /-- The call was dropped. -/
  | dropped
  | timedOut

/-- Ends an attempt that was sent. -/
def finish (c : Client) (s : Sent) (how : Waited) : Attempt × Client :=
  let c := c.onLink s.link fun link => link.untrack s.request
  match how with
  | .answered (.ok v) => (.done v, c)
  | .answered (.error e) => (if e.kind = .serviceBusy then .busy e else .failed e, c)
  | .dropped =>
    (if c.stopping then .failed stoppingError else .unanswered s.request false, c)
  | .timedOut =>
    (.unanswered s.request ((c.link? s.link).any Link.isActive),
      { c with pending := (c.pending.remove s.request).2 })

end RemoteCall.Client
