import RemoteCall.Frame.Codec
import RemoteCall.Net.Address
import RemoteCall.Service.Text

/-!
# Server connections

The threads of a server answer on a connection by queueing encoded frames for its writer; this never
waits. Pressure works on the other side: a connection whose read gate is shut is not read, and its
peer has to wait.

`Connections` are the connections of a server, found by number; a `GateSignal` says what becomes of
the gate of one of them.
-/

namespace RemoteCall.Server

/-- The number of a connection. -/
abbrev ConnectionId := Nat

/-- A message for the writer of a connection. -/
inductive Outbound where
  | frame (bytes : Bytes)
  /-- Flush what is queued, then shut the socket down. -/
  | close
  deriving DecidableEq, Repr

namespace Outbound

/-- The frame of a message. -/
def frame? : Outbound → Option Frame
  | close => none
  | frame bytes =>
    match ((Decoder.new (.ofLimit bytes.length)).step bytes).1 with
    | .frame f => some f
    | _ => none

/-- The message does not belong behind another one when answers are ordered by request. The end of
the connection comes last. -/
def notAfter (a b : Outbound) : Bool :=
  match a.frame?, b.frame? with
  | some f, some g => f.header.request ≤ g.header.request
  | none, some _ => false
  | _, none => true

/-- Messages in the order of their requests. -/
def sorted (ms : List Outbound) : List Outbound :=
  ms.mergeSort notAfter

end Outbound

/-- The handle on which requests of one connection are answered. -/
structure Connection where
  id : ConnectionId
  peer : SocketAddress
  codec : Codec
  /-- The read gate is open: frames are read. -/
  gateOpen : Bool
  /-- The connection was closed. -/
  closed : Bool
  /-- Nobody takes queued messages any more. -/
  writerGone : Bool
  /-- The messages that wait for the writer. -/
  outbox : List Outbound

namespace Connection

/-- A connection that is read and has nothing to write. -/
def new (id : ConnectionId) (peer : SocketAddress) (codec : Codec) : Connection :=
  { id, peer, codec, gateOpen := true, closed := false, writerGone := false, outbox := [] }

/-- Opens the read gate. -/
def resume (c : Connection) : Connection :=
  { c with gateOpen := true }

/-- Shuts the read gate. -/
def pause (c : Connection) : Connection :=
  { c with gateOpen := false }

/-- Queues a message, unless the writer is gone. -/
def queue (c : Connection) (m : Outbound) : Connection :=
  if c.writerGone then c else { c with outbox := c.outbox ++ [m] }

/-- Queues an encoded frame; tells whether it will be written. -/
def push (c : Connection) (bytes : Bytes) : Bool × Connection :=
  if c.closed ∨ c.writerGone then (false, c) else (true, c.queue (.frame bytes))

/-- Queues a frame; tells whether it will be written. One that cannot be encoded is dropped. -/
def sendFrame (c : Connection) (frame : Frame) : Bool × Connection :=
  match c.codec.frameBytes frame with
  | .ok bytes => c.push bytes
  | .error _ => (false, c)

/-- Answers a request with a value. On failure nothing is queued. -/
def sendValue (c : Connection) (request : Header) (serializer : Serializer) (value : Value) :
    Except Error Unit × Connection :=
  match c.codec.valueBytes (request.withType .normal) serializer value with
  | .error e => (.error e, c)
  | .ok bytes =>
    match c.push bytes with
    | (true, c) => (.ok (), c)
    | (false, c) => (.error (.connection s!"connection to {c.peer.text} is closed"), c)

/-- Answers a request with a fault; tells whether it will be written. -/
def sendFault (c : Connection) (request : Header) (fault : Fault) : Bool × Connection :=
  c.sendFrame (.fault request fault)

/-- Answers a request with a fault, if that is possible. -/
def refuse (c : Connection) (request : Header) (fault : Fault) : Connection :=
  (c.sendFault request fault).2

/-- Ends the connection after the queued answers. A paused reader goes on, to notice the end. -/
def close (c : Connection) : Connection :=
  if c.closed then c else ({ c with closed := true }.queue .close).resume

/-- The writer stops; what is queued is lost. -/
def abandon (c : Connection) : Connection :=
  { c with writerGone := true, outbox := [] }

/-- Takes all queued messages, as the writer does. -/
def takeOutbox (c : Connection) : List Outbound × Connection :=
  (c.outbox, { c with outbox := [] })

/-- The connection in diagnostics. -/
def text (c : Connection) : String :=
  Text.record "ServerConnection"
    [("id", toString c.id), ("peer", c.peer.text), ("read_open", Text.ofBool c.gateOpen)]

end Connection

/-- What becomes of the read gate of a connection. -/
inductive GateSignal where
  | pause (c : ConnectionId)
  | resume (c : ConnectionId)
  deriving DecidableEq, Repr

/-- The connections of a server. -/
abbrev Connections := List Connection

namespace Connections

/-- The connection of this number. -/
def get? (cs : Connections) (id : ConnectionId) : Option Connection :=
  cs.find? fun c => c.id == id

/-- Changes the connection of this number. -/
def modify (cs : Connections) (id : ConnectionId) (f : Connection → Connection) : Connections :=
  cs.map fun c => if c.id = id then f c else c

/-- Carries out a signal. -/
def signal (cs : Connections) : GateSignal → Connections
  | .pause c => cs.modify c Connection.pause
  | .resume c => cs.modify c Connection.resume

/-- Carries out signals in order. -/
def signalAll (cs : Connections) (signals : List GateSignal) : Connections :=
  signals.foldl signal cs

/-- The messages queued on all connections. -/
def outbox (cs : Connections) : List Outbound :=
  cs.flatMap Connection.outbox

/-- Forgets the messages queued on all connections, as after they were written. -/
def clear (cs : Connections) : Connections :=
  cs.map fun c => { c with outbox := [] }

/-- The read gate of this connection is open. -/
def gateOpen (cs : Connections) (id : ConnectionId) : Bool :=
  (cs.get? id).any Connection.gateOpen

end Connections

end RemoteCall.Server
