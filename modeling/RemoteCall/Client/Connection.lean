import RemoteCall.Net.Address
import RemoteCall.Ring
import RemoteCall.Service.Text

/-!
# Client connections

A slot is the lasting identity of one connection to an address: its name and its positions on the
ring. Behind a slot stands one physical connection after another, or a placeholder while there is
none. A connection has a bounded queue of frames to write and remembers the requests that were sent
on it and not answered.
-/

namespace RemoteCall

/-- The lasting identity of a connection. -/
structure Slot where
  address : SocketAddress
  index : UInt64
  /-- The slot came from a directory; it is given up when its address cannot be reached again. -/
  discovered : Bool
  positions : List UInt64
  deriving DecidableEq, Repr

/-- The name that is hashed to the slot's positions. -/
def Slot.name (s : Slot) : String :=
  s.address.text ++ "#" ++ toString s.index

/-- The life of a physical connection. -/
inductive LinkState where
  | connecting
  | active
  | inactive
  | reconnectScheduled
  | closed
  deriving DecidableEq, Repr

namespace LinkState

/-- Every state. -/
def all : List LinkState :=
  [connecting, active, inactive, reconnectScheduled, closed]

/-- The state's name. -/
def name : LinkState → String
  | connecting => "Connecting"
  | active => "Active"
  | inactive => "Inactive"
  | reconnectScheduled => "ReconnectScheduled"
  | closed => "Closed"

/-- The state of this name. -/
def ofName? (s : String) : Option LinkState :=
  all.find? fun t => t.name == s

end LinkState

/-- The frames that wait to be written on a connection. -/
structure WriteQueue where
  capacity : Nat
  frames : List Bytes
  /-- Somebody takes frames off the queue. -/
  served : Bool
  deriving DecidableEq, Repr

namespace WriteQueue

/-- There is room for another frame. -/
def hasRoom (q : WriteQueue) : Bool :=
  q.frames.length < q.capacity

/-- Queues a frame, if there is room and somebody takes it. -/
def push? (q : WriteQueue) (frame : Bytes) : Option WriteQueue :=
  if q.served ∧ q.hasRoom then some { q with frames := q.frames ++ [frame] } else none

/-- Takes the first frame. -/
def pop (q : WriteQueue) : Option Bytes × WriteQueue :=
  match q.frames with
  | [] => (none, q)
  | f :: rest => (some f, { q with frames := rest })

/-- Nobody takes frames any more; those that wait are lost. -/
def abandon (q : WriteQueue) : WriteQueue :=
  { q with frames := [], served := false }

end WriteQueue

/-- A physical connection of a slot, or a placeholder that carries nothing. -/
structure Link where
  slot : Slot
  state : LinkState
  queue : Option WriteQueue
  /-- The requests sent here that wait for an answer, each once. -/
  inflight : List RequestId
  deriving DecidableEq, Repr

namespace Link

/-- A connection that carries requests. -/
def active (slot : Slot) (capacity : Nat) : Link :=
  ⟨slot, .active, some ⟨capacity, [], true⟩, []⟩

/-- A placeholder for a slot that could not be connected. -/
def placeholder (slot : Slot) : Link :=
  ⟨slot, .inactive, none, []⟩

/-- The connection is in use. -/
def isActive (l : Link) : Bool :=
  l.state == .active

/-- The connection is in use and takes another frame. -/
def isWritable (l : Link) : Bool :=
  l.isActive && l.queue.any WriteQueue.hasRoom

/-- Queues a frame, if the queue takes it. -/
def send? (l : Link) (frame : Bytes) : Option Link :=
  (l.queue.bind fun q => q.push? frame).map fun q => { l with queue := some q }

/-- Takes the first queued frame, as the writer does. -/
def takeFrame (l : Link) : Option Bytes × Link :=
  match l.queue with
  | none => (none, l)
  | some q =>
    let (frame, q) := q.pop
    (frame, { l with queue := some q })

/-- The writer is gone. -/
def abandon (l : Link) : Link :=
  { l with queue := l.queue.map WriteQueue.abandon }

/-- Moves from one state to another; nothing happens in any other state. -/
def transition (l : Link) (source target : LinkState) : Bool × Link :=
  if l.state = source then (true, { l with state := target }) else (false, l)

/-- Ends the connection. -/
def close (l : Link) : Link :=
  { l with state := .closed }

/-- Remembers a request. -/
def track (l : Link) (id : RequestId) : Link :=
  if id ∈ l.inflight then l else { l with inflight := l.inflight ++ [id] }

/-- Forgets a request. -/
def untrack (l : Link) (id : RequestId) : Link :=
  { l with inflight := l.inflight.filter (· != id) }

/-- Forgets all requests; gives them. -/
def takeInflight (l : Link) : List RequestId × Link :=
  (l.inflight, { l with inflight := [] })

/-- The connection in diagnostics. -/
def text (l : Link) : String :=
  Text.record "ClientConnection" [("slot", Text.quoted l.slot.name), ("state", l.state.name)]

end Link

end RemoteCall
