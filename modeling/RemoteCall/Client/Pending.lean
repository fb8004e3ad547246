import RemoteCall.Serializer

/-!
# Calls that wait for an answer

A client keeps a table of the requests it has sent. A call leaves the table exactly once: an answer,
a failure or the end of the client delivers its result, or its caller gives up and it is dropped.
`Pending.status` tells where each registered call stands.
-/

namespace RemoteCall

/-- The number of a registration; no two calls share one. -/
abbrev Ticket := Nat

/-- A call that waits for its answer. -/
structure PendingCall where
  id : RequestId
  ticket : Ticket
  /-- How the body of the answer is read. -/
  serializer : Serializer

/-- How a call left the table. -/
inductive Settlement where
  | delivered (result : Except Error Value)
  /-- The table forgot the call without a result. -/
  | dropped

/-- Where a registered call stands. -/
inductive CallStatus where
  | waiting
  | settled (how : Settlement)
  | unknown

/-- The waiting calls, how the others were settled, and the next ticket. -/
structure Pending where
  calls : List PendingCall
  settled : List (Ticket × Settlement)
  next : Ticket

namespace Pending

/-- No call was ever registered. -/
def empty : Pending := ⟨[], [], 0⟩

instance : Inhabited Pending := ⟨empty⟩

/-- The waiting call of a request. -/
def call? (p : Pending) (id : RequestId) : Option PendingCall :=
  p.calls.find? fun c => c.id == id

/-- A call waits under this request. -/
def contains (p : Pending) (id : RequestId) : Bool :=
  (p.call? id).isSome

/-- The number of waiting calls. -/
def size (p : Pending) : Nat :=
  p.calls.length

/-- Where a call stands. -/
def status (p : Pending) (ticket : Ticket) : CallStatus :=
  if p.calls.any fun c => c.ticket == ticket then .waiting
  else
    match p.settled.find? fun s => s.1 == ticket with
    | some s => .settled s.2
    | none => .unknown

/-- Takes the call of a request off the table. Nothing happens when none waits. -/
def settle (p : Pending) (id : RequestId) (how : PendingCall → Settlement) : Bool × Pending :=
  match p.call? id with
  | none => (false, p)
  | some c =>
    (true, { p with
      calls := p.calls.filter fun d => d.id != id
      settled := (c.ticket, how c) :: p.settled })

/-- Drops a call without a result. -/
def remove (p : Pending) (id : RequestId) : Bool × Pending :=
  p.settle id fun _ => .dropped

/-- Registers a call. One that waits under the same request is dropped. -/
def register (p : Pending) (id : RequestId) (serializer : Serializer) : Ticket × Pending :=
  let p := (p.remove id).2
  (p.next, { p with calls := p.calls ++ [⟨id, p.next, serializer⟩], next := p.next + 1 })

/-- The result that an answer gives its call. A body that cannot be read is an error of this call
alone. -/
def resultOf (serializer : Serializer) (frame : Frame) : Except Error Value :=
  let call := frame.header.call
  match frame.header.type with
  | .normal =>
    (serializer.deserialize frame.body).mapError fun e =>
      .rpc ⟨.clientSerializerError, e.toError.message⟩ (some call)
  | .empty => .ok .empty
  | .abnormal =>
    match Fault.decode frame.body with
    | .ok fault => .error (.rpc fault (some call))
    | .error e =>
      .error (.rpc ⟨.clientSerializerError,
        "undecodable error body: " ++ (Error.compact e).message⟩ (some call))
  | type =>
    .error (.rpc ⟨.unsupportedType, type.name ++ " is not a response type"⟩ (some call))

/-- Delivers an answer to its call. -/
def resolve (p : Pending) (frame : Frame) : Bool × Pending :=
  p.settle frame.header.request fun c => .delivered (resultOf c.serializer frame)

/-- Delivers a failure to a call. -/
def fail (p : Pending) (id : RequestId) (e : Error) : Bool × Pending :=
  p.settle id fun _ => .delivered (.error e)

/-- Delivers a fault to every waiting call; gives their number. -/
def failAll (p : Pending) (fault : Fault) : Nat × Pending :=
  let failed := p.calls.map fun c => (c.ticket, Settlement.delivered (.error (.rpc fault none)))
  (p.calls.length, { p with calls := [], settled := failed ++ p.settled })

end Pending

end RemoteCall
