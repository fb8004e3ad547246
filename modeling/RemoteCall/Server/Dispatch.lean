import RemoteCall.Server.Basic
import RemoteCall.Frame.Reader

/-!
# Frames that arrive

Every frame that a server reads is answered at once or becomes a task.

| type | what happens |
|------|--------------|
| object, empty | a task for the method's executor |
| heartbeat | the same frame comes back |
| metadata | the description of the service |
| normal, abnormal | a fault |
-/

namespace RemoteCall.Server

/-- Answers a request with a fault. -/
def refuseRequest (s : Server) (c : ConnectionId) (request : Header) (fault : Fault) : Server :=
  s.onConnection c fun connection => connection.refuse request fault

/-- The fault of a frame that only clients accept. -/
def unsupportedFault (type : FrameType) : Fault :=
  ⟨.unsupportedType, type.name ++ " frames are not accepted by a server"⟩

/-- The fault of a question for a service that is not here. -/
def unknownServiceFault (service : ServiceId) : Fault :=
  ⟨.unknownService, s!"service {service} is not published here"⟩

/-- The fault of a request for a method that is not here. -/
def unknownMethodFault (h : Header) : Fault :=
  ⟨.unknownService, s!"no method {h.method} on service {h.service}"⟩

/-- Answers the question for the description of a service. -/
def describe (s : Server) (c : ConnectionId) (h : Header) : Server :=
  match s.registry.service? h.service with
  | none => s.refuseRequest c h (unknownServiceFault h.service)
  | some service =>
    let answer : Frame := ⟨h.withType .metadata, service.info.encode⟩
    s.onConnection c fun connection => (connection.sendFrame answer).2

/-- The parameter of a request. -/
def parameterOf (m : Method) (frame : Frame) : Except Serializer.Failure Value :=
  match frame.header.type with
  | .empty => .ok .empty
  | _ => m.parameterSerializer.deserialize frame.body

/-- The task of a request and the executor it is for, or the fault that answers the request. -/
def taskOf (s : Server) (c : ConnectionId) (frame : Frame) : Except Fault (ExecutorIndex × Task) :=
  let h := frame.header
  match s.registry.method? h.service h.method, s.groups.index? (h.service, h.method) with
  | some m, some i =>
    match parameterOf m frame with
    | .ok parameter => .ok (i, (Task.new h m parameter c).numbered s.taken)
    | .error e => .error ⟨.serializerError, e.toError.message⟩
  | _, _ => .error (unknownMethodFault h)

/-- A task that its reader still has to hand over. -/
inductive Handing where
  /-- To be offered to its executor. -/
  | offered (t : Task) (i : ExecutorIndex)
  /-- Refused by a full queue, to be delayed. -/
  | refused (t : Task) (i : ExecutorIndex)

/-- Makes a task of a request. -/
def request (s : Server) (c : ConnectionId) (frame : Frame) : Option Handing × Server :=
  if s.stopping then (none, s.refuseRequest c frame.header stoppingFault)
  else
    match s.taskOf c frame with
    | .ok (i, t) => (some (.offered t i), { s with taken := s.taken + 1 })
    | .error fault => (none, s.refuseRequest c frame.header fault)

/-- Takes a frame that has arrived on a connection: answers it, or makes a task of it. -/
def receive (s : Server) (c : ConnectionId) (frame : Frame) : Option Handing × Server :=
  match frame.header.type with
  | .heartbeat =>
    (none, s.onConnection c fun connection => (connection.sendFrame (.empty frame.header)).2)
  | .metadata => (none, s.describe c frame.header)
  | .object | .empty => s.request c frame
  | .normal | .abnormal =>
    (none, s.refuseRequest c frame.header (unsupportedFault frame.header.type))

/-- A reader goes on to hand over a task. When the executor has been closed the connection is not
read any more. -/
def handOver (s : Server) : Handing → Option Handing × Server
  | .offered t i =>
    match s.submit i t with
    | (none, s) | (some .accepted, s) => (none, s)
    | (some (.rejected t), s) => (some (.refused t i), s)
    | (some (.closed t), s) => (none, (s.pause t.connection).refuse t stoppingFault)
  | .refused t i => (none, s.delay t i)

/-- Takes a frame that has arrived on a connection, and hands over its task if it becomes one. -/
def dispatch (s : Server) (c : ConnectionId) (frame : Frame) : Server :=
  match s.receive c frame with
  | (none, s) => s
  | (some h, s) =>
    match s.handOver h with
    | (none, s) => s
    | (some h, s) => (s.handOver h).2

/-- Takes a failure to read a frame; tells whether reading goes on. A failure that belongs to a
request is answered. -/
def readFailure (s : Server) (c : ConnectionId) (e : Error) : Bool × Server :=
  match e.call? with
  | some r => (true, s.refuseRequest c ⟨r.service, r.request, r.method, .abnormal⟩ e.toFault)
  | none => (e.keepsStream, s)

end RemoteCall.Server
