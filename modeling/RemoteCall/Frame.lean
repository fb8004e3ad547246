import RemoteCall.Hashing
import RemoteCall.Fault

/-!
# Frames

Everything on the wire is a frame: a header of 16 bytes, all numbers big-endian, and a body.

```text
| service 4 | request 8 | method 1 | type 1 | body length 2 | body |
```

The type says how the body is read. Two requests are reserved: a metadata probe asks a server for
the description of a service, and a heartbeat asks whether the peer is still there.
-/

namespace RemoteCall

/-- The length of a frame's header. -/
def headerLength : Nat := 16

/-- The longest body that the length field can describe. -/
def maxBodyLength : Nat := 65535

/-- The longest frame that is accepted unless another limit is set. -/
def defaultFrameLimit : Nat := 1048576

/-- How a frame's body is read. -/
inductive FrameType where
  /-- No body: no parameter or no result. -/
  | empty
  /-- The parameter of a request. -/
  | object
  /-- The description of a service, or the question for it. -/
  | metadata
  /-- A fault. -/
  | abnormal
  /-- The result of a request. -/
  | normal
  /-- A sign of life, without a body. -/
  | heartbeat
  deriving DecidableEq, Repr

namespace FrameType

/-- Every frame type. -/
def all : List FrameType :=
  [empty, object, metadata, abnormal, normal, heartbeat]

/-- The type's byte in a header. -/
def code : FrameType → UInt8
  | empty => 0
  | object => 1
  | metadata => 124
  | abnormal => 125
  | normal => 126
  | heartbeat => 127

/-- The type's name. -/
def name : FrameType → String
  | empty => "N/A"
  | object => "OBJECT"
  | metadata => "METADATA"
  | abnormal => "ABNORMAL"
  | normal => "NORMAL"
  | heartbeat => "HEARTBEAT"

/-- The type of a header byte. -/
def ofCode? (code : UInt8) : Option FrameType :=
  all.find? fun t => t.code == code

@[simp] theorem ofCode?_code (t : FrameType) : ofCode? t.code = some t := by
  cases t <;> rfl

end FrameType

/-- The request that a failure belongs to. -/
structure CallRef where
  service : ServiceId
  request : RequestId
  method : MethodId
  deriving DecidableEq, Repr

/-- The reference in words. -/
def CallRef.text (r : CallRef) : String :=
  s!"service {r.service} method {r.method} request {r.request}"

/-- The routing part of a frame. The body's length is not stored: it follows from the body. -/
structure Header where
  service : ServiceId
  request : RequestId
  method : MethodId
  type : FrameType
  deriving DecidableEq, Repr

namespace Header

/-- The request and method number of a metadata probe. -/
def probeId : MethodId := FrameType.metadata.code

/-- The request and method number of a heartbeat. -/
def heartbeatId : MethodId := FrameType.heartbeat.code

/-- The header that asks for the description of a service. -/
def metadataProbe (service : ServiceId) : Header :=
  ⟨service, probeId.toUInt64, probeId, .metadata⟩

/-- The header of a sign of life. -/
def heartbeat (service : ServiceId) : Header :=
  ⟨service, heartbeatId.toUInt64, heartbeatId, .heartbeat⟩

/-- The same routing with another type, as an answer has it. -/
def withType (h : Header) (type : FrameType) : Header :=
  { h with type }

/-- The request that the header belongs to. -/
def call (h : Header) : CallRef :=
  ⟨h.service, h.request, h.method⟩

/-- The header answers a metadata probe. -/
def answersProbe (h : Header) : Bool :=
  h.request == probeId.toUInt64 && h.method == probeId

end Header

/-- A header and its body. -/
structure Frame where
  header : Header
  body : Bytes
  deriving DecidableEq, Repr

namespace Frame

/-- A frame without a body. -/
def empty (header : Header) : Frame :=
  ⟨header, []⟩

/-- The frame that answers a request with a fault. -/
def fault (request : Header) (f : Fault) : Frame :=
  ⟨request.withType .abnormal, f.encode⟩

end Frame

end RemoteCall
