import RemoteCall.Frame
import RemoteCall.Json.Error

/-!
# Errors

Every operation of the library fails with an `Error`. An error has a message for people and a
`FaultKind` for programs, and turns into the `Fault` that is written back to a peer; `withCall`
ties it to the request that it belongs to.
-/

namespace RemoteCall

/-- Which failure of an input or output operation it was, as far as it makes a difference. -/
inductive IoKind where
  | timedOut
  | wouldBlock
  | connectionReset
  | connectionAborted
  | connectionRefused
  | notConnected
  | brokenPipe
  | unexpectedEof
  | interrupted
  | other
  deriving DecidableEq, Repr

namespace IoKind

/-- Every kind but `other`, with its name. -/
def named : List (String × IoKind) :=
  [("TimedOut", timedOut), ("WouldBlock", wouldBlock), ("ConnectionReset", connectionReset),
   ("ConnectionAborted", connectionAborted), ("ConnectionRefused", connectionRefused),
   ("NotConnected", notConnected), ("BrokenPipe", brokenPipe), ("UnexpectedEof", unexpectedEof),
   ("Interrupted", interrupted)]

/-- The kind of this name. -/
def ofName (s : String) : IoKind :=
  ((named.find? fun k => k.1 == s).map Prod.snd).getD other

end IoKind

/-- A failure of an input or output operation. -/
structure IoError where
  kind : IoKind
  message : String
  deriving DecidableEq, Repr

/-- Why an operation failed. -/
inductive Error where
  /-- The peer, or this side in its place, answered with a fault. -/
  | rpc (fault : Fault) (call : Option CallRef)
  /-- No answer came within this many milliseconds. -/
  | timeout (ms : Nat)
  /-- Every attempt of a call failed; `request` is the last one that was sent, or zero. -/
  | retriesExhausted (attempts : Nat) (request : RequestId)
  | frameTooLarge (size max : Nat)
  | connection (message : String)
  | invalidLocation (message : String)
  | registry (message : String)
  /-- Bytes are not in the compact format. -/
  | compact (failure : Compact.Failure)
  /-- Bytes are not JSON. -/
  | json (error : Json.ParseError)
  | io (message : String)
  deriving DecidableEq, Repr

namespace Error

/-- An error with a fault of its own that belongs to no request. -/
def ofFault (kind : FaultKind) (message : String) : Error :=
  rpc ⟨kind, message⟩ none

/-- The error in words. -/
def message : Error → String
  | rpc fault none => fault.text
  | rpc fault (some call) => fault.text ++ " (" ++ call.text ++ ")"
  | timeout ms => s!"Request timeout after {ms}ms"
  | retriesExhausted attempts request =>
    s!"Retries exhausted after {attempts} attempts (last request {request})"
  | frameTooLarge size max => s!"Frame too large: {size} bytes (max {max} bytes)"
  | connection m => "Connection error: " ++ m
  | invalidLocation m => "Invalid location: " ++ m
  | registry m => "Registry error: " ++ m
  | compact failure => "Serialization error: " ++ failure.message
  | json error => "JSON serialization error: " ++ error.message
  | io m => "IO error: " ++ m

/-- The name of the cause. -/
def name : Error → String
  | rpc _ _ => "Rpc"
  | timeout _ => "Timeout"
  | retriesExhausted _ _ => "RetriesExhausted"
  | frameTooLarge _ _ => "FrameTooLarge"
  | connection _ => "Connection"
  | invalidLocation _ => "InvalidLocation"
  | registry _ => "Registry"
  | compact _ => "Serialization"
  | json _ => "JsonSerialization"
  | io _ => "Io"

/-- The kind of fault that a peer or a caller sees. -/
def kind : Error → FaultKind
  | rpc fault _ => fault.kind
  | frameTooLarge _ _ | compact _ | json _ => .serializerError
  | _ => .clientError

/-- The request that the error belongs to, if it is known. -/
def call? : Error → Option CallRef
  | rpc _ call => call
  | _ => none

/-- The fault that is written back to a peer. -/
def toFault : Error → Fault
  | rpc fault _ => fault
  | e => ⟨e.kind, e.message⟩

/-- The same failure, tied to a request. -/
def withCall (e : Error) (call : CallRef) : Error :=
  rpc e.toFault (some call)

/-- A failed operation on a stream: a peer that is gone and a peer that is slow are told apart from
other failures. -/
def ofIo (context : String) (e : IoError) : Error :=
  match e.kind with
  | .timedOut | .wouldBlock => timeout 0
  | .interrupted | .other => io e.message
  | _ => connection (context ++ ": " ++ e.message)

@[simp] theorem call?_withCall (e : Error) (call : CallRef) :
    (e.withCall call).call? = some call := rfl

@[simp] theorem toFault_withCall (e : Error) (call : CallRef) :
    (e.withCall call).toFault = e.toFault := rfl

@[simp] theorem kind_toFault (e : Error) : e.toFault.kind = e.kind := by
  cases e <;> rfl

end Error

end RemoteCall
