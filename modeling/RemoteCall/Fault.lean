import RemoteCall.Compact

/-!
# Faults

A fault is the body of an answer that says why there is no result: a kind that programs react to
and a message for people. The kinds are numbered on the wire in the order given here.
-/

namespace RemoteCall

/-- What went wrong with a call. -/
inductive FaultKind where
  /-- The caller used the library wrongly. -/
  | clientError
  | serverStopping
  | clientStopping
  /-- A handler failed while it ran. -/
  | serverError
  /-- The server could not read or write a value. -/
  | serializerError
  /-- A frame had a type that its receiver does not accept. -/
  | unsupportedType
  /-- The server is overloaded; the call may be sent again. -/
  | serviceBusy
  /-- The client could not read or write a value. -/
  | clientSerializerError
  /-- The server does not have the service or the method. -/
  | unknownService
  deriving DecidableEq, Repr

namespace FaultKind

/-- Every kind, in the order of their numbers on the wire. -/
def all : List FaultKind :=
  [clientError, serverStopping, clientStopping, serverError, serializerError, unsupportedType,
   serviceBusy, clientSerializerError, unknownService]

/-- The kind's number on the wire. -/
def number : FaultKind → Nat
  | clientError => 0
  | serverStopping => 1
  | clientStopping => 2
  | serverError => 3
  | serializerError => 4
  | unsupportedType => 5
  | serviceBusy => 6
  | clientSerializerError => 7
  | unknownService => 8

/-- The kind's name. -/
def name : FaultKind → String
  | clientError => "ClientError"
  | serverStopping => "RpcServerStopping"
  | clientStopping => "RpcClientStopping"
  | serverError => "ServerError"
  | serializerError => "SerializerError"
  | unsupportedType => "NotSupportType"
  | serviceBusy => "ServiceBusy"
  | clientSerializerError => "ClientSerializerError"
  | unknownService => "NotExistServiceId"

/-- The kind of this name. -/
def ofName? (s : String) : Option FaultKind :=
  all.find? fun k => k.name == s

/-- A call that fails with this kind goes back to its retry loop. -/
def isTransient : FaultKind → Bool
  | serviceBusy => true
  | _ => false

@[simp] theorem all_getElem?_number (k : FaultKind) : all[k.number]? = some k := by
  cases k <;> rfl

end FaultKind

/-- Why a call has no result. -/
structure Fault where
  kind : FaultKind
  message : String
  deriving DecidableEq, Repr

namespace Fault

/-- The fault in words. -/
def text (f : Fault) : String :=
  f.kind.name ++ ": " ++ f.message

/-- The body of a frame that carries the fault. -/
def encode (f : Fault) : Bytes :=
  Compact.varint f.kind.number ++ Compact.text f.message

/-- Takes a fault off the front of a byte string. An unknown kind is refused before its message is
read. -/
def reader : Compact.Reader Fault := do
  match FaultKind.all[← Compact.readWord]? with
  | none => throw .noSuchAlternative
  | some kind => pure ⟨kind, ← Compact.readText⟩

/-- The fault in the body of a frame. -/
def decode (body : Bytes) : Except Compact.Failure Fault :=
  Compact.decode reader body

end Fault

end RemoteCall
