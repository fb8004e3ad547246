import RemoteCall.Frame

/-!
# Service descriptions

What a server tells its clients about a service: its number, name, weight and methods. Clients learn
method numbers from it, because the numbers change when services are merged.
-/

namespace RemoteCall

/-- What a client knows of a method. -/
structure MethodInfo where
  name : String
  parameterType : String
  returnType : String
  id : MethodId
  deriving DecidableEq, Repr

/-- What a client knows of a service. -/
structure ServiceInfo where
  id : ServiceId
  name : String
  weight : UInt8
  methods : List MethodInfo
  deriving DecidableEq, Repr

namespace MethodInfo

/-- The method in the compact format. -/
def encode (m : MethodInfo) : Bytes :=
  Compact.text m.name ++ Compact.text m.parameterType ++ Compact.text m.returnType ++ [m.id]

/-- Takes a method off the front of a byte string. -/
def reader : Compact.Reader MethodInfo := do
  let name ← Compact.readText
  let parameterType ← Compact.readText
  let returnType ← Compact.readText
  let id ← Compact.readByte
  pure ⟨name, parameterType, returnType, id⟩

end MethodInfo

namespace ServiceInfo

/-- The description as the body of a frame. -/
def encode (s : ServiceInfo) : Bytes :=
  Compact.varint s.id.toNat ++ Compact.text s.name ++ [s.weight] ++
    Compact.list MethodInfo.encode s.methods

/-- Takes a description off the front of a byte string. -/
def reader : Compact.Reader ServiceInfo := do
  let id ← Compact.readWord
  let name ← Compact.readText
  let weight ← Compact.readByte
  let methods ← Compact.readList MethodInfo.reader
  pure ⟨UInt32.ofNat id, name, weight, methods⟩

/-- The description in the body of a frame. -/
def decode (body : Bytes) : Except Compact.Failure ServiceInfo :=
  Compact.decode reader body

/-- The first method of this name. -/
def method? (s : ServiceInfo) (name : String) : Option MethodInfo :=
  s.methods.find? fun m => m.name == name

end ServiceInfo

end RemoteCall
