import RemoteCall.Service.Execution
import RemoteCall.Service.Info
import RemoteCall.Serializer

/-!
# Methods

A method takes one value and gives one value or a fault. On the server it has a handler; a client
knows it only by description.
-/

namespace RemoteCall

/-- How a handler ends. -/
inductive Outcome where
  | value (v : Value)
  | fault (f : Fault)
  /-- The handler broke off, with a text if it gave one. -/
  | panic (text : Option String)

/-- The implementation of a method: what it makes of each parameter, and whether it waits to be
released before it does. -/
structure Handler where
  run : Value → Outcome
  waits : Bool

namespace Handler

/-- Gives back its parameter. -/
def echo : Handler := ⟨.value, false⟩

/-- Gives the same value every time. -/
def constant (v : Value) : Handler := ⟨fun _ => .value v, false⟩

/-- Fails every time. -/
def failing (f : Fault) : Handler := ⟨fun _ => .fault f, false⟩

/-- Breaks off every time. -/
def panicking (text : Option String) : Handler := ⟨fun _ => .panic text, false⟩

/-- Waits to be released, then gives back its parameter. -/
def waiting : Handler := ⟨.value, true⟩

/-- A JSON value for something that may be missing. -/
def optionalJson {α : Type} (toJson : α → Json) (x : Option α) : Json :=
  (x.map toJson).getD .null

/-- Tells what it received: the kind of the value, what the value reads as, and its text. -/
def describing : Handler :=
  ⟨fun v => .value (.object (.ofMembers
    [("variant", .string v.kindName), ("i64", optionalJson Json.ofInt v.toInt64?),
     ("bool", optionalJson Json.bool v.toBool?), ("str", optionalJson Json.string v.toText?),
     ("text", .string v.text)])), false⟩

end Handler

/-- What a method is registered with. -/
structure Signature where
  name : String
  parameterType : String
  returnType : String
  execution : Execution
  /-- Serializers other than those of the declared types. -/
  parameterSerializer : Option Serializer
  returnSerializer : Option Serializer

/-- A method without parameter and result, on a thread of its own. -/
def Signature.ofName (name : String) : Signature :=
  { name
    parameterType := Serializer.emptyTypeName
    returnType := Serializer.emptyTypeName
    execution := .single
    parameterSerializer := none
    returnSerializer := none }

/-- A method of a service. -/
structure Method where
  service : ServiceId
  id : MethodId
  name : String
  parameterType : String
  returnType : String
  parameterSerializer : Serializer
  returnSerializer : Serializer
  execution : Execution
  handler : Option Handler

namespace Method

/-- The method of a signature. Serializers that the signature leaves open follow from the declared
types. -/
def ofSignature (service : ServiceId) (id : MethodId) (s : Signature) (handler : Option Handler)
    (serializers : Serializers) : Method :=
  { service
    id
    name := s.name
    parameterType := s.parameterType
    returnType := s.returnType
    parameterSerializer := s.parameterSerializer.getD (serializers.resolve s.parameterType)
    returnSerializer := s.returnSerializer.getD (serializers.resolve s.returnType)
    execution := s.execution
    handler }

/-- The method of a description, without a handler. -/
def ofInfo (service : ServiceId) (info : MethodInfo) (serializers : Serializers) : Method :=
  .ofSignature service info.id
    { Signature.ofName info.name with
      parameterType := info.parameterType, returnType := info.returnType } none serializers

/-- Runs the method on a parameter. A method known by description only is a fault. -/
def invoke (m : Method) (parameter : Value) : Outcome :=
  match m.handler with
  | some h => h.run parameter
  | none => .fault ⟨.unknownService, s!"method {m.name} has no handler bound"⟩

/-- The method waits to be released before it ends. -/
def waits (m : Method) : Bool :=
  m.handler.any Handler.waits

/-- The description of the method. -/
def info (m : Method) : MethodInfo :=
  ⟨m.name, m.parameterType, m.returnType, m.id⟩

end Method

end RemoteCall
