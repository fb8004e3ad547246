import RemoteCall.Location
import RemoteCall.Service.Method
import RemoteCall.Service.Weight

/-!
# Services

A service is a set of methods published under one number at one address. Its methods get their
numbers in the order of registration, from 1 to 127, and get new ones when the service is merged
into another, so callers use the numbers that registration and merging give back.
-/

namespace RemoteCall

/-- The largest number a method can have. -/
def maxMethodId : Nat := 127

/-- The numbers that a service has left for its methods. -/
structure MethodIds where
  next : Nat
  deriving DecidableEq, Repr

namespace MethodIds

/-- All numbers are left. -/
def fresh : MethodIds := ⟨1⟩

/-- Takes the next number. -/
def take (ids : MethodIds) : Except Refusal (MethodId × MethodIds) :=
  if ids.next ≤ maxMethodId then .ok (UInt8.ofNat ids.next, ⟨ids.next + 1⟩)
  else .error .tooManyMethods

/-- Takes `count` numbers in a row; gives what the last of them was. -/
def takeLast (ids : MethodIds) : (count : Nat) → Option (Except Refusal MethodId)
  | 0 => none
  | 1 => some (ids.take.map Prod.fst)
  | count + 1 =>
    match ids.take with
    | .ok (_, ids) => ids.takeLast count
    | .error e => some (.error e)

end MethodIds

/-- The methods published under one service number at one address. -/
structure Service where
  id : ServiceId
  name : String
  address : SocketAddress
  /-- The endpoint of the directory in which the service is announced. -/
  endpoint : Option String
  weight : Weight
  /-- The number of input and output threads, when the service asks for one. -/
  ioThreads : Option Nat
  /-- In the order of their numbers. -/
  methods : List Method
  ids : MethodIds
  serializers : Serializers

namespace Service

/-- A service without methods. Its number follows from its name. -/
def new (name : String) (address : SocketAddress) : Service :=
  { id := serviceId name
    name
    address
    endpoint := none
    weight := .least
    ioThreads := none
    methods := []
    ids := .fresh
    serializers := .standard }

/-- Announced in the directory of an endpoint as well. -/
def withEndpoint (s : Service) (endpoint : String) : Service :=
  { s with endpoint := some endpoint }

/-- With another weight. -/
def withWeight (s : Service) (weight : Weight) : Service :=
  { s with weight }

/-- With this many input and output threads, at least one. -/
def withIoThreads (s : Service) (count : Nat) : Service :=
  { s with ioThreads := some (max count 1) }

/-- With other serializers for the methods still to be registered. -/
def withSerializers (s : Service) (serializers : Serializers) : Service :=
  { s with serializers }

/-- The method of this number. -/
def method? (s : Service) (id : MethodId) : Option Method :=
  s.methods.find? fun m => m.id == id

/-- The first method of this name. -/
def methodNamed? (s : Service) (name : String) : Option Method :=
  s.methods.find? fun m => m.name == name

/-- Puts a method into a list ordered by number, in place of one with the same number. -/
def insertMethod (m : Method) : List Method → List Method
  | [] => [m]
  | n :: rest =>
    if m.id < n.id then m :: n :: rest
    else if m.id = n.id then m :: rest
    else n :: insertMethod m rest

/-- Registers a method under the next number. A refusal changes nothing. -/
def register (s : Service) (signature : Signature) (handler : Handler) :
    Except Refusal (MethodId × Service) :=
  if (s.methodNamed? signature.name).isSome then .error (.nameTaken signature.name s.name)
  else do
    let (id, ids) ← s.ids.take
    let m := Method.ofSignature s.id id signature (some handler) s.serializers
    pure (id, { s with ids, methods := insertMethod m s.methods })

/-- Registers methods in order; gives what became of each. -/
def registerAll (s : Service) :
    List (Signature × Handler) → List (Except Refusal MethodId) × Service
  | [] => ([], s)
  | (signature, handler) :: rest =>
    match s.register signature handler with
    | .ok (id, s) =>
      let (results, s) := s.registerAll rest
      (.ok id :: results, s)
    | .error e =>
      let (results, s) := s.registerAll rest
      (.error e :: results, s)

/-- Gives each method the next number. -/
def renumber (ids : MethodIds) : List Method → Except Refusal (List (MethodId × Method) × MethodIds)
  | [] => .ok ([], ids)
  | m :: rest => do
    let (id, ids) ← ids.take
    let (renumbered, ids) ← renumber ids rest
    pure ((m.id, { m with id }) :: renumbered, ids)

/-- What became of the methods of a service that was merged: old and new numbers. -/
abbrev Renumbering := List (MethodId × MethodId)

/-- Takes over the methods of another service under new numbers, in the order of their old ones. A
refusal changes nothing. -/
def merge (s other : Service) : Except Refusal (Renumbering × Service) :=
  if other.id ≠ s.id then .error (.otherService other.id s.id)
  else if other.address ≠ s.address then
    .error (.otherAddress s.name s.address.text other.address.text)
  else
    match other.methods.find? fun m => (s.methodNamed? m.name).isSome with
    | some m => .error (.nameTaken m.name s.name)
    | none => do
      let (renumbered, ids) ← renumber s.ids other.methods
      let methods := renumbered.foldl (fun ms r => insertMethod r.2 ms) s.methods
      pure (renumbered.map fun r => (r.1, r.2.id), { s with ids, methods })

/-- Where clients find the service. -/
def location (s : Service) : Location :=
  match s.endpoint with
  | some endpoint => .directory endpoint s.name
  | none => .address s.address

/-- The description of the service. -/
def info (s : Service) : ServiceInfo :=
  ⟨s.id, s.name, s.weight.val, s.methods.map Method.info⟩

/-- The service of a description, without handlers. The numbers are taken over as they are; of two
methods with one number the later one stays. -/
def ofInfo (info : ServiceInfo) (address : SocketAddress) (serializers : Serializers) :
    Except Refusal Service := do
  let weight ← Weight.ofByte info.weight
  let blank : Service :=
    { id := info.id, name := info.name, address, endpoint := none, weight, ioThreads := none,
      methods := [], ids := .fresh, serializers }
  let add (methods : List Method) (m : MethodInfo) : Except Refusal (List Method) :=
    if 1 ≤ m.id.toNat ∧ m.id.toNat ≤ maxMethodId then
      .ok (insertMethod (.ofInfo info.id m serializers) methods)
    else .error (.methodNumber m.name m.id)
  let methods ← info.methods.foldlM add []
  pure { blank with methods }

end Service

end RemoteCall
