import RemoteCall.Error

/-!
# Refusals

Why a service cannot be described, extended, merged, published or started as asked.
-/

namespace RemoteCall

/-- Why a change to services is refused. -/
inductive Refusal where
  | weight (weight : UInt8)
  /-- The service's method numbers are used up. -/
  | tooManyMethods
  /-- A description lists a method under a number no method can have. -/
  | methodNumber (name : String) (id : MethodId)
  | nameTaken (method service : String)
  /-- The two services to be merged have different numbers. -/
  | otherService (source target : ServiceId)
  | otherAddress (service address other : String)
  /-- Nothing is published once the server has started. -/
  | started (service : String)
  | noServices
  deriving DecidableEq, Repr

namespace Refusal

/-- The refusal in words. -/
def message : Refusal → String
  | weight w => s!"weight {w} outside 1..=10"
  | tooManyMethods => "a service can hold at most 127 methods"
  | methodNumber name id => s!"method {name} has invalid id {id}"
  | nameTaken method service => s!"method {method} already registered on {service}"
  | otherService source target => s!"cannot merge service {source} into service {target}"
  | otherAddress service address other =>
    s!"service {service} is already published at {address}, not {other}"
  | started service => s!"cannot publish {service} after the server started"
  | noServices => "no services published"

/-- The refusal as an error. -/
def toError (r : Refusal) : Error :=
  .registry r.message

end Refusal

end RemoteCall
