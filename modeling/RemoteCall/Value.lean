import RemoteCall.Json.Printer

/-!
# Call values

A call carries one value in each direction. Methods that need several inputs take a structured
value, which is JSON.
-/

namespace RemoteCall

/-- The parameter or the result of a call. -/
inductive Value where
  | empty
  | bool (b : Bool)
  | byte (n : Int8)
  | char (c : Char)
  | short (n : Int16)
  | int (n : Int32)
  | long (n : Int64)
  | float (x : Binary32)
  | double (x : Binary64)
  | string (s : String)
  | object (j : Json)

namespace Value

instance : Inhabited Value := ⟨empty⟩

/-- The name of the value's kind. -/
def kindName : Value → String
  | empty => "empty"
  | bool _ => "bool"
  | byte _ => "byte"
  | char _ => "char"
  | short _ => "short"
  | int _ => "int"
  | long _ => "long"
  | float _ => "float"
  | double _ => "double"
  | string _ => "string"
  | object _ => "object"

/-- The value is the empty one. -/
def isEmpty : Value → Bool
  | empty => true
  | _ => false

/-- The value's text, when it is one. -/
def toText? : Value → Option String
  | string s => some s
  | object j => j.toText?
  | _ => none

/-- The value's integer, when it is one that fits 64 bits with a sign. -/
def toInt64? : Value → Option Int
  | byte n => some n.toInt
  | short n => some n.toInt
  | int n => some n.toInt
  | long n => some n.toInt
  | object j => j.toInt64?
  | _ => none

/-- The value's truth value, when it is one. -/
def toBool? : Value → Option Bool
  | bool b => some b
  | object j => j.toBool?
  | _ => none

/-- The value as JSON. -/
def toJson : Value → Json
  | empty => .null
  | bool b => .bool b
  | byte n => .ofInt n.toInt
  | char c => .string c.toString
  | short n => .ofInt n.toInt
  | int n => .ofInt n.toInt
  | long n => .ofInt n.toInt
  | float x => .ofBinary x.widen
  | double x => .ofBinary x
  | string s => .string s
  | object j => j

/-- The value in words. -/
def text : Value → String
  | empty => "<empty>"
  | string s => s
  | v => v.toJson.render

end Value

end RemoteCall
