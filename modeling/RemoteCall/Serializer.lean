import RemoteCall.Value
import RemoteCall.Error
import RemoteCall.Json.Parser

/-!
# Serializers

A method declares its parameter and its result by type name, and the name selects how values become
frame bodies. The nine primitive types have fixed big-endian forms, text has a two-byte length, and
every other type name means JSON.

`Serializer.serialize` gives the bytes that are appended to a frame; `Serializer.deserialize` reads
a whole body.
-/

namespace RemoteCall

/-- The types with a form of their own. -/
inductive Primitive where
  | bool
  | byte
  | char
  | short
  | int
  | long
  | float
  | double
  | string
  deriving DecidableEq, Repr

namespace Primitive

/-- Every primitive type. -/
def all : List Primitive :=
  [bool, byte, char, short, int, long, float, double, string]

/-- The name that declares the type. -/
def typeName : Primitive → String
  | bool => "bool"
  | byte => "byte"
  | char => "char"
  | short => "short"
  | int => "int"
  | long => "long"
  | float => "float"
  | double => "double"
  | string => "string"

end Primitive

/-- How values of one declared type become bodies. -/
inductive Serializer where
  /-- No parameter or no result. -/
  | empty
  | primitive (p : Primitive)
  /-- JSON, under the given type name. -/
  | object (typeName : String)
  deriving DecidableEq, Repr

namespace Serializer

/-- Why a body is not of its declared type. -/
inductive Malformed where
  | size (expected got : Nat)
  | unexpectedBody
  | loneSurrogate
  | noLength
  | length (declared got : Nat)
  | encoding (failure : Utf8.Failure)
  deriving DecidableEq, Repr

/-- The reason in words. -/
def Malformed.message : Malformed → String
  | size expected got => s!"expected {expected} bytes, got {got}"
  | unexpectedBody => "unexpected body"
  | loneSurrogate => "lone surrogate"
  | noLength => "missing length prefix"
  | length declared got => s!"length prefix {declared} but {got} bytes follow"
  | encoding failure => failure.message

/-- Why a value cannot be written or a body cannot be read. -/
inductive Failure where
  /-- The value is not of the declared type. -/
  | mismatch (expected got : String)
  | malformed (typeName : String) (reason : Malformed)
  /-- The character has no single UTF-16 unit. -/
  | wideChar (c : Char)
  | longText (bytes : Nat)
  | json (error : Json.ParseError)
  deriving DecidableEq, Repr

/-- The failure as an error. -/
def Failure.toError : Failure → Error
  | mismatch expected got => .ofFault .serializerError s!"expected {expected} value, got {got}"
  | malformed typeName reason =>
    .ofFault .serializerError s!"malformed {typeName} body: {reason.message}"
  | wideChar c =>
    .ofFault .serializerError ("char " ++ Text.quotedChar c ++ " does not fit in one UTF-16 unit")
  | longText bytes => .ofFault .serializerError s!"string of {bytes} bytes exceeds 65535 bytes"
  | json error => .json error

/-- The name of the type without values. -/
def emptyTypeName : String := "N/A"

/-- The name of the structured type. -/
def objectTypeName : String := "object"

/-- The declared type that the serializer is for. -/
def typeName : Serializer → String
  | empty => emptyTypeName
  | primitive p => p.typeName
  | object name => name

/-- The longest text a string body can hold, in bytes. -/
def maxTextLength : Nat := 65535

/-- The body of a value under a primitive type. -/
def serializePrimitive : Primitive → Value → Except Failure Bytes
  | .bool, .bool b => .ok [if b then 1 else 0]
  | .byte, .byte n => .ok [n.toUInt8]
  | .char, .char c =>
    if c.toNat < 0x10000 then .ok (Bytes.ofBigEndian 2 c.toNat) else .error (.wideChar c)
  | .short, .short n => .ok (Bytes.ofBigEndian 2 n.toUInt16.toNat)
  | .int, .int n => .ok (Bytes.ofBigEndian 4 n.toUInt32.toNat)
  | .long, .long n => .ok (Bytes.ofBigEndian 8 n.toUInt64.toNat)
  | .float, .float x => .ok (Bytes.ofBigEndian 4 x.bits.toNat)
  | .double, .double x => .ok (Bytes.ofBigEndian 8 x.bits.toNat)
  | .string, .string s =>
    let bytes := Utf8.encode s
    if bytes.length ≤ maxTextLength then .ok (Bytes.ofBigEndian 2 bytes.length ++ bytes)
    else .error (.longText bytes.length)
  | p, v => .error (.mismatch p.typeName v.kindName)

/-- The body of a value. -/
def serialize : Serializer → Value → Except Failure Bytes
  | empty, .empty => .ok []
  | empty, v => .error (.mismatch emptyTypeName v.kindName)
  | primitive p, v => serializePrimitive p v
  | object _, v => .ok (Utf8.encode v.toJson.render)

/-- The number in a body of exactly `width` bytes. -/
def fixedWidth (typeName : String) (width : Nat) (body : Bytes) : Except Failure Nat :=
  if body.length = width then .ok (Bytes.toBigEndian body)
  else .error (.malformed typeName (.size width body.length))

/-- The text in a body. -/
def deserializeText (typeName : String) (body : Bytes) : Except Failure String :=
  match Bytes.split? 2 body with
  | none => .error (.malformed typeName .noLength)
  | some (length, bytes) =>
    if Bytes.toBigEndian length = bytes.length then
      (Utf8.decode bytes).mapError fun e => .malformed typeName (.encoding e)
    else .error (.malformed typeName (.length (Bytes.toBigEndian length) bytes.length))

/-- The value of a body under a primitive type. -/
def deserializePrimitive (p : Primitive) (body : Bytes) : Except Failure Value := do
  let number (width : Nat) := fixedWidth p.typeName width body
  match p with
  | .bool => return .bool ((← number 1) ≠ 0)
  | .byte => return .byte (UInt8.ofNat (← number 1)).toInt8
  | .char =>
    let unit ← number 2
    if unit.isValidChar then return .char (Char.ofNat unit)
    else throw (.malformed p.typeName .loneSurrogate)
  | .short => return .short (UInt16.ofNat (← number 2)).toInt16
  | .int => return .int (UInt32.ofNat (← number 4)).toInt32
  | .long => return .long (UInt64.ofNat (← number 8)).toInt64
  | .float => return .float ⟨UInt32.ofNat (← number 4)⟩
  | .double => return .double ⟨UInt64.ofNat (← number 8)⟩
  | .string => return .string (← deserializeText p.typeName body)

/-- The value of a body. -/
def deserialize : Serializer → Bytes → Except Failure Value
  | empty, body =>
    if body.isEmpty then .ok .empty else .error (.malformed emptyTypeName .unexpectedBody)
  | primitive p, body => deserializePrimitive p body
  | object _, body =>
    match Json.parse body with
    | .ok j => .ok (.object j)
    | .error e => .error (.json e)

end Serializer

/-- The serializers known by type name. -/
structure Serializers where
  known : List Serializer

namespace Serializers

/-- No type name has a serializer of its own; every value is JSON. -/
def none : Serializers := ⟨[]⟩

/-- The empty type, the primitive types and the structured type. -/
def standard : Serializers :=
  ⟨.empty :: Primitive.all.map .primitive ++ [.object Serializer.objectTypeName]⟩

/-- Adds a serializer, in place of an earlier one for the same type name. -/
def register (s : Serializers) (x : Serializer) : Serializers :=
  ⟨s.known.filter (fun y => y.typeName != x.typeName) ++ [x]⟩

/-- The type name has a serializer of its own. -/
def contains (s : Serializers) (typeName : String) : Bool :=
  s.known.any fun x => x.typeName == typeName

/-- The serializer of a type name; JSON when it has none of its own. -/
def resolve (s : Serializers) (typeName : String) : Serializer :=
  (s.known.find? fun x => x.typeName == typeName).getD (.object typeName)

end Serializers

end RemoteCall
