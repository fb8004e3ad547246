import RemoteCall.Sha256
import RemoteCall.Text.Utf8

/-!
# Identifiers and ring positions by hashing

A service is known by a number derived from its name (`serviceId`), and calls and connections meet
on a ring of 64-bit positions (`requestPosition`, `slotPosition`). All of them are prefixes of a
SHA-256 digest.
-/

namespace RemoteCall

/-- The number that stands for a service on the wire. -/
abbrev ServiceId := UInt32

/-- The number that stands for one request on the wire. -/
abbrev RequestId := UInt64

/-- The number that stands for a method of a service on the wire. -/
abbrev MethodId := UInt8

namespace Hashing

/-- The seed of every ring position. -/
def ringSeed : UInt64 := 9527

/-- The first 64 bits of the digest of the seed's eight bytes followed by the data. -/
def hash64 (seed : UInt64) (data : Bytes) : UInt64 :=
  let d := Sha256.digest (Bytes.ofBigEndian 8 seed.toNat ++ data)
  UInt64.ofNat (Bytes.toBigEndian (d.take 8))

/-- The first 32 bits of the digest of the data. -/
def hash32 (data : Bytes) : UInt32 :=
  UInt32.ofNat (Bytes.toBigEndian ((Sha256.digest data).take 4))

/-- The number is negative when its 32 bits are read in two's complement. -/
def isNegative (id : UInt32) : Bool :=
  0x80000000 ≤ id

/-- The decimal text of 32 bits read in two's complement. -/
def signedText (id : UInt32) : String :=
  toString id.toInt32.toInt

/-- Hashes the name with the last value appended until the value is not negative, at most `tries`
times, and clears the sign of a value that still is. -/
def rehash (name : String) : (tries : Nat) → UInt32 → UInt32
  | 0, id => id &&& 0x7fffffff
  | tries + 1, id =>
    if isNegative id then rehash name tries (hash32 (Utf8.encode (name ++ signedText id))) else id

/-- How often a negative value is hashed again; a run this long does not occur. -/
def maxRehashes : Nat := 1024

end Hashing

/-- The number of the service of this name; it is never negative as a 32-bit integer. -/
def serviceId (name : String) : ServiceId :=
  Hashing.rehash name Hashing.maxRehashes (Hashing.hash32 (Utf8.encode name))

/-- The text hashed for one virtual slot of a connection. -/
def slotLabel (connection : String) (slot : Nat) : String :=
  connection ++ "_#_" ++ toString slot

/-- The ring position of one virtual slot of a connection. -/
def slotPosition (connection : String) (slot : Nat) : UInt64 :=
  Hashing.hash64 Hashing.ringSeed (Utf8.encode (slotLabel connection slot))

/-- The ring position of a request. -/
def requestPosition (id : RequestId) : UInt64 :=
  Hashing.hash64 Hashing.ringSeed (Bytes.ofBigEndian 8 id.toNat)

end RemoteCall
