import RemoteCall.Bytes

/-!
# SHA-256

The 256-bit hash of a byte string: the message is padded to whole blocks of 64 bytes, each block is
expanded to 64 words and folded into eight working words, and the digest is those words in
big-endian order.
-/

namespace RemoteCall.Sha256

/-- The eight words carried from block to block. -/
structure Working where
  a : UInt32
  b : UInt32
  c : UInt32
  d : UInt32
  e : UInt32
  f : UInt32
  g : UInt32
  h : UInt32

namespace Working

/-- Word by word sum, modulo 2^32. -/
def add (x y : Working) : Working :=
  ⟨x.a + y.a, x.b + y.b, x.c + y.c, x.d + y.d, x.e + y.e, x.f + y.f, x.g + y.g, x.h + y.h⟩

/-- The words in order. -/
def words (x : Working) : List UInt32 :=
  [x.a, x.b, x.c, x.d, x.e, x.f, x.g, x.h]

end Working

/-- The first 32 bits of the fractional parts of the square roots of the first eight primes. -/
def start : Working :=
  ⟨0x6a09e667, 0xbb67ae85, 0x3c6ef372, 0xa54ff53a, 0x510e527f, 0x9b05688c, 0x1f83d9ab, 0x5be0cd19⟩

/-- The first 32 bits of the fractional parts of the cube roots of the first 64 primes. -/
def roundConstants : List UInt32 :=
  [0x428a2f98, 0x71374491, 0xb5c0fbcf, 0xe9b5dba5, 0x3956c25b, 0x59f111f1, 0x923f82a4, 0xab1c5ed5,
   0xd807aa98, 0x12835b01, 0x243185be, 0x550c7dc3, 0x72be5d74, 0x80deb1fe, 0x9bdc06a7, 0xc19bf174,
   0xe49b69c1, 0xefbe4786, 0x0fc19dc6, 0x240ca1cc, 0x2de92c6f, 0x4a7484aa, 0x5cb0a9dc, 0x76f988da,
   0x983e5152, 0xa831c66d, 0xb00327c8, 0xbf597fc7, 0xc6e00bf3, 0xd5a79147, 0x06ca6351, 0x14292967,
   0x27b70a85, 0x2e1b2138, 0x4d2c6dfc, 0x53380d13, 0x650a7354, 0x766a0abb, 0x81c2c92e, 0x92722c85,
   0xa2bfe8a1, 0xa81a664b, 0xc24b8b70, 0xc76c51a3, 0xd192e819, 0xd6990624, 0xf40e3585, 0x106aa070,
   0x19a4c116, 0x1e376c08, 0x2748774c, 0x34b0bcb5, 0x391c0cb3, 0x4ed8aa4a, 0x5b9cca4f, 0x682e6ff3,
   0x748f82ee, 0x78a5636f, 0x84c87814, 0x8cc70208, 0x90befffa, 0xa4506ceb, 0xbef9a3f7, 0xc67178f2]

/-- Rotation to the right by `n` bits, `0 < n < 32`. -/
def rotate (x n : UInt32) : UInt32 :=
  (x >>> n) ||| (x <<< (32 - n))

/-- The message followed by a one bit, zeros up to eight bytes before a block's end, and the
message's length in bits. -/
def pad (message : Bytes) : Bytes :=
  let zeros := (119 - message.length % 64) % 64
  message ++ 0x80 :: (List.replicate zeros 0 ++ Bytes.ofBigEndian 8 (8 * message.length))

/-- The 16 big-endian words of the block that starts at byte `offset`. -/
def blockWords (message : Array UInt8) (offset : Nat) : Array UInt32 :=
  (Array.range 16).map fun i =>
    (List.range 4).foldl
      (fun w k => (w <<< 8) ||| (message.getD (offset + 4 * i + k) 0).toUInt32) 0

/-- Extends the 16 words of a block to the 64 words of its rounds. -/
def expand (words : Array UInt32) : Array UInt32 :=
  (List.range 48).foldl (fun w i =>
    let x := w.getD (i + 1) 0
    let y := w.getD (i + 14) 0
    let s0 := rotate x 7 ^^^ rotate x 18 ^^^ (x >>> 3)
    let s1 := rotate y 17 ^^^ rotate y 19 ^^^ (y >>> 10)
    w.push (w.getD i 0 + s0 + w.getD (i + 9) 0 + s1)) words

/-- One round with round constant `k` and message word `w`. -/
def round (s : Working) (k w : UInt32) : Working :=
  let s1 := rotate s.e 6 ^^^ rotate s.e 11 ^^^ rotate s.e 25
  let choice := (s.e &&& s.f) ^^^ ((~~~ s.e) &&& s.g)
  let t1 := s.h + s1 + choice + k + w
  let s0 := rotate s.a 2 ^^^ rotate s.a 13 ^^^ rotate s.a 22
  let majority := (s.a &&& s.b) ^^^ (s.a &&& s.c) ^^^ (s.b &&& s.c)
  ⟨t1 + (s0 + majority), s.a, s.b, s.c, s.d + t1, s.e, s.f, s.g⟩

/-- The working words after the block that starts at byte `offset`. -/
def compress (message : Array UInt8) (s : Working) (offset : Nat) : Working :=
  let words := (expand (blockWords message offset)).toList
  s.add ((roundConstants.zip words).foldl (fun t kw => round t kw.1 kw.2) s)

/-- The 32 bytes of the message's hash. -/
def digest (message : Bytes) : Bytes :=
  let padded := (pad message).toArray
  let final := (List.range (padded.size / 64)).foldl (fun s i => compress padded s (64 * i)) start
  final.words.flatMap fun w => Bytes.ofBigEndian 4 w.toNat

end RemoteCall.Sha256
