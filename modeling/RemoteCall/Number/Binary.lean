/-!
# Binary floating-point words

A floating-point number is kept as its bit pattern, so two numbers are equal exactly when they
travel alike. A `BinaryFormat` cuts a pattern into sign, exponent and fraction; `decode` reads it as
`± m · 2 ^ e`, and `ofRatio` rounds a quotient to the nearest pattern, a half to the even one.
`Binary32` and `Binary64` are the two formats in use.
-/

namespace RemoteCall

/-- How a floating-point word is cut: the widths of its fraction and exponent fields. -/
structure BinaryFormat where
  fraction : Nat
  exponent : Nat

/-- What a floating-point word stands for. -/
inductive Datum where
  /-- The number `± m · 2 ^ e`. -/
  | finite (negative : Bool) (m : Nat) (e : Int)
  | infinite (negative : Bool)
  | nan
  deriving DecidableEq, Repr

/-- The quotient rounded to the nearest integer, a half to the even one. -/
def roundDiv (num den : Nat) : Nat :=
  let q := num / den
  let r := num % den
  if 2 * r < den then q
  else if den < 2 * r then q + 1
  else q + q % 2

namespace BinaryFormat

/-- The format with 23 fraction bits and 8 exponent bits. -/
def single : BinaryFormat := ⟨23, 8⟩

/-- The format with 52 fraction bits and 11 exponent bits. -/
def double : BinaryFormat := ⟨52, 11⟩

/-- The power of two that the last bit of the smallest numbers stands for. -/
def minExponent (f : BinaryFormat) : Int :=
  2 - (Nat.pow 2 (f.exponent - 1) : Nat) - f.fraction

/-- The pattern of the positive infinity. -/
def infinity (f : BinaryFormat) : Nat :=
  (Nat.pow 2 f.exponent - 1) * Nat.pow 2 f.fraction

/-- The weight of the sign bit. -/
def signBit (f : BinaryFormat) : Nat :=
  Nat.pow 2 (f.fraction + f.exponent)

/-- What a pattern stands for. -/
def decode (f : BinaryFormat) (bits : Nat) : Datum :=
  let negative := bits / f.signBit % 2 == 1
  let magnitude := bits % f.signBit
  let fraction := magnitude % Nat.pow 2 f.fraction
  let field := magnitude / Nat.pow 2 f.fraction
  if f.infinity < magnitude then .nan
  else if magnitude = f.infinity then .infinite negative
  else if field = 0 then .finite negative fraction f.minExponent
  else .finite negative (Nat.pow 2 f.fraction + fraction) (f.minExponent + (field - 1 : Nat))

/-- `num / den` divided by `2 ^ e`, as a quotient of naturals. -/
def scaled (num den : Nat) (e : Int) : Nat × Nat :=
  if 0 ≤ e then (num, den * Nat.pow 2 e.toNat) else (num * Nat.pow 2 (-e).toNat, den)

/-- The power of two that the last bit of the nearest number to `num / den` stands for. -/
def lastBit (f : BinaryFormat) (num den : Nat) : Int :=
  let guess : Int := (num.log2 : Int) - den.log2 - f.fraction
  let (n, d) := scaled num den guess
  max f.minExponent (if n < d * Nat.pow 2 f.fraction then guess - 1 else guess)

/-- The pattern without sign nearest to `num / den`, where `den` is not zero. -/
def magnitudeOfRatio (f : BinaryFormat) (num den : Nat) : Nat :=
  if num = 0 then 0
  else
    let e := f.lastBit num den
    let (n, d) := scaled num den e
    min f.infinity ((e - f.minExponent).toNat * Nat.pow 2 f.fraction + roundDiv n d)

/-- The pattern nearest to `± num / den`; the sign is kept even where the number is zero. -/
def ofRatio (f : BinaryFormat) (negative : Bool) (num den : Nat) : Nat :=
  (if negative then f.signBit else 0) + f.magnitudeOfRatio num den

end BinaryFormat

/-- The quotient of naturals that equals `m · 2 ^ e`. -/
def dyadic (m : Nat) (e : Int) : Nat × Nat :=
  if 0 ≤ e then (m * Nat.pow 2 e.toNat, 1) else (m, Nat.pow 2 (-e).toNat)

/-- A 32-bit floating-point number, by its bit pattern. -/
structure Binary32 where
  bits : UInt32
  deriving DecidableEq, Repr

/-- A 64-bit floating-point number, by its bit pattern. -/
structure Binary64 where
  bits : UInt64
  deriving DecidableEq, Repr

namespace Binary32

/-- What the word stands for. -/
def datum (x : Binary32) : Datum :=
  BinaryFormat.single.decode x.bits.toNat

end Binary32

namespace Binary64

/-- What the word stands for. -/
def datum (x : Binary64) : Datum :=
  BinaryFormat.double.decode x.bits.toNat

/-- Neither an infinity nor a NaN. -/
def IsFinite (x : Binary64) : Prop :=
  x.bits.toNat % BinaryFormat.double.signBit < BinaryFormat.double.infinity

instance (x : Binary64) : Decidable x.IsFinite :=
  inferInstanceAs (Decidable (_ < _))

/-- The word nearest to `± num / den`. -/
def ofRatio (negative : Bool) (num den : Nat) : Binary64 :=
  ⟨UInt64.ofNat (BinaryFormat.double.ofRatio negative num den)⟩

/-- The same number with the sign bit set. -/
def negate (x : Binary64) : Binary64 :=
  ⟨x.bits ^^^ 0x8000000000000000⟩

/-- The product with `num / den`, rounded; an infinity or a NaN stays as it is. -/
def scale (x : Binary64) (num den : Nat) : Binary64 :=
  match x.datum with
  | .finite negative m e =>
    let (n, d) := dyadic m e
    ofRatio negative (n * num) (d * den)
  | _ => x

/-- The product with `num / den`, taken as the product with the nearest word to it. -/
def mul (x y : Binary64) : Binary64 :=
  match y.datum with
  | .finite _ m e =>
    let (n, d) := dyadic m e
    x.scale n d
  | _ => y

/-- The quotient by a positive number. -/
def div (x y : Binary64) : Binary64 :=
  match y.datum with
  | .finite _ m e =>
    let (n, d) := dyadic m e
    x.scale d n
  | _ => y

/-- The word is a zero of either sign. -/
def isZero (x : Binary64) : Bool :=
  x.bits.toNat % BinaryFormat.double.signBit == 0

end Binary64

/-- The 64-bit word of the same number. -/
def Binary32.widen (x : Binary32) : Binary64 :=
  match x.datum with
  | .finite negative m e =>
    let (n, d) := dyadic m e
    Binary64.ofRatio negative n d
  | .infinite negative =>
    ⟨if negative then 0xfff0000000000000 else 0x7ff0000000000000⟩
  | .nan => ⟨0x7ff8000000000000⟩

end RemoteCall
