import RemoteCall.Number.Binary

/-!
# The shortest decimal that reads back

A floating-point number is written with the fewest significant digits that still round to it, and
of those decimals the nearest. `Shortest.digits` finds them: for one digit, two digits and so on it
tries the two neighbours of the number on that decimal grid, and the first grid with a hit wins.

All bounds are compared in exact arithmetic, on numbers multiplied by a common denominator.
-/

namespace RemoteCall.Shortest

/-- The decimal `digits · 10 ^ exponent`. -/
structure Decimal where
  digits : Nat
  exponent : Int
  deriving DecidableEq, Repr

/-- A positive number with the ends of the interval of reals that round to it, all over one
denominator. -/
structure Target where
  low : Nat
  value : Nat
  high : Nat
  den : Nat
  /-- The ends themselves round to the number. -/
  closed : Bool

/-- The target of `m · 2 ^ e`. The lower end is nearer when `m` is the least significand of its
binade and there is a binade below. -/
def Target.ofBinary (f : BinaryFormat) (m : Nat) (e : Int) : Target :=
  let narrow := m = Nat.pow 2 f.fraction ∧ f.minExponent < e
  let shift : Int := e - 2
  let factor := if 0 ≤ shift then Nat.pow 2 shift.toNat else 1
  { low := (4 * m - if narrow then 1 else 2) * factor
    value := 4 * m * factor
    high := (4 * m + 2) * factor
    den := if 0 ≤ shift then 1 else Nat.pow 2 (-shift).toNat
    closed := m % 2 = 0 }

/-- The number of decimal digits; zero has none. -/
def digitCount (n : Nat) : Nat :=
  if n = 0 then 0 else (Nat.toDigits 10 n).length

/-- The `p` with `10 ^ p ≤ num / den < 10 ^ (p + 1)`. -/
def magnitude (num den : Nat) : Int :=
  if den ≤ num then digitCount (num / den) - 1 else -(digitCount ((den - 1) / num) : Int)

namespace Target

/-- `a · 10 ^ k` lies in the interval. -/
def contains (t : Target) (a : Nat) (k : Int) : Bool :=
  let (point, unit) :=
    if 0 ≤ k then (a * Nat.pow 10 k.toNat * t.den, 1) else (a * t.den, Nat.pow 10 (-k).toNat)
  if t.closed then t.low * unit ≤ point && point ≤ t.high * unit
  else t.low * unit < point && point < t.high * unit

/-- The grid point `a · 10 ^ k` below the number lies nearer to it than the next one; an exact half
goes to the even point. -/
def lowerIsNearer (t : Target) (a : Nat) (k : Int) : Bool :=
  let (value, unit) :=
    if 0 ≤ k then (t.value, Nat.pow 10 k.toNat * t.den)
    else (t.value * Nat.pow 10 (-k).toNat, t.den)
  let twice := 2 * (value - a * unit)
  twice < unit || (twice == unit && a % 2 == 0)

/-- The nearest point of the grid with `n` significant digits in the interval, if any. -/
def onGrid (t : Target) (n : Nat) : Option Decimal :=
  let k := magnitude t.value t.den + 1 - n
  let a :=
    if 0 ≤ k then t.value / (t.den * Nat.pow 10 k.toNat)
    else t.value * Nat.pow 10 (-k).toNat / t.den
  match t.contains a k, t.contains (a + 1) k with
  | true, true => some ⟨if t.lowerIsNearer a k then a else a + 1, k⟩
  | true, false => some ⟨a, k⟩
  | false, true => some ⟨a + 1, k⟩
  | false, false => none

end Target

/-- Moves the trailing zeros of the digits into the exponent, at most `fuel` of them. -/
def trim : (fuel : Nat) → Decimal → Decimal
  | 0, d => d
  | fuel + 1, d =>
    if d.digits % 10 = 0 then trim fuel ⟨d.digits / 10, d.exponent + 1⟩ else d

/-- The number of digits that always suffices for the formats in use. -/
def maxDigits : Nat := 17

/-- The shortest decimal of the positive number `m · 2 ^ e`. -/
def digits (f : BinaryFormat) (m : Nat) (e : Int) : Decimal :=
  let t := Target.ofBinary f m e
  let found := (List.range maxDigits).findSome? fun n => t.onGrid (n + 1)
  trim maxDigits (found.getD ⟨0, 0⟩)

end RemoteCall.Shortest
