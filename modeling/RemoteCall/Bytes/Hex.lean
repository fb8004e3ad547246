import RemoteCall.Bytes

/-!
# Hexadecimal text

The text form of a byte string has two lower-case digits for each byte. `Bytes.ofHex_hex` reads
every text form back; reading stops at the first thing that is not a pair of digits.
-/

namespace RemoteCall.Bytes

/-- The digit of a number below sixteen. -/
def hexDigit (n : Nat) : Char :=
  "0123456789abcdef".toList.getD n '0'

/-- The number of a lower-case digit. -/
def hexValue? (c : Char) : Option Nat :=
  "0123456789abcdef".toList.idxOf? c

/-- The digits of a byte string. -/
def hexDigits (bytes : Bytes) : List Char :=
  bytes.flatMap fun b => [hexDigit (b.toNat / 16), hexDigit (b.toNat % 16)]

/-- The text form of a byte string. -/
def hex (bytes : Bytes) : String :=
  String.ofList bytes.hexDigits

/-- The bytes whose digits are at the front. -/
def ofHexDigits : List Char → Bytes
  | a :: b :: rest =>
    match hexValue? a, hexValue? b with
    | some a, some b => UInt8.ofNat (16 * a + b) :: ofHexDigits rest
    | _, _ => []
  | _ => []

/-- The bytes of a text form. -/
def ofHex (s : String) : Bytes :=
  ofHexDigits s.toList

theorem hexValue?_hexDigit {n : Nat} (h : n < 16) : hexValue? (hexDigit n) = some n := by
  have : ∀ m < 16, hexValue? (hexDigit m) = some m := by decide
  exact this n h

theorem ofHexDigits_hexDigits (bytes : Bytes) : ofHexDigits bytes.hexDigits = bytes := by
  induction bytes with
  | nil => rfl
  | cons b bytes ih =>
    have hb : b.toNat < 256 := b.toNat_lt
    have high : hexValue? (hexDigit (b.toNat / 16)) = some (b.toNat / 16) :=
      hexValue?_hexDigit (by omega)
    have low : hexValue? (hexDigit (b.toNat % 16)) = some (b.toNat % 16) :=
      hexValue?_hexDigit (by omega)
    have digits : hexDigits (b :: bytes) =
        hexDigit (b.toNat / 16) :: hexDigit (b.toNat % 16) :: hexDigits bytes := rfl
    rw [digits, ofHexDigits, high, low, ih]
    simp only [List.cons.injEq, and_true]
    apply UInt8.toNat_inj.1
    rw [UInt8.toNat_ofNat']
    omega

/-- Every byte string is read back from its text form. -/
@[simp] theorem ofHex_hex (bytes : Bytes) : ofHex bytes.hex = bytes := by
  simp [ofHex, hex, ofHexDigits_hexDigits]

end RemoteCall.Bytes
