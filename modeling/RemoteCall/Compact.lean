import RemoteCall.Text.Utf8

/-!
# The compact binary format

Faults and service descriptions travel in a format without field names: a byte stands for itself, a
larger number is a varint (seven bits a byte, least significant first, the top bit set on all bytes
but the last), and a text or a list is preceded by its length as a varint.

Writing gives a byte string; reading takes its value off the front of one, and what follows is left
alone.
-/

namespace RemoteCall.Compact

/-- Why bytes cannot be read. -/
inductive Failure where
  /-- The bytes end before the value does. -/
  | unexpectedEnd
  /-- A varint has too many bytes, or its last byte exceeds its type. -/
  | badVarint
  /-- A text is not UTF-8. -/
  | badText
  /-- A number stands for no alternative. -/
  | noSuchAlternative
  deriving DecidableEq, Repr

/-- The failure in words. -/
def Failure.message : Failure → String
  | .unexpectedEnd => "Hit the end of buffer, expected more data"
  | .badVarint => "Found a varint that didn't terminate. Is the usize too big for this platform?"
  | .badText => "Tried to parse invalid utf-8"
  | .noSuchAlternative => "Serde Deserialization Error"

/-! ### Writing -/

/-- The varint of a number. -/
def varint (n : Nat) : Bytes :=
  if n < 128 then [UInt8.ofNat n] else UInt8.ofNat (n % 128 + 128) :: varint (n / 128)
termination_by n
decreasing_by omega

/-- A byte string preceded by its length. -/
def sized (bytes : Bytes) : Bytes :=
  varint bytes.length ++ bytes

/-- A text preceded by its length in bytes. -/
def text (s : String) : Bytes :=
  sized (Utf8.encode s)

/-- A list preceded by its length. -/
def list {α : Type} (write : α → Bytes) (items : List α) : Bytes :=
  varint items.length ++ items.flatMap write

/-! ### Reading -/

/-- Takes a value off the front of a byte string. -/
abbrev Reader := StateT Bytes (Except Failure)

/-- Takes one byte. -/
def readByte : Reader UInt8 := fun
  | [] => .error .unexpectedEnd
  | b :: rest => .ok (b, rest)

/-- Takes `n` bytes. -/
def readBytes (n : Nat) : Reader Bytes := fun bytes =>
  match Bytes.split? n bytes with
  | some (front, rest) => .ok (front, rest)
  | none => .error .unexpectedEnd

/-- Takes a varint of at most `count` bytes, the last of which may not exceed `last`. -/
def readVarint (last : UInt8) : (count : Nat) → Reader Nat
  | 0 => throw .badVarint
  | count + 1 => do
    let b ← readByte
    if b < 0x80 then
      if count = 0 ∧ last < b then throw .badVarint else pure b.toNat
    else
      let more ← readVarint last count
      pure (b.toNat % 128 + 128 * more)

/-- Takes a 32-bit number. -/
def readWord : Reader Nat :=
  readVarint 15 5

/-- Takes a length. -/
def readLength : Reader Nat :=
  readVarint 1 10

/-- Takes a text. -/
def readText : Reader String := do
  let bytes ← readBytes (← readLength)
  match Utf8.decode bytes with
  | .ok s => pure s
  | .error _ => throw .badText

/-- Takes `count` values. -/
def readMany {α : Type} (read : Reader α) : (count : Nat) → Reader (List α)
  | 0 => pure []
  | count + 1 => do
    let x ← read
    let rest ← readMany read count
    pure (x :: rest)

/-- Takes a list. -/
def readList {α : Type} (read : Reader α) : Reader (List α) := do
  readMany read (← readLength)

/-- The value at the front of a byte string; bytes behind it are ignored. -/
def decode {α : Type} (read : Reader α) (bytes : Bytes) : Except Failure α :=
  (read.run bytes).map Prod.fst

end RemoteCall.Compact
