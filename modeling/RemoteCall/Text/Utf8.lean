import RemoteCall.Bytes

/-!
# UTF-8

Text travels as UTF-8. `Utf8.encode` gives the bytes of a text, `Utf8.decode` the text of a byte
string, or where and how the bytes leave the encoding.

`Utf8.decode_encode` and `Utf8.decode_eq_ok_iff`: decoding accepts exactly what encoding writes.
-/

namespace RemoteCall

/-- The first place where a byte string leaves UTF-8. -/
inductive Utf8.Failure where
  /-- The `count` bytes at `index` begin no character. -/
  | invalid (index count : Nat)
  /-- The string ends inside the character that begins at `index`. -/
  | incomplete (index : Nat)
  deriving DecidableEq, Repr

namespace Utf8

/-- The failure in words. -/
def Failure.message : Failure → String
  | .invalid index count => s!"invalid utf-8 sequence of {count} bytes from index {index}"
  | .incomplete index => s!"incomplete utf-8 byte sequence from index {index}"

/-- Where the failure lies. -/
def Failure.index : Failure → Nat
  | .invalid index _ => index
  | .incomplete index => index

/-- How a character may go on after its first byte: the range of the second byte and the number of
further bytes in 0x80 to 0xBF. -/
structure Continuation where
  low : UInt8
  high : UInt8
  tails : Nat

/-- What may follow a first byte: nothing (`some none`), a continuation, or it begins no
character. -/
def continuation (b : UInt8) : Option (Option Continuation) :=
  if b < 0x80 then some none
  else if b < 0xC2 then none
  else if b < 0xE0 then some (some ⟨0x80, 0xBF, 0⟩)
  else if b = 0xE0 then some (some ⟨0xA0, 0xBF, 1⟩)
  else if b = 0xED then some (some ⟨0x80, 0x9F, 1⟩)
  else if b < 0xF0 then some (some ⟨0x80, 0xBF, 1⟩)
  else if b = 0xF0 then some (some ⟨0x90, 0xBF, 2⟩)
  else if b < 0xF4 then some (some ⟨0x80, 0xBF, 2⟩)
  else if b = 0xF4 then some (some ⟨0x80, 0x8F, 2⟩)
  else none

/-- How many of the next `n` bytes are tails, and whether the string ends among them. -/
def tailsPresent : (n : Nat) → Bytes → Nat × Bool
  | 0, _ => (0, false)
  | _ + 1, [] => (0, true)
  | n + 1, b :: rest =>
    if 0x80 ≤ b ∧ b ≤ 0xBF then
      let (k, ended) := tailsPresent n rest
      (k + 1, ended)
    else (0, false)

/-- Finds the first failure at or after `index`; `skip` bytes still belong to a character already
checked. -/
def locate (index skip : Nat) : Bytes → Option Failure
  | [] => none
  | b :: rest =>
    match skip with
    | skip + 1 => locate (index + 1) skip rest
    | 0 =>
      match continuation b, rest with
      | none, _ => some (.invalid index 1)
      | some none, _ => locate (index + 1) 0 rest
      | some (some _), [] => some (.incomplete index)
      | some (some k), second :: more =>
        if k.low ≤ second ∧ second ≤ k.high then
          let (present, ended) := tailsPresent k.tails more
          if ended then some (.incomplete index)
          else if present < k.tails then some (.invalid index (present + 2))
          else locate (index + 1) (k.tails + 1) rest
        else some (.invalid index 1)

/-- The bytes of a text. -/
def encode (text : String) : Bytes :=
  text.toUTF8.data.toList

/-- The text of a byte string. -/
def decode (bytes : Bytes) : Except Failure String :=
  if h : bytes.toByteArray.IsValidUTF8 then .ok (String.fromUTF8 bytes.toByteArray h)
  else .error ((locate 0 0 bytes).getD (.invalid 0 1))

theorem encode_injective {s t : String} (h : encode s = encode t) : s = t := by
  rw [← String.toByteArray_inj]
  simpa [encode, ← ByteArray.ext_iff] using h

/-- Bytes decode to a text exactly when they are its encoding. -/
theorem decode_eq_ok_iff {bytes : Bytes} {text : String} :
    decode bytes = .ok text ↔ bytes = encode text := by
  have key : ∀ b : ByteArray, b.data.toList.toByteArray = b := by
    intro b
    apply ByteArray.ext
    apply Array.toList_inj.1
    rw [List.toList_data_toByteArray]
  unfold decode
  constructor
  · intro h
    split at h
    · cases h
      simp [encode, String.fromUTF8]
    · cases h
  · rintro rfl
    have hb : (encode text).toByteArray = text.toByteArray := by
      simp only [encode, String.toUTF8_eq_toByteArray, key]
    have hv : (encode text).toByteArray.IsValidUTF8 := by
      rw [hb]
      exact text.isValidUTF8
    rw [dif_pos hv]
    congr 1
    rw [← String.toByteArray_inj]
    simpa [String.fromUTF8] using hb

@[simp] theorem decode_encode (text : String) : decode (encode text) = .ok text :=
  decode_eq_ok_iff.2 rfl

@[simp] theorem encode_append (s t : String) : encode (s ++ t) = encode s ++ encode t := by
  simp [encode]

end Utf8

end RemoteCall
