/-!
# Byte strings

A byte string is a list of octets, first octet first. This file holds what every wire format of
the library needs of them: big-endian numbers of a fixed width (`Bytes.ofBigEndian`,
`Bytes.toBigEndian`) and cutting off a known number of bytes (`Bytes.split?`).

`Bytes.toBigEndian_ofBigEndian` reads back every number that fits, `Bytes.ofBigEndian_toBigEndian`
writes back every byte string, and `Bytes.split?_eq_some_iff` says that a cut loses nothing.
-/

namespace RemoteCall

/-- A byte string, first byte first. -/
abbrev Bytes := List UInt8

namespace Bytes

/-- The last `width` base-256 digits of `n`, most significant first. -/
def ofBigEndian : (width n : Nat) → Bytes
  | 0, _ => []
  | width + 1, n => ofBigEndian width (n / 256) ++ [UInt8.ofNat n]

/-- The number whose base-256 digits are the bytes, most significant first. -/
def toBigEndian (bytes : Bytes) : Nat :=
  bytes.foldl (fun n b => 256 * n + b.toNat) 0

/-- The first `n` bytes and the rest, when there are that many. -/
def split? (n : Nat) (bytes : Bytes) : Option (Bytes × Bytes) :=
  let parts := bytes.splitAt n
  if parts.1.length = n then some parts else none

/-- Drops up to `n` bytes; the number says how many of the `n` were missing. -/
def skip (n : Nat) (bytes : Bytes) : Nat × Bytes :=
  let parts := bytes.splitAt n
  (n - parts.1.length, parts.2)

/-- Replaces the bytes from `start` on by as many new ones. -/
def overwrite (bytes : Bytes) (start : Nat) (new : Bytes) : Bytes :=
  bytes.take start ++ new ++ bytes.drop (start + new.length)

@[simp] theorem length_ofBigEndian (width n : Nat) : (ofBigEndian width n).length = width := by
  induction width generalizing n with
  | zero => rfl
  | succ width ih => simp [ofBigEndian, ih]

@[simp] theorem toBigEndian_append_singleton (bytes : Bytes) (b : UInt8) :
    toBigEndian (bytes ++ [b]) = 256 * toBigEndian bytes + b.toNat := by
  simp [toBigEndian]

/-- Reading a number of `width` digits keeps its last `width` digits. -/
theorem toBigEndian_ofBigEndian (width n : Nat) :
    toBigEndian (ofBigEndian width n) = n % Nat.pow 256 width := by
  induction width generalizing n with
  | zero => simp [ofBigEndian, toBigEndian, Nat.mod_one]
  | succ width ih =>
    have hpow : Nat.pow 256 (width + 1) = 256 * Nat.pow 256 width := Nat.mul_comm _ _
    rw [ofBigEndian, toBigEndian_append_singleton, ih, UInt8.toNat_ofNat', hpow, Nat.mod_mul]
    omega

/-- Every byte string is the big-endian form of the number it spells. -/
theorem ofBigEndian_toBigEndian (bytes : Bytes) :
    ofBigEndian bytes.length (toBigEndian bytes) = bytes := by
  suffices ∀ (n : Nat) (bytes : Bytes), bytes.length = n →
      ofBigEndian n (toBigEndian bytes) = bytes from this _ _ rfl
  intro n
  induction n with
  | zero =>
    intro bytes h
    simp [List.length_eq_zero_iff.1 h, ofBigEndian]
  | succ n ih =>
    intro bytes h
    have hne : bytes ≠ [] := by
      rintro rfl
      simp at h
    obtain ⟨front, b, rfl⟩ : ∃ front b, bytes = front ++ [b] :=
      ⟨bytes.dropLast, bytes.getLast hne, (List.dropLast_concat_getLast hne).symm⟩
    have hlen : front.length = n := by simpa using h
    have hb : b.toNat < 256 := b.toNat_lt
    have hdiv : (256 * toBigEndian front + b.toNat) / 256 = toBigEndian front := by omega
    have hlast : UInt8.ofNat (256 * toBigEndian front + b.toNat) = b := by
      apply UInt8.toNat_inj.1
      rw [UInt8.toNat_ofNat']
      omega
    rw [toBigEndian_append_singleton, ofBigEndian, hdiv, ih front hlen, hlast]

theorem split?_eq (n : Nat) (bytes : Bytes) :
    split? n bytes = if n ≤ bytes.length then some (bytes.take n, bytes.drop n) else none := by
  have h : (bytes.take n).length = n ↔ n ≤ bytes.length := by
    rw [List.length_take]
    omega
  simp only [split?, List.splitAt_eq, h]

theorem skip_eq (n : Nat) (bytes : Bytes) :
    skip n bytes = (n - bytes.length, bytes.drop n) := by
  simp only [skip, List.splitAt_eq, List.length_take, Prod.mk.injEq, and_true]
  omega

theorem split?_eq_some_iff {n : Nat} {bytes front rest : Bytes} :
    split? n bytes = some (front, rest) ↔ bytes = front ++ rest ∧ front.length = n := by
  rw [split?_eq]
  constructor
  · intro h
    split at h
    · next hn =>
      cases h
      exact ⟨(List.take_append_drop n bytes).symm, by rw [List.length_take]; omega⟩
    · cases h
  · rintro ⟨rfl, rfl⟩
    simp

end Bytes

end RemoteCall
