import RemoteCall.Frame.Codec
import RemoteCall.Proofs.Frame.RawFrame
import RemoteCall.Proofs.Serializer

/-!
# One body for each value

A plain serializer writes the values of its type, and a body that it reads is the one that it writes
for the value that was read. So a value has one body, and a body cannot be changed without changing
the value. Truth values are the exception: any byte but zero is read as true, and only the one is
written.

## Main definitions

* `Primitive.Holds`, `Serializer.Holds` : the values that a type has a body for.

## Main results

* `Serializer.exists_serialize_iff` : these are the values that are written.
* `Serializer.serialize_of_deserialize` : a body that is read is the one that is written.
* `Serializer.bodies_canonical` : what is written is read, what is read is written, and no two
  bodies are read alike.
-/

namespace RemoteCall

/-- The values that a primitive type has a body for. A character needs to be one UTF-16 unit, and the
length of a text has to fit two bytes. -/
inductive Primitive.Holds : Primitive → Value → Prop where
  | bool (b : Bool) : Holds .bool (.bool b)
  | byte (n : Int8) : Holds .byte (.byte n)
  | char {c : Char} (h : c.toNat < 0x10000) : Holds .char (.char c)
  | short (n : Int16) : Holds .short (.short n)
  | int (n : Int32) : Holds .int (.int n)
  | long (n : Int64) : Holds .long (.long n)
  | float (x : Binary32) : Holds .float (.float x)
  | double (x : Binary64) : Holds .double (.double x)
  | string {s : String} (h : s.utf8ByteSize ≤ 65535) : Holds .string (.string s)

namespace Serializer

/-- The values that a plain serializer has a body for. -/
def Holds : Serializer → Value → Prop
  | empty, v => v = .empty
  | primitive p, v => p.Holds v
  | object _, _ => True

variable {body : Bytes} {v : Value} {p : Primitive} {x : Serializer}

/-! ### What is written -/

theorem length_encode (s : String) : (Utf8.encode s).length = s.utf8ByteSize := by
  simp [Utf8.encode]

theorem exists_serializePrimitive_iff : (∃ body, serializePrimitive p v = .ok body) ↔ p.Holds v := by
  constructor
  · rintro ⟨body, h⟩
    unfold serializePrimitive at h
    split at h
    case h_3 c =>
      split at h
      · rename_i hunit
        exact .char hunit
      · cases h
    case h_9 s =>
      dsimp only at h
      split at h
      · rename_i hlength
        exact .string (length_encode s ▸ hlength)
      · cases h
    case h_10 => cases h
    all_goals constructor
  · intro h
    cases h with
    | char h => exact ⟨_, if_pos h⟩
    | string h => exact ⟨_, if_pos (length_encode _ ▸ h)⟩
    | _ => exact ⟨_, rfl⟩

/-- A serializer writes the values that it has a body for. -/
theorem exists_serialize_iff : (∃ body, x.serialize v = .ok body) ↔ x.Holds v := by
  cases x with
  | empty =>
    constructor
    · rintro ⟨body, h⟩
      cases v with
      | empty => rfl
      | _ => cases h
    · rintro rfl
      exact ⟨[], rfl⟩
  | primitive p => exact exists_serializePrimitive_iff
  | object name => exact ⟨fun _ => trivial, fun _ => ⟨_, rfl⟩⟩

/-! ### What is read -/

/-- A number is read from the bytes that it is written in. -/
theorem fixedWidth_eq_ok_iff {name : String} {width n : Nat} :
    fixedWidth name width body = .ok n ↔ n < Nat.pow 256 width ∧ body = Bytes.ofBigEndian width n := by
  constructor
  · intro h
    unfold fixedWidth at h
    split at h
    · rename_i hlength
      cases h
      rw [← hlength]
      exact ⟨Bytes.toBigEndian_lt body, (Bytes.ofBigEndian_toBigEndian body).symm⟩
    · cases h
  · rintro ⟨hn, rfl⟩
    exact fixedWidth_ofBigEndian hn

/-- A text is read from its bytes behind their number. -/
theorem deserializeText_eq_ok {name s : String} (h : deserializeText name body = .ok s) :
    (Utf8.encode s).length ≤ maxTextLength ∧
      body = Bytes.ofBigEndian 2 (Utf8.encode s).length ++ Utf8.encode s := by
  unfold deserializeText at h
  split at h
  · cases h
  · rename_i length bytes hsplit
    obtain ⟨rfl, hwidth⟩ := Bytes.split?_eq_some_iff.mp hsplit
    split at h
    · rename_i hlength
      cases hdecode : Utf8.decode bytes with
      | error e =>
        rw [hdecode] at h
        cases h
      | ok t =>
        rw [hdecode] at h
        obtain rfl := Except.ok.inj h
        obtain rfl := Utf8.decode_eq_ok_iff.mp hdecode
        have hlt := Bytes.toBigEndian_lt length
        rw [hwidth, hlength] at hlt
        rw [← hlength, ← hwidth, Bytes.ofBigEndian_toBigEndian]
        exact ⟨hlength ▸ Nat.le_of_lt_succ hlt, rfl⟩
    · cases h

/-- What is made of a number was read from its bytes. -/
theorem exists_number {name : String} {width : Nat} {f : Nat → Except Failure Value}
    (h : (fixedWidth name width body >>= f) = .ok v) :
    ∃ n, n < Nat.pow 256 width ∧ body = Bytes.ofBigEndian width n ∧ f n = .ok v := by
  cases hnumber : fixedWidth name width body with
  | error e =>
    rw [hnumber] at h
    cases h
  | ok n =>
    rw [hnumber] at h
    obtain ⟨hn, hbody⟩ := fixedWidth_eq_ok_iff.mp hnumber
    exact ⟨n, hn, hbody, h⟩

/-- A character is read from its UTF-16 unit. -/
theorem serializePrimitive_of_char (h : deserializePrimitive .char body = .ok v) :
    serializePrimitive .char v = .ok body := by
  obtain ⟨n, hn, rfl, hchar⟩ := exists_number h
  split at hchar
  · rename_i hvalid
    cases hchar
    have hunit : (Char.ofNat n).toNat = n := by
      rw [Char.ofNat, dif_pos hvalid]
      rfl
    rw [serializePrimitive, hunit, if_pos hn]
  · cases hchar

/-- Any byte is read as a truth value. -/
theorem deserializePrimitive_bool_iff :
    deserializePrimitive .bool body = .ok v ↔ ∃ b : UInt8, body = [b] ∧ v = .bool (b ≠ 0) := by
  have hzero (b : UInt8) : decide (b.toNat ≠ 0) = decide (b ≠ 0) := by simp [← UInt8.toNat_inj]
  constructor
  · intro h
    obtain ⟨n, hn, rfl, hbool⟩ := exists_number h
    cases hbool
    refine ⟨UInt8.ofNat n, rfl, ?_⟩
    rw [← hzero, UInt8.toNat_ofNat_of_lt' hn]
  · rintro ⟨b, rfl, rfl⟩
    have hread := fixedWidth_singleton Primitive.bool.typeName b
    simp only [deserializePrimitive, hread]
    rw [← hzero]
    rfl

/-- A primitive type writes the body that it reads; truth values are the exception. -/
theorem serializePrimitive_of_deserializePrimitive (hp : p ≠ .bool)
    (h : deserializePrimitive p body = .ok v) : serializePrimitive p v = .ok body := by
  cases p with
  | bool => exact absurd rfl hp
  | byte =>
    obtain ⟨n, hn, rfl, hv⟩ := exists_number h
    cases hv
    rw [serializePrimitive, UInt8.toUInt8_toInt8]
    rfl
  | char => exact serializePrimitive_of_char h
  | short =>
    obtain ⟨n, hn, rfl, hv⟩ := exists_number h
    cases hv
    rw [serializePrimitive, UInt16.toUInt16_toInt16, UInt16.toNat_ofNat_of_lt' hn]
  | int =>
    obtain ⟨n, hn, rfl, hv⟩ := exists_number h
    cases hv
    rw [serializePrimitive, UInt32.toUInt32_toInt32, UInt32.toNat_ofNat_of_lt' hn]
  | long =>
    obtain ⟨n, hn, rfl, hv⟩ := exists_number h
    cases hv
    rw [serializePrimitive, UInt64.toUInt64_toInt64, UInt64.toNat_ofNat_of_lt' hn]
  | float =>
    obtain ⟨n, hn, rfl, hv⟩ := exists_number h
    cases hv
    rw [serializePrimitive, UInt32.toNat_ofNat_of_lt' hn]
  | double =>
    obtain ⟨n, hn, rfl, hv⟩ := exists_number h
    cases hv
    rw [serializePrimitive, UInt64.toNat_ofNat_of_lt' hn]
  | string =>
    cases htext : deserializeText Primitive.string.typeName body with
    | error e => simp [deserializePrimitive, htext, bind, Except.bind] at h
    | ok s =>
      simp only [deserializePrimitive, htext] at h
      cases h
      obtain ⟨hlength, rfl⟩ := deserializeText_eq_ok htext
      exact if_pos hlength

/-! ### Plain serializers -/

/-- The truth values under their type, as whichever byte they were written. -/
def IsTruth (x : Serializer) (body : Bytes) : Prop :=
  x = .primitive .bool ∧ ∃ b : UInt8, b ≠ 0 ∧ body = [b]

/-- A plain serializer writes the body that it reads, unless this is true in another form. -/
theorem serialize_of_deserialize (hx : x ∈ plain) (h : x.deserialize body = .ok v) :
    x.serialize v = .ok body ∨ x.IsTruth body ∧ v = .bool true ∧ x.serialize v = .ok [1] := by
  rcases mem_plain.mp hx with rfl | ⟨p, rfl⟩
  · rw [deserialize] at h
    split at h
    · rename_i hnil
      cases h
      rw [List.isEmpty_iff.mp hnil]
      exact Or.inl rfl
    · cases h
  · by_cases hp : p = .bool
    · subst hp
      obtain ⟨b, rfl, rfl⟩ := deserializePrimitive_bool_iff.mp h
      by_cases hb : b = 0
      · subst hb
        exact Or.inl rfl
      · rw [decide_eq_true hb]
        exact Or.inr ⟨⟨rfl, b, hb, rfl⟩, rfl, rfl⟩
    · exact Or.inl (serializePrimitive_of_deserializePrimitive hp h)

/-- Two bodies that a plain serializer reads alike are the same, unless both are true. -/
theorem eq_of_deserialize (hx : x ∈ plain) {body' : Bytes} (h : x.deserialize body = .ok v)
    (h' : x.deserialize body' = .ok v) : body = body' ∨ x.IsTruth body ∧ x.IsTruth body' := by
  rcases serialize_of_deserialize hx h with hwritten | ⟨htruth, -, hone⟩ <;>
    rcases serialize_of_deserialize hx h' with hwritten' | ⟨htruth', -, hone'⟩
  · exact Or.inl (Except.ok.inj (hwritten.symm.trans hwritten'))
  · have hbody : body = [1] := Except.ok.inj (hwritten.symm.trans hone')
    exact Or.inr ⟨⟨htruth'.1, 1, by decide, hbody⟩, htruth'⟩
  · have hbody : body' = [1] := Except.ok.inj (hwritten'.symm.trans hone)
    exact Or.inr ⟨htruth, htruth.1, 1, by decide, hbody⟩
  · exact Or.inr ⟨htruth, htruth'⟩

/-- A plain serializer writes exactly the values that its type has a body for, and otherwise appends
nothing. What it writes is read back. A body that it reads is the one that it writes for the value;
only the truth value has other bodies, since any byte is read as one and all but zero as true. No
other two bodies are read as the same value. -/
theorem bodies_canonical (hx : x ∈ plain) :
    (∀ v, (∃ body, BodyWriter.ofValue x v = ⟨body, none⟩ ∧ x.Holds v ∧ x.deserialize body = .ok v) ∨
        ∃ e, BodyWriter.ofValue x v = ⟨[], some e⟩ ∧ ¬x.Holds v) ∧
      (∀ body v, x.deserialize body = .ok v →
        BodyWriter.ofValue x v = ⟨body, none⟩ ∨
          x.IsTruth body ∧ v = .bool true ∧ BodyWriter.ofValue x v = ⟨[1], none⟩) ∧
      (x = .primitive .bool → ∀ b : UInt8, x.deserialize [b] = .ok (.bool (b ≠ 0))) ∧
      ∀ body body' v, x.deserialize body = .ok v → x.deserialize body' = .ok v →
        body = body' ∨ x.IsTruth body ∧ x.IsTruth body' := by
  have hwriter {v : Value} {body : Bytes} (h : x.serialize v = .ok body) :
      BodyWriter.ofValue x v = ⟨body, none⟩ := by
    rw [BodyWriter.ofValue, h]
    rfl
  refine ⟨fun v => ?_, fun body v h => ?_, ?_, fun body body' v => eq_of_deserialize hx⟩
  · cases h : x.serialize v with
    | ok body =>
      exact Or.inl ⟨body, hwriter h, exists_serialize_iff.mp ⟨body, h⟩, deserialize_serialize hx h⟩
    | error e =>
      refine Or.inr ⟨e.toError, by rw [BodyWriter.ofValue, h], fun hholds => ?_⟩
      obtain ⟨body, hbody⟩ := exists_serialize_iff.mpr hholds
      cases h.symm.trans hbody
  · exact (serialize_of_deserialize hx h).imp hwriter fun ⟨htruth, hv, hone⟩ =>
      ⟨htruth, hv, hwriter hone⟩
  · rintro rfl b
    exact deserializePrimitive_bool_iff.mpr ⟨b, rfl, rfl⟩

/-- A character of one UTF-16 unit and one of two. -/
theorem bodies_canonical_char :
    let x := Serializer.primitive .char
    x ∈ plain ∧ x.deserialize [0x20, 0xac] = .ok (.char '€') ∧
      BodyWriter.ofValue x (.char '€') = ⟨[0x20, 0xac], none⟩ ∧
      ∃ e, BodyWriter.ofValue x (.char '🦀') = ⟨[], some e⟩ := by
  intro x
  have hx : x ∈ plain := mem_plain.mpr (Or.inr ⟨.char, rfl⟩)
  obtain ⟨hvalues, hbodies, -, -⟩ := bodies_canonical hx
  have hread : x.deserialize [0x20, 0xac] = .ok (.char '€') := rfl
  refine ⟨hx, hread, ?_, ?_⟩
  · rcases hbodies _ _ hread with h | ⟨⟨htype, -⟩, -⟩
    · exact h
    · exact absurd htype (by simp [x])
  · rcases hvalues (.char '🦀') with ⟨-, -, hholds, -⟩ | ⟨e, h, -⟩
    · cases hholds with
      | char hunit => exact absurd hunit (by decide)
    · exact ⟨e, h⟩

end Serializer

end RemoteCall
