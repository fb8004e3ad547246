import RemoteCall.Serializer

/-!
# What was serialized is deserialized

The serializers of the primitive types and of the empty type read back exactly the values that they
write; floating-point numbers keep their bits. Structured values are left out here, since they are
read back as whatever JSON they were written as.

A peer that is told the name of a type finds the same serializer under it, unless it has put another
one in its place.

## Main definitions

* `Serializer.plain` : the serializers of the primitive types and of the empty type.
* `Serializers.Plain` : the names of these types mean these serializers.

## Main results

* `Serializer.deserialize_serialize` : a plain serializer reads back what it writes.
* `Serializers.plain_standard` : the standard serializers know the plain types by their names.
-/

namespace RemoteCall

namespace Serializer

/-- The serializers of the empty type and of the primitive types. -/
def plain : List Serializer :=
  .empty :: Primitive.all.map .primitive

/-! ### Numbers of a fixed width -/

variable {body : Bytes}

/-- A number is read back from as many bytes as it was written in. -/
theorem fixedWidth_ofBigEndian {name : String} {width n : Nat} (h : n < Nat.pow 256 width) :
    fixedWidth name width (Bytes.ofBigEndian width n) = .ok n := by
  rw [fixedWidth, if_pos (Bytes.length_ofBigEndian width n), Bytes.toBigEndian_ofBigEndian,
    Nat.mod_eq_of_lt h]

theorem fixedWidth_singleton (name : String) (b : UInt8) : fixedWidth name 1 [b] = .ok b.toNat := by
  have hbyte : Bytes.toBigEndian [b] = b.toNat := by
    rw [Bytes.toBigEndian, List.foldl_cons, List.foldl_nil, Nat.mul_zero, Nat.zero_add]
  rw [fixedWidth, List.length_singleton, if_pos rfl, hbyte]

/-! ### Primitive types -/

/-- A text is read back when its length was written in front of it. -/
theorem deserializeText_encode (name : String) {s : String}
    (h : (Utf8.encode s).length ≤ maxTextLength) :
    deserializeText name (Bytes.ofBigEndian 2 (Utf8.encode s).length ++ Utf8.encode s) = .ok s := by
  have hsplit : Bytes.split? 2 (Bytes.ofBigEndian 2 (Utf8.encode s).length ++ Utf8.encode s) =
      some (Bytes.ofBigEndian 2 (Utf8.encode s).length, Utf8.encode s) :=
    Bytes.split?_eq_some_iff.mpr ⟨rfl, Bytes.length_ofBigEndian _ _⟩
  have hlength : Bytes.toBigEndian (Bytes.ofBigEndian 2 (Utf8.encode s).length) =
      (Utf8.encode s).length := by
    rw [Bytes.toBigEndian_ofBigEndian]
    exact Nat.mod_eq_of_lt (Nat.lt_of_le_of_lt h (by decide))
  rw [deserializeText, hsplit]
  dsimp only
  rw [if_pos hlength, Utf8.decode_encode]
  rfl

/-- A character that is one UTF-16 unit is read back. -/
theorem deserializePrimitive_char {c : Char} (h : c.toNat < 0x10000) :
    deserializePrimitive .char (Bytes.ofBigEndian 2 c.toNat) = .ok (.char c) := by
  have hread : fixedWidth Primitive.char.typeName 2 (Bytes.ofBigEndian 2 c.toNat) = .ok c.toNat :=
    fixedWidth_ofBigEndian h
  have hvalid : c.toNat.isValidChar := c.valid
  simp only [deserializePrimitive, hread]
  show (if c.toNat.isValidChar then _ else _ : Except Failure Value) = _
  rw [if_pos hvalid, Char.ofNat_toNat]
  rfl

/-- A primitive type reads back the values that it writes. -/
theorem deserializePrimitive_serializePrimitive {p : Primitive} {v : Value}
    (h : serializePrimitive p v = .ok body) : deserializePrimitive p body = .ok v := by
  unfold serializePrimitive at h
  split at h
  case h_1 b =>
    cases h
    cases b <;> rfl
  case h_2 n =>
    cases h
    have hread := fixedWidth_singleton Primitive.byte.typeName n.toUInt8
    simp only [deserializePrimitive, hread]
    show Except.ok (Value.byte (UInt8.ofNat n.toUInt8.toNat).toInt8) = _
    rw [UInt8.ofNat_toNat, Int8.toInt8_toUInt8]
  case h_3 c =>
    split at h
    · rename_i hunit
      cases h
      exact deserializePrimitive_char hunit
    · cases h
  case h_4 n =>
    cases h
    have hread : fixedWidth Primitive.short.typeName 2 _ = _ :=
      fixedWidth_ofBigEndian n.toUInt16.toNat_lt
    simp only [deserializePrimitive, hread]
    show Except.ok (Value.short (UInt16.ofNat n.toUInt16.toNat).toInt16) = _
    rw [UInt16.ofNat_toNat, Int16.toInt16_toUInt16]
  case h_5 n =>
    cases h
    have hread : fixedWidth Primitive.int.typeName 4 _ = _ :=
      fixedWidth_ofBigEndian n.toUInt32.toNat_lt
    simp only [deserializePrimitive, hread]
    show Except.ok (Value.int (UInt32.ofNat n.toUInt32.toNat).toInt32) = _
    rw [UInt32.ofNat_toNat, Int32.toInt32_toUInt32]
  case h_6 n =>
    cases h
    have hread : fixedWidth Primitive.long.typeName 8 _ = _ :=
      fixedWidth_ofBigEndian n.toUInt64.toNat_lt
    simp only [deserializePrimitive, hread]
    show Except.ok (Value.long (UInt64.ofNat n.toUInt64.toNat).toInt64) = _
    rw [UInt64.ofNat_toNat, Int64.toInt64_toUInt64]
  case h_7 x =>
    cases h
    have hread : fixedWidth Primitive.float.typeName 4 _ = _ :=
      fixedWidth_ofBigEndian x.bits.toNat_lt
    simp only [deserializePrimitive, hread]
    show Except.ok (Value.float ⟨UInt32.ofNat x.bits.toNat⟩) = _
    rw [UInt32.ofNat_toNat]
  case h_8 x =>
    cases h
    have hread : fixedWidth Primitive.double.typeName 8 _ = _ :=
      fixedWidth_ofBigEndian x.bits.toNat_lt
    simp only [deserializePrimitive, hread]
    show Except.ok (Value.double ⟨UInt64.ofNat x.bits.toNat⟩) = _
    rw [UInt64.ofNat_toNat]
  case h_9 s =>
    dsimp only at h
    split at h
    · rename_i hlength
      cases h
      have hread := deserializeText_encode Primitive.string.typeName hlength
      simp only [deserializePrimitive, hread]
      rfl
    · cases h
  case h_10 =>
    cases h

/-! ### Plain serializers -/

theorem mem_plain {x : Serializer} : x ∈ plain ↔ x = .empty ∨ ∃ p, x = .primitive p := by
  constructor
  · intro h
    rcases List.mem_cons.mp h with rfl | hp
    · exact Or.inl rfl
    · obtain ⟨p, -, rfl⟩ := List.mem_map.mp hp
      exact Or.inr ⟨p, rfl⟩
  · rintro (rfl | ⟨p, rfl⟩)
    · exact List.mem_cons_self
    · exact List.mem_cons_of_mem _ (List.mem_map_of_mem (by cases p <;> decide))

/-- A plain serializer reads back the values that it writes. -/
theorem deserialize_serialize {x : Serializer} (hx : x ∈ plain) {v : Value}
    (h : x.serialize v = .ok body) : x.deserialize body = .ok v := by
  rcases mem_plain.mp hx with rfl | ⟨p, rfl⟩
  · unfold serialize at h
    cases v with
    | empty =>
      cases h
      rfl
    | _ => cases h
  · exact deserializePrimitive_serializePrimitive h

end Serializer

namespace Serializers

/-- The names of the primitive types and of the empty type mean these types. -/
def Plain (s : Serializers) : Prop :=
  ∀ x ∈ Serializer.plain, s.resolve x.typeName = x

theorem plain_standard : standard.Plain := by
  unfold Plain
  decide

end Serializers

end RemoteCall
