import RemoteCall.Proofs.Frame.Decoding

/-!
# Frames that are written and read again

A codec writes a frame in one piece at the end of a buffer, or leaves the buffer as it was when the
frame does not fit its bound or the value cannot be serialized. A reader whose bound the frame fits
as well finds this frame at the front of a stream that begins with its bytes, however the stream is
cut into chunks, and reads what follows as if it were a stream of its own.

## Main definitions

* `Frame.bytes` : a frame on the wire.
* `Codec.Fits` : the frame is within a bound.
* `Frame.ofValue` : the frame that carries a value.
* `Codec.Finds` : what a stream that begins with these bytes is read as.

## Main results

* `Codec.frameBytes_eq_ok_iff`, `Codec.valueBytes_eq_ok_iff` : which frames and values are written,
  and as what.
* `Codec.finds_of_fits` : a frame that fits is read back.
-/

namespace RemoteCall

/-- The bytes of a frame on the wire. -/
def Frame.bytes (f : Frame) : Bytes :=
  f.header.bytes f.body.length ++ f.body

/-- The frame that carries a value. The empty value makes a frame without a body. -/
def Frame.ofValue (header : Header) (serializer : Serializer) (value : Value) :
    Except Serializer.Failure Frame :=
  if value.isEmpty then .ok (.empty (header.withType .empty))
  else (serializer.serialize value).map fun body => ⟨header, body⟩

/-- The frame is within the bound, and its body within what the length field can describe. -/
structure Codec.Fits (c : Codec) (f : Frame) : Prop where
  body_le : f.body.length ≤ maxBodyLength
  size_le : headerLength + f.body.length ≤ c.limit

/-- A reader with this bound finds the frame at the front of a stream that begins with the bytes,
however the stream is cut into chunks, and reads what follows as a stream of its own. -/
def Codec.Finds (c : Codec) (bytes : Bytes) (f : Frame) : Prop :=
  ∀ chunks later, chunks.flatten = bytes ++ later →
    ((FrameReader.new c).receiveAll chunks).1 = .ok f :: RawFrame.outcomes c later

/-- The empty value has a frame without a body, another one has a frame when it can be
serialized. -/
theorem Frame.ofValue_cases (header : Header) (serializer : Serializer) (value : Value) :
    (value.isEmpty = true ∧
        Frame.ofValue header serializer value = .ok (.empty (header.withType .empty))) ∨
      (∃ body, value.isEmpty = false ∧ serializer.serialize value = .ok body ∧
        Frame.ofValue header serializer value = .ok ⟨header, body⟩) ∨
      ∃ e, value.isEmpty = false ∧ serializer.serialize value = .error e ∧
        Frame.ofValue header serializer value = .error e := by
  cases hempty : value.isEmpty with
  | true => exact Or.inl ⟨rfl, by rw [ofValue, if_pos hempty]⟩
  | false =>
    rcases hserialize : serializer.serialize value with e | body
    · exact Or.inr (Or.inr ⟨e, rfl, rfl, by simp [ofValue, hempty, hserialize, Except.map]⟩)
    · exact Or.inr (Or.inl ⟨body, rfl, rfl, by simp [ofValue, hempty, hserialize, Except.map]⟩)

/-! ### Writing -/

theorem Bytes.overwrite_append {a b c d : Bytes} (h : b.length = d.length) :
    Bytes.overwrite (a ++ b ++ c) a.length d = a ++ d ++ c := by
  have hdrop : (a ++ b ++ c).drop (a.length + d.length) = c := by
    rw [← h, ← List.length_append, List.drop_left]
  rw [Bytes.overwrite, hdrop, List.append_assoc a b c, List.take_left]

@[simp] theorem Header.length_bytes (h : Header) (n : Nat) : (h.bytes n).length = headerLength := by
  simp [Header.bytes, headerLength]

theorem Frame.length_bytes (f : Frame) : f.bytes.length = headerLength + f.body.length := by
  rw [Frame.bytes, List.length_append, Header.length_bytes]

/-- Filling in the length of the body makes the header of a body of this length. -/
theorem Header.overwrite_bytes (h : Header) (buffer body : Bytes) (n : Nat) :
    Bytes.overwrite (buffer ++ h.bytes 0 ++ body) (buffer.length + lengthOffset)
      (Bytes.ofBigEndian 2 n) = buffer ++ (h.bytes n ++ body) := by
  have hrouting : (buffer ++ (Bytes.ofBigEndian 4 h.service.toNat ++
      Bytes.ofBigEndian 8 h.request.toNat ++ [h.method, h.type.code])).length =
      buffer.length + lengthOffset := by
    simp [lengthOffset]
  have hoverwrite := Bytes.overwrite_append (a := buffer ++ (Bytes.ofBigEndian 4 h.service.toNat ++
      Bytes.ofBigEndian 8 h.request.toNat ++ [h.method, h.type.code])) (b := Bytes.ofBigEndian 2 0)
    (c := body) (d := Bytes.ofBigEndian 2 n) (by simp)
  rw [hrouting] at hoverwrite
  simpa only [Header.bytes, List.append_assoc] using hoverwrite

namespace Codec

variable {c : Codec} {f : Frame} {bytes : Bytes}

theorem fits_iff : c.Fits f ↔ f.body.length ≤ c.maxBody := by
  have hle := c.header_le
  rw [maxBody, Nat.le_min]
  constructor
  · intro h
    have hsize := h.size_le
    exact ⟨h.body_le, by omega⟩
  · rintro ⟨hbody, hsize⟩
    exact ⟨hbody, by omega⟩

instance (c : Codec) (f : Frame) : Decidable (c.Fits f) :=
  decidable_of_iff _ fits_iff.symm

/-- A frame that fits is appended to the buffer; one that does not leaves it as it was. -/
theorem encode_eq (c : Codec) (f : Frame) (buffer : Bytes) :
    c.encode f buffer =
      if c.Fits f then (buffer ++ f.bytes, .ok ())
      else (buffer, .error
        (.frameTooLarge (headerLength + f.body.length) (headerLength + c.maxBody))) := by
  have hlength : (buffer ++ f.header.bytes 0 ++ f.body).length - buffer.length - headerLength =
      f.body.length := by
    simp only [List.length_append, Header.length_bytes]
    omega
  have htake : (buffer ++ f.header.bytes 0 ++ f.body).take buffer.length = buffer := by
    rw [List.append_assoc, List.take_left]
  simp only [encode, encodeWith, BodyWriter.ofBytes, hlength, htake, f.header.overwrite_bytes]
  by_cases h : c.Fits f
  · have hle := fits_iff.mp h
    rw [if_neg (by omega), if_pos h, Frame.bytes]
  · have hlt : c.maxBody < f.body.length := Nat.not_le.mp fun hle => h (fits_iff.mpr hle)
    rw [if_pos hlt, if_neg h]

theorem frameBytes_eq_ok_iff : c.frameBytes f = .ok bytes ↔ c.Fits f ∧ bytes = f.bytes := by
  rw [frameBytes, encode_eq]
  by_cases h : c.Fits f
  · rw [if_pos h]
    constructor
    · rintro ⟨⟩
      exact ⟨h, rfl⟩
    · rintro ⟨-, rfl⟩
      rfl
  · rw [if_neg h]
    constructor
    · rintro ⟨⟩
    · rintro ⟨hfits, -⟩
      exact absurd hfits h

/-- A value is written as the frame that carries it, if there is one. -/
theorem valueBytes_eq (c : Codec) (header : Header) (serializer : Serializer) (value : Value) :
    c.valueBytes header serializer value =
      match Frame.ofValue header serializer value with
      | .ok f => c.frameBytes f
      | .error e => .error e.toError := by
  rcases Frame.ofValue_cases header serializer value with ⟨hempty, h⟩ |
    ⟨body, hvalue, hserialize, h⟩ | ⟨e, hvalue, hserialize, h⟩
  · rw [h, valueBytes, encodeValue, if_pos hempty]
    rfl
  · rw [h, valueBytes, encodeValue, hvalue, BodyWriter.ofValue, hserialize]
    rfl
  · rw [h, valueBytes, encodeValue, hvalue, BodyWriter.ofValue, hserialize]
    rfl

/-- A value is written exactly when it can be serialized and its frame fits. -/
theorem valueBytes_eq_ok_iff {header : Header} {serializer : Serializer} {value : Value} :
    c.valueBytes header serializer value = .ok bytes ↔
      ∃ f, Frame.ofValue header serializer value = .ok f ∧ c.Fits f ∧ bytes = f.bytes := by
  rw [valueBytes_eq]
  rcases Frame.ofValue header serializer value with e | f
  · constructor
    · rintro ⟨⟩
    · rintro ⟨f, ⟨⟩, -⟩
  · dsimp only
    rw [frameBytes_eq_ok_iff]
    constructor
    · intro h
      exact ⟨f, rfl, h⟩
    · rintro ⟨f, ⟨⟩, h⟩
      exact h

end Codec

/-! ### Reading -/

/-- The frame as it stands in a stream. -/
def Frame.raw (f : Frame) (h : f.body.length ≤ maxBodyLength) : RawFrame where
  service := f.header.service
  request := f.header.request
  method := f.header.method
  code := f.header.type.code
  bodyLength := UInt16.ofNat f.body.length
  body := f.body
  body_le := Nat.le_of_eq (UInt16.toNat_ofNat_of_lt' (Nat.lt_of_le_of_lt h (by decide))).symm

section raw

variable (f : Frame) (h : f.body.length ≤ maxBodyLength)

theorem Frame.toNat_bodyLength_raw : (f.raw h).bodyLength.toNat = f.body.length :=
  UInt16.toNat_ofNat_of_lt' (Nat.lt_of_le_of_lt h (by decide))

theorem Frame.isWhole_raw : (f.raw h).IsWhole :=
  (f.toNat_bodyLength_raw h).symm

theorem Frame.bytes_raw : (f.raw h).bytes = f.bytes := by
  rw [RawFrame.bytes, RawFrame.head, f.toNat_bodyLength_raw h]
  rfl

end raw

namespace Codec

variable {c : Codec} {f : Frame}

/-- A reader whose bound the frame fits accepts it. -/
theorem outcome?_raw (h : c.Fits f) : (f.raw h.body_le).outcome? c = some (.ok f) := by
  have hsize : ¬c.limit < (f.raw h.body_le).size := by
    have hle := h.size_le
    rw [RawFrame.size, f.toNat_bodyLength_raw h.body_le]
    omega
  have hcode : FrameType.ofCode? (f.raw h.body_le).code = some f.header.type :=
    FrameType.ofCode?_code f.header.type
  rw [RawFrame.outcome?, if_neg hsize, if_pos (f.isWhole_raw h.body_le), hcode]
  rfl

theorem outcomes_bytes_append (h : c.Fits f) (later : Bytes) :
    RawFrame.outcomes c (f.bytes ++ later) = .ok f :: RawFrame.outcomes c later := by
  rw [RawFrame.outcomes, RawFrame.frames, ← f.bytes_raw h.body_le,
    RawFrame.split_bytes_append (f.isWhole_raw h.body_le),
    List.filterMap_cons_some (outcome?_raw h)]
  rfl

/-- A frame that fits is found in the streams that begin with its bytes. -/
theorem finds_of_fits (h : c.Fits f) : c.Finds f.bytes f := by
  intro chunks later hchunks
  obtain ⟨hrun, hdry⟩ := (Decoding.start : Decoding c [] [] (.new c)).receiveAll rfl chunks
  have hfound := hrun.found_eq hdry
  rw [List.nil_append, List.nil_append, hchunks, outcomes_bytes_append h] at hfound
  exact hfound

end Codec

end RemoteCall
