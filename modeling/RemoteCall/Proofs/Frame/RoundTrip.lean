import RemoteCall.Proofs.Frame.Encoding

/-!
# Encoding undone by decoding

A codec fills in the length of a body when the body stands in the buffer already, behind whatever
the buffer held before. When the body turns out too long, or its writer fails halfway, the buffer is
cut back to what it was. When neither happens, the bytes that were appended are those of the frame,
and a decoder with any other bound takes exactly these bytes off again: as the frame, or as one that
is too long for it.

## Main results

* `Codec.encodeWith_eq` : what any writer of a body makes of a buffer.
* `Decoder.step_bytes_append` : what a decoder makes of the bytes of a frame.
* `Codec.encoding_undone` : encoding is undone by decoding, or undoes itself.
-/

namespace RemoteCall

namespace Codec

variable {c : Codec} {header : Header} {body : BodyWriter} {buffer : Bytes} {e : Error}

/-- A writer that fails leaves nothing behind, and one that does not fail makes the frame of what it
wrote. -/
theorem encodeWith_eq (c : Codec) (header : Header) (body : BodyWriter) (buffer : Bytes) :
    c.encodeWith header body buffer =
      match body.failure with
      | some e => (buffer, .error e)
      | none => c.encode ⟨header, body.appended⟩ buffer := by
  obtain ⟨appended, failure⟩ := body
  cases failure with
  | some e =>
    have htake : (buffer ++ header.bytes 0 ++ appended).take buffer.length = buffer := by
      rw [List.append_assoc, List.take_left]
    change ((buffer ++ header.bytes 0 ++ appended).take buffer.length, _) = _
    rw [htake]
  | none => rfl

/-- A frame is encoded when its body is within the bound and the length field. -/
theorem encode_eq_ok_iff {f : Frame} :
    (c.encode f buffer).2 = .ok () ↔ f.body.length ≤ min maxBodyLength (c.limit - headerLength) := by
  change _ ↔ f.body.length ≤ c.maxBody
  rw [← fits_iff, encode_eq]
  by_cases hfits : c.Fits f
  · rw [if_pos hfits]
    exact ⟨fun _ => hfits, fun _ => rfl⟩
  · rw [if_neg hfits]
    refine ⟨?_, fun h => absurd h hfits⟩
    rintro ⟨⟩

/-- Whatever goes wrong, the buffer is as it was. -/
theorem encodeWith_of_error (h : (c.encodeWith header body buffer).2 = .error e) :
    (c.encodeWith header body buffer).1 = buffer := by
  rw [encodeWith_eq] at h ⊢
  cases hfailure : body.failure with
  | some e => rfl
  | none =>
    simp only [hfailure, encode_eq] at h ⊢
    by_cases hfits : c.Fits ⟨header, body.appended⟩
    · rw [if_pos hfits] at h
      cases h
    · rw [if_neg hfits]

/-- A value is encoded by a writer of bodies. -/
theorem encodeValue_eq_encodeWith (c : Codec) (header : Header) (serializer : Serializer)
    (value : Value) : ∃ header' body, ∀ buffer,
      c.encodeValue header serializer value buffer = c.encodeWith header' body buffer := by
  by_cases hempty : value.isEmpty = true
  · exact ⟨_, _, fun _ => if_pos hempty⟩
  · exact ⟨_, _, fun _ => if_neg hempty⟩

end Codec

/-- A fresh decoder takes a frame off the bytes that begin with it, and skips it when it is too long
for the decoder. -/
theorem Decoder.step_bytes_append (c : Codec) {f : Frame} (h : f.body.length ≤ maxBodyLength)
    (later : Bytes) :
    (Decoder.new c).step (f.bytes ++ later) =
      if headerLength + f.body.length ≤ c.limit then (.frame f, .new c, later)
      else (.failed (.frameTooLarge (headerLength + f.body.length) c.limit), .new c, later) := by
  have hraw : RawFrame.ofStream (f.bytes ++ later) = f.raw h := by
    rw [← f.bytes_raw h]
    exact RawFrame.ofStream_bytes_append (.inl (f.isWhole_raw h))
  have hsize : (f.raw h).size = headerLength + f.body.length := by
    rw [RawFrame.size, f.toNat_bodyLength_raw h]
  have hlength : (f.bytes ++ later).length = headerLength + f.body.length + later.length := by
    rw [List.length_append, f.length_bytes]
  have hdrop : (f.bytes ++ later).drop (headerLength + f.body.length) = later := by
    rw [← f.length_bytes, List.drop_left]
  have hskip : headerLength + f.body.length - (f.bytes ++ later).length = 0 := by omega
  rw [step_new, RawFrame.answer?, if_neg (by omega), hraw, hsize, hskip, hdrop]
  by_cases hlimit : headerLength + f.body.length ≤ c.limit
  · rw [Codec.outcome?_raw ⟨h, hlimit⟩, if_pos hlimit]
    rfl
  · rw [RawFrame.outcome?, hsize, if_pos (by omega), if_neg hlimit]
    rfl

/-- A frame is encoded exactly when its body is within the bound and the length field. What is
appended then is as long as the frame, and any codec decodes it together with whatever follows: to
the frame if it is within the bound of that codec, to the refusal of a frame of this length
otherwise, and what follows is left. A codec never refuses what it has encoded. On an error, of the
bound, of a body's writer after whatever it had appended, or of a serializer, the buffer is as
before. -/
theorem Codec.encoding_undone (a b : Codec) (f : Frame) (buffer : Bytes) :
    ((a.encode f buffer).2 = .ok () ↔
        f.body.length ≤ min maxBodyLength (a.limit - headerLength)) ∧
      ((a.encode f buffer).2 = .ok () → ∃ appended,
        (a.encode f buffer).1 = buffer ++ appended ∧
          appended.length = headerLength + f.body.length ∧
          ∀ later,
            (Decoder.new a).step (appended ++ later) = (.frame f, .new a, later) ∧
              (Decoder.new b).step (appended ++ later) =
                if headerLength + f.body.length ≤ b.limit then (.frame f, .new b, later)
                else (.failed (.frameTooLarge (headerLength + f.body.length) b.limit), .new b,
                  later)) ∧
      (∀ e, (a.encode f buffer).2 = .error e → (a.encode f buffer).1 = buffer) ∧
      (∀ header body e, (a.encodeWith header body buffer).2 = .error e →
        (a.encodeWith header body buffer).1 = buffer) ∧
      (∀ header appended e, a.encodeWith header ⟨appended, some e⟩ buffer = (buffer, .error e)) ∧
      ∀ header serializer value e, (a.encodeValue header serializer value buffer).2 = .error e →
        (a.encodeValue header serializer value buffer).1 = buffer := by
  refine ⟨encode_eq_ok_iff, fun hok => ?_, fun e => encodeWith_of_error,
    fun header body e => encodeWith_of_error, fun header appended e => encodeWith_eq .., ?_⟩
  · have hfits : a.Fits f := fits_iff.2 (encode_eq_ok_iff.1 hok)
    have hencode : (a.encode f buffer).1 = buffer ++ f.bytes := by
      rw [encode_eq, if_pos hfits]
    refine ⟨f.bytes, hencode, f.length_bytes, fun later => ⟨?_, ?_⟩⟩
    · rw [Decoder.step_bytes_append a hfits.body_le, if_pos hfits.size_le]
    · exact Decoder.step_bytes_append b hfits.body_le later
  · intro header serializer value e he
    obtain ⟨header', body, hvalue⟩ := a.encodeValue_eq_encodeWith header serializer value
    rw [hvalue] at he ⊢
    exact encodeWith_of_error he

end RemoteCall
