import RemoteCall.Frame
import RemoteCall.Serializer

/-!
# Frames as bytes

A `Codec` bounds the length of whole frames. Encoding appends a frame to a buffer: first the header
with a zero in place of the body's length, then the body, then the length is filled in; when the
body fails or is too long, the buffer is cut back to what it was.

Decoding is incremental. A `Decoder` looks at the front of the bytes that have arrived and takes off
one whole frame, or asks for more. A frame that is too long, or whose type is unknown, is an error
and is still taken off, so the frames behind it stay aligned.
-/

namespace RemoteCall

/-- The bound on whole frames, header included. -/
structure Codec where
  limit : Nat
  header_le : headerLength ≤ limit

namespace Codec

/-- The codec with this bound, or with the least possible one. -/
def ofLimit (limit : Nat) : Codec :=
  ⟨max limit headerLength, Nat.le_max_right _ _⟩

/-- The codec with the default bound. -/
def standard : Codec :=
  ofLimit defaultFrameLimit

instance : Inhabited Codec := ⟨standard⟩

/-- The longest body that is encoded: it has to fit the bound and the length field. -/
def maxBody (c : Codec) : Nat :=
  min maxBodyLength (c.limit - headerLength)

end Codec

/-- Where the body's length stands in a header. -/
def lengthOffset : Nat := 14

/-- The bytes of a header in front of a body of this length. -/
def Header.bytes (h : Header) (bodyLength : Nat) : Bytes :=
  Bytes.ofBigEndian 4 h.service.toNat ++ Bytes.ofBigEndian 8 h.request.toNat ++
    [h.method, h.type.code] ++ Bytes.ofBigEndian 2 bodyLength

/-- What a writer of bodies does: the bytes that it appends, and whether it then fails. -/
structure BodyWriter where
  appended : Bytes
  failure : Option Error

namespace BodyWriter

/-- Writes the bytes and succeeds. -/
def ofBytes (bytes : Bytes) : BodyWriter :=
  ⟨bytes, none⟩

/-- Writes a value. -/
def ofValue (serializer : Serializer) (value : Value) : BodyWriter :=
  match serializer.serialize value with
  | .ok bytes => ofBytes bytes
  | .error e => ⟨[], some e.toError⟩

end BodyWriter

namespace Codec

/-- Appends a frame to a buffer; on failure the buffer is as before. -/
def encodeWith (c : Codec) (header : Header) (body : BodyWriter) (buffer : Bytes) :
    Bytes × Except Error Unit :=
  let start := buffer.length
  let grown := buffer ++ header.bytes 0 ++ body.appended
  match body.failure with
  | some e => (grown.take start, .error e)
  | none =>
    let length := grown.length - start - headerLength
    if c.maxBody < length then
      (grown.take start, .error (.frameTooLarge (headerLength + length) (headerLength + c.maxBody)))
    else (Bytes.overwrite grown (start + lengthOffset) (Bytes.ofBigEndian 2 length), .ok ())

/-- Appends a frame to a buffer. -/
def encode (c : Codec) (frame : Frame) (buffer : Bytes) : Bytes × Except Error Unit :=
  c.encodeWith frame.header (.ofBytes frame.body) buffer

/-- Appends a frame with a value as its body. The empty value makes a frame without a body,
whatever type the header asks for. -/
def encodeValue (c : Codec) (header : Header) (serializer : Serializer) (value : Value)
    (buffer : Bytes) : Bytes × Except Error Unit :=
  if value.isEmpty then c.encodeWith (header.withType .empty) (.ofBytes []) buffer
  else c.encodeWith header (.ofValue serializer value) buffer

/-- The bytes of one frame. -/
def frameBytes (c : Codec) (frame : Frame) : Except Error Bytes :=
  let (bytes, outcome) := c.encode frame []
  outcome.map fun _ => bytes

/-- The bytes of one frame with a value as its body. -/
def valueBytes (c : Codec) (header : Header) (serializer : Serializer) (value : Value) :
    Except Error Bytes :=
  let (bytes, outcome) := c.encodeValue header serializer value []
  outcome.map fun _ => bytes

end Codec

/-- The frame of a whole header and its body. An unknown type is an error that belongs to the
frame's request. -/
def Frame.ofParts (head body : Bytes) : Except Error Frame :=
  let call : CallRef :=
    { service := UInt32.ofNat (Bytes.toBigEndian (head.take 4))
      request := UInt64.ofNat (Bytes.toBigEndian ((head.drop 4).take 8))
      method := head.getD 12 0 }
  let code := head.getD 13 0
  match FrameType.ofCode? code with
  | some type => .ok ⟨⟨call.service, call.request, call.method, type⟩, body⟩
  | none => .error (.rpc ⟨.unsupportedType, s!"unsupported type id {code}"⟩ (some call))

/-- What remains of a decoder between calls: its bound and the bytes of an overlong frame that are
still to be skipped. -/
structure Decoder where
  codec : Codec
  skipping : Nat

/-- What a decoder finds at the front of the bytes that have arrived. -/
inductive Decoded where
  | frame (f : Frame)
  | failed (e : Error)
  | needMore

/-- The frame or error, if one was found. -/
def Decoded.outcome? : Decoded → Option (Except Error Frame)
  | frame f => some (.ok f)
  | failed e => some (.error e)
  | needMore => none

namespace Decoder

/-- A decoder at the start of a stream. -/
def new (codec : Codec) : Decoder :=
  ⟨codec, 0⟩

/-- Takes the next frame off the bytes; gives the decoder and the bytes afterwards. -/
def step (d : Decoder) (bytes : Bytes) : Decoded × Decoder × Bytes :=
  let (missing, bytes) := if d.skipping = 0 then (0, bytes) else Bytes.skip d.skipping bytes
  if missing ≠ 0 then (.needMore, { d with skipping := missing }, bytes)
  else
    let d := { d with skipping := 0 }
    match Bytes.split? headerLength bytes with
    | none => (.needMore, d, bytes)
    | some (head, rest) =>
      let bodyLength := Bytes.toBigEndian (head.drop lengthOffset)
      let size := headerLength + bodyLength
      if d.codec.limit < size then
        let (missing, bytes) := Bytes.skip size bytes
        (.failed (.frameTooLarge size d.codec.limit), { d with skipping := missing }, bytes)
      else
        match Bytes.split? bodyLength rest with
        | none => (.needMore, d, bytes)
        | some (body, rest) =>
          match Frame.ofParts head body with
          | .ok frame => (.frame frame, d, rest)
          | .error e => (.failed e, d, rest)

/-- Takes frames off the bytes until more are needed, at most `fuel` of them. -/
def drainUpTo : (fuel : Nat) → Decoder → Bytes → List (Except Error Frame) × Decoder × Bytes
  | 0, d, bytes => ([], d, bytes)
  | fuel + 1, d, bytes =>
    let (found, d, bytes) := d.step bytes
    match found.outcome? with
    | none => ([], d, bytes)
    | some outcome =>
      let (more, d, bytes) := drainUpTo fuel d bytes
      (outcome :: more, d, bytes)

/-- Takes frames off the bytes until more are needed. -/
def drain (d : Decoder) (bytes : Bytes) : List (Except Error Frame) × Decoder × Bytes :=
  drainUpTo (bytes.length + 1) d bytes

end Decoder

end RemoteCall
