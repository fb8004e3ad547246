import RemoteCall.Frame.Codec

/-!
# Reading frames from a stream

A `FrameReader` keeps the bytes that have arrived and not yet been taken off as frames. Chunks may
end anywhere: `receive` gives the frames and errors that a chunk completes, and `finish` says
whether the stream may end where it ended.
-/

namespace RemoteCall

/-- An error after which the stream goes on: one frame was skipped, or one request failed. -/
def Error.keepsStream : Error → Bool
  | .frameTooLarge _ _ => true
  | e => e.call?.isSome

/-- How a stream ends. -/
inductive StreamEnd where
  /-- The peer closed it. -/
  | closed
  /-- Reading failed. -/
  | broken (e : IoError)
  deriving DecidableEq, Repr

/-- A decoder and the bytes that have arrived for it. -/
structure FrameReader where
  decoder : Decoder
  buffer : Bytes

namespace FrameReader

/-- A reader at the start of a stream. -/
def new (codec : Codec) : FrameReader :=
  ⟨.new codec, []⟩

/-- The frames and errors that a chunk completes. -/
def receive (r : FrameReader) (chunk : Bytes) : List (Except Error Frame) × FrameReader :=
  let (found, decoder, buffer) := r.decoder.drain (r.buffer ++ chunk)
  (found, ⟨decoder, buffer⟩)

/-- The frames and errors of several chunks. -/
def receiveAll (r : FrameReader) : List Bytes → List (Except Error Frame) × FrameReader
  | [] => ([], r)
  | chunk :: chunks =>
    let (found, r) := r.receive chunk
    let (more, r) := r.receiveAll chunks
    (found ++ more, r)

/-- The end of the stream: nothing more to read, or an error when bytes of a frame are left over
or reading failed. -/
def finish (r : FrameReader) : StreamEnd → Except Error Unit
  | .broken e => .error (.ofIo "reading frame" e)
  | .closed =>
    if r.buffer.isEmpty then .ok ()
    else
      .error (.connection s!"peer closed with {r.buffer.length} bytes of a partial frame buffered")

/-- All that a stream gives: the frames and errors in order, and how it ends. -/
def session (codec : Codec) (chunks : List Bytes) (ending : StreamEnd) :
    List (Except Error Frame) × Except Error Unit :=
  let (found, r) := (new codec).receiveAll chunks
  (found, r.finish ending)

end FrameReader

end RemoteCall
