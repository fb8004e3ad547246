import RemoteCall.Error

/-!
# Writing frames to a stream

A stream takes a bounded number of bytes with each call and may fail once. `Stream.writeAll` calls
it until a whole frame is taken, and again when a call was interrupted; every other failure becomes
an error that names what was being done.
-/

namespace RemoteCall

/-- The calls that a stream answers. -/
inductive StreamCall where
  | write
  | flush
  | shutdown
  deriving DecidableEq, Repr

/-- The call of this name. -/
def StreamCall.ofName? : String → Option StreamCall
  | "write" => some .write
  | "flush" => some .flush
  | "shutdown" => some .shutdown
  | _ => none

/-- A call that a stream carried out. -/
inductive StreamEvent where
  | written (bytes : Bytes)
  | flushed
  | shutdown
  deriving DecidableEq, Repr

/-- A stream: how many bytes it takes at a time, the call that will fail next, and what it has
carried out, last first. -/
structure Stream where
  chunk : Nat
  failing : Option (StreamCall × IoError)
  events : List StreamEvent

namespace Stream

/-- What the stream carried out, in order. -/
def history (s : Stream) : List StreamEvent :=
  s.events.reverse

/-- Carries out a call, or fails if this is the call to fail, once. -/
def perform (s : Stream) (call : StreamCall) (event : StreamEvent) : Except IoError Unit × Stream :=
  match s.failing with
  | some (c, e) =>
    if c = call then (.error e, { s with failing := none })
    else (.ok (), { s with events := event :: s.events })
  | none => (.ok (), { s with events := event :: s.events })

/-- Writes until no bytes are left. An interrupted call is made again; a stream that takes nothing
is an error. -/
def writeUpTo : (fuel : Nat) → Stream → Bytes → Except IoError Unit × Stream
  | 0, s, _ => (.ok (), s)
  | _ + 1, s, [] => (.ok (), s)
  | fuel + 1, s, bytes =>
    match s.perform .write (.written (bytes.take s.chunk)) with
    | (.error e, s) =>
      if e.kind = .interrupted then writeUpTo fuel s bytes else (.error e, s)
    | (.ok (), s) =>
      if s.chunk = 0 then (.error ⟨.other, "write zero"⟩, s)
      else writeUpTo fuel s (bytes.drop s.chunk)

/-- Writes one encoded frame, without flushing. -/
def writeAll (s : Stream) (frame : Bytes) : Except Error Unit × Stream :=
  let (r, s) := writeUpTo (frame.length + 2) s frame
  (r.mapError (.ofIo "writing frame"), s)

/-- Passes on what was written. -/
def flush (s : Stream) : Except Error Unit × Stream :=
  let (r, s) := s.perform .flush .flushed
  (r.mapError (.ofIo "flushing stream"), s)

/-- Flushes, then closes the stream for writing. -/
def shutdown (s : Stream) : Except Error Unit × Stream :=
  match s.flush with
  | (.error e, s) => (.error e, s)
  | (.ok (), s) =>
    let (r, s) := s.perform .shutdown .shutdown
    (r.mapError (.ofIo "shutting down stream"), s)

end Stream

/-- What reaches a socket behind a write buffer: the bytes between two flushes, and the end. -/
inductive SocketWrite where
  | flushed (bytes : Bytes)
  | shutdown
  deriving DecidableEq, Repr

end RemoteCall
