import RemoteCall.Frame.Reader
import RemoteCall.Server.Connection

/-!
# The reader of a server connection

The reader takes frames off the stream one by one while the read gate is open, and hands each to the
server. It stops at the end of the stream, at an error that the stream does not survive, when the
connection is closed, and after a long silence; stopping closes the connection. While the gate is
shut nothing is read, and that time does not count as silence.
-/

namespace RemoteCall.Server

/-- What a reader finds next. -/
inductive Arrival where
  | frame (f : Frame)
  | failure (e : Error)
  deriving DecidableEq, Repr

/-- How the arrivals on a stream end. -/
inductive Ending where
  /-- The peer closed the stream. -/
  | closed
  /-- Nothing arrives any more. -/
  | silence
  deriving DecidableEq, Repr

/-- A reader at work: its connection, what it has not read yet, and what it has handed on, last
first. -/
structure ReadLoop where
  connection : Connection
  unread : List Arrival
  handed : List Arrival
  /-- The reader has ended. -/
  stopped : Bool

namespace ReadLoop

/-- Frames and failures in the order of their arrival. A stream that the peer closes inside a frame
ends with a failure. -/
def arrivals (codec : Codec) (chunks : List Bytes) (ending : Ending) : List Arrival :=
  let (found, last) := FrameReader.session codec chunks .closed
  let found := found.map fun
    | .ok f => .frame f
    | .error e => .failure e
  match ending, last with
  | .closed, .error e => found ++ [.failure e]
  | _, _ => found

/-- A reader that has not read anything. -/
def start (connection : Connection) (unread : List Arrival) : ReadLoop :=
  { connection, unread, handed := [], stopped := false }

/-- Ends the reader and closes its connection. -/
def stop (r : ReadLoop) : ReadLoop :=
  { r with connection := r.connection.close, stopped := true }

/-- Reads until the gate is shut or the reader ends. `onFrame` is what the server does with a frame;
an error that `Error.keepsStream` does not cover ends the reader. -/
def readFrom (onFrame : Frame → Connection → Connection) (connection : Connection)
    (handed : List Arrival) : (unread : List Arrival) → ReadLoop
  | [] =>
    if connection.gateOpen then stop ⟨connection, [], handed, false⟩
    else ⟨connection, [], handed, false⟩
  | a :: unread =>
    if !connection.gateOpen then ⟨connection, a :: unread, handed, false⟩
    else if connection.closed then stop ⟨connection, a :: unread, handed, false⟩
    else
      match a with
      | .frame f => readFrom onFrame (onFrame f connection) (a :: handed) unread
      | .failure e =>
        if e.keepsStream then readFrom onFrame connection (a :: handed) unread
        else stop ⟨connection, unread, a :: handed, false⟩

/-- Reads until the gate is shut or the reader ends. -/
def run (onFrame : Frame → Connection → Connection) (r : ReadLoop) : ReadLoop :=
  if r.stopped then r else readFrom onFrame r.connection r.handed r.unread

/-- Opens the gate. -/
def resume (r : ReadLoop) : ReadLoop :=
  { r with connection := r.connection.resume }

end ReadLoop

end RemoteCall.Server
