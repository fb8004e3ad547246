import RemoteCall.Frame.Writer
import RemoteCall.Server.Connection

/-!
# The writer of a server connection

The writer receives queued messages in batches of at most 64, writes the frames of a batch, and
flushes once after it. A batch is written up to its first `close`; then the writer flushes, shuts
the socket down and stops, whatever is still queued.

How the messages fall into batches depends on when they were queued; `writeBatches` takes any
grouping, and `batches` is the one of messages that were all queued before.
-/

namespace RemoteCall.Server.WriteLoop

/-- The most messages in one batch. -/
def maxBatch : Nat := 64

/-- Cuts messages into full batches, in at most `fuel` of them. -/
def batchesUpTo : (fuel : Nat) → List Outbound → List (List Outbound)
  | 0, _ => []
  | _ + 1, [] => []
  | fuel + 1, ms => ms.take maxBatch :: batchesUpTo fuel (ms.drop maxBatch)

/-- Cuts messages into full batches. -/
def batches (ms : List Outbound) : List (List Outbound) :=
  batchesUpTo ms.length ms

/-- The bytes of the frames before the first `close`, and whether there is one. -/
def frames : List Outbound → Bytes × Bool
  | [] => ([], false)
  | .close :: _ => ([], true)
  | .frame bytes :: ms =>
    let (rest, closing) := frames ms
    (bytes ++ rest, closing)

/-- Writes batches until one holds a `close`. -/
def writeBatches : List (List Outbound) → List SocketWrite
  | [] => []
  | batch :: rest =>
    let (bytes, closing) := frames batch
    if closing then [.flushed bytes, .shutdown] else .flushed bytes :: writeBatches rest

/-- The bytes that reach the peer. -/
def received : List SocketWrite → Bytes
  | [] => []
  | .flushed bytes :: rest => bytes ++ received rest
  | .shutdown :: rest => received rest

/-- Writes messages that are all queued. -/
def run (ms : List Outbound) : List SocketWrite :=
  writeBatches (batches ms)

end RemoteCall.Server.WriteLoop
