import RemoteCall.Frame.Codec
import RemoteCall.Frame.Writer

/-!
# The writer of a client connection

The writer takes queued frames in batches, flushing after each, and sends a heartbeat whenever a
whole interval passes without a frame. It ends when the connection is closed, when nobody can queue
frames any more, when writing fails, or when the peer has been silent for too many intervals.

Time is virtual: `WriteLoop.elapse` lets a span of it pass.
-/

namespace RemoteCall

/-- When signs of life are sent, and how many may go unanswered. -/
structure HeartbeatPlan where
  service : ServiceId
  intervalMs : Nat
  maxMissed : Nat

/-- The silence after which the peer counts as gone. -/
def HeartbeatPlan.silenceLimitMs (h : HeartbeatPlan) : Nat :=
  h.intervalMs * h.maxMissed

/-- The sign of life. -/
def HeartbeatPlan.frame (h : HeartbeatPlan) : Bytes :=
  (Header.heartbeat h.service).bytes 0

/-- Why the writer ended. -/
inductive WriterExit where
  /-- The connection was closed, or nobody can queue frames any more. -/
  | closed
  /-- Writing failed, or the peer is silent. -/
  | lost
  deriving DecidableEq, Repr

/-- The reason's name. -/
def WriterExit.name : WriterExit → String
  | closed => "Closed"
  | lost => "Lost"

/-- A writer at work. -/
structure WriteLoop where
  plan : HeartbeatPlan
  /-- Writing any bytes fails. -/
  broken : Bool
  /-- The most frames that wait. -/
  capacity : Nat
  queue : List Bytes
  /-- Somebody can still queue frames. -/
  hasSender : Bool
  /-- The connection was closed. -/
  closing : Bool
  /-- How long nothing was read. -/
  silentMs : Nat
  /-- The time left until a heartbeat is due. -/
  leftMs : Nat
  /-- What reached the socket, last first. -/
  writes : List SocketWrite
  exit : Option WriterExit

namespace WriteLoop

/-- The most frames that are written before a flush. -/
def maxBatch : Nat := 64

/-- A writer that has not done anything yet. -/
def start (plan : HeartbeatPlan) (capacity : Nat) (broken : Bool) : WriteLoop :=
  { plan, broken, capacity, queue := [], hasSender := true, closing := false, silentMs := 0
    leftMs := plan.intervalMs, writes := [], exit := none }

/-- No further frame can wait. -/
def isFull (w : WriteLoop) : Bool :=
  w.capacity ≤ w.queue.length

/-- Queues a frame, unless the queue is full. -/
def push (w : WriteLoop) (frame : Bytes) : WriteLoop :=
  if w.isFull then w else { w with queue := w.queue ++ [frame] }

/-- Writes and flushes; the wait for the next frame begins anew. -/
def write (w : WriteLoop) (bytes : Bytes) : WriteLoop :=
  if w.broken && !bytes.isEmpty then { w with exit := some .lost }
  else { w with writes := .flushed bytes :: w.writes, leftMs := w.plan.intervalMs }

/-- Does what can be done without waiting; `none` when the writer waits or has ended. A heartbeat
that is due is sent only when there is nothing else to do. -/
def step? (w : WriteLoop) : Option WriteLoop :=
  if w.exit.isSome then none
  else if w.plan.silenceLimitMs ≤ w.silentMs then some { w with exit := some .lost }
  else if w.closing then
    some { w with writes := .shutdown :: .flushed [] :: w.writes, exit := some .closed }
  else if !w.queue.isEmpty then
    some ({ w with queue := w.queue.drop maxBatch }.write (w.queue.take maxBatch).flatten)
  else if !w.hasSender then some { w with exit := some .closed }
  else if w.leftMs = 0 then some (w.write w.plan.frame)
  else none

/-- Does all that can be done without waiting, in at most `fuel` steps. -/
def settleUpTo : (fuel : Nat) → WriteLoop → WriteLoop
  | 0, w => w
  | fuel + 1, w =>
    match w.step? with
    | none => w
    | some w => settleUpTo fuel w

/-- Does all that can be done without waiting. -/
def settle (w : WriteLoop) : WriteLoop :=
  settleUpTo (w.queue.length + 3) w

/-- Lets time pass, with at most `fuel` heartbeats on the way. -/
def elapseUpTo : (fuel : Nat) → (ms : Nat) → WriteLoop → WriteLoop
  | 0, _, w => w
  | fuel + 1, ms, w =>
    let w := w.settle
    if w.exit.isSome then w
    else if ms ≤ w.leftMs then { w with leftMs := w.leftMs - ms }
    else elapseUpTo fuel (ms - w.leftMs) { w with leftMs := 0 }

/-- Lets time pass, and stops at its end: what is due then is still to be done. -/
def elapse (w : WriteLoop) (ms : Nat) : WriteLoop :=
  elapseUpTo (ms + 1) ms w

/-- What reached the socket, in order. -/
def history (w : WriteLoop) : List SocketWrite :=
  w.writes.reverse

end WriteLoop

end RemoteCall
