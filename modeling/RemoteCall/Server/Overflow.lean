import RemoteCall.Server.Connection
import RemoteCall.Service.Execution

/-!
# Full queues

A queue of calls asks its overflow policy before it takes a call, and tells it when a call has left.

* A delay policy refuses calls once the queue is full.
* A water-mark policy refuses nothing. A call that brings the queue to the high mark pauses the
  connection it came from; when the queue is down at the low mark, all paused connections resume.
-/

namespace RemoteCall.Server

/-- The low mark in percent of the capacity. -/
def lowPercent : Nat := 55

/-- The high mark in percent of the capacity. -/
def highPercent : Nat := 99

/-- The lengths at which connections resume and pause. -/
structure WaterMarks where
  low : Nat
  high : Nat
  deriving DecidableEq, Repr

namespace WaterMarks

/-- The marks of a capacity, which counts as one if it is zero. The high mark is at least one. -/
def ofCapacity (capacity : Nat) : WaterMarks :=
  let c := max capacity 1
  { low := c * lowPercent / 100
    high := max (c * highPercent / 100) 1 }

/-- The product of two numbers, if it fits 64 bits. -/
def product? (a b : UInt64) : Option UInt64 :=
  if a.toNat * b.toNat < UInt64.size then some (a * b) else none

/-- The marks of a capacity in 64-bit arithmetic; `none` when a product does not fit. -/
def ofCapacity? (capacity : UInt64) : Option (UInt64 × UInt64) := do
  let c := max capacity 1
  let low ← product? c (UInt64.ofNat lowPercent)
  let high ← product? c (UInt64.ofNat highPercent)
  pure (low / 100, max (high / 100) 1)

end WaterMarks

/-- What a policy says to a call. -/
inductive Admission where
  | accept
  | reject
  deriving DecidableEq, Repr

/-- How a queue deals with too many calls. -/
inductive OverflowPolicy where
  /-- Refuses calls beyond the capacity. -/
  | delay (capacity : Nat)
  /-- Pauses connections; `denied` are those paused here, each once. -/
  | waterMark (marks : WaterMarks) (denied : List ConnectionId)
  deriving DecidableEq, Repr

namespace OverflowPolicy

/-- The policy of a mode for a capacity, which counts as one if it is zero. -/
def ofMode (mode : OverflowMode) (capacity : Nat) : OverflowPolicy :=
  match mode with
  | .delay => delay (max capacity 1)
  | .waterMark => waterMark (.ofCapacity capacity) []

/-- A queue with this policy may grow past its capacity. -/
def isSoft : OverflowPolicy → Bool
  | delay _ => false
  | waterMark _ _ => true

/-- The connections that the policy has paused. -/
def denied : OverflowPolicy → List ConnectionId
  | delay _ => []
  | waterMark _ denied => denied

/-- A call of connection `c` asks to join a queue of this length. -/
def onEnqueue (queued : Nat) (c : ConnectionId) :
    OverflowPolicy → Admission × OverflowPolicy × List GateSignal
  | delay capacity => (if capacity ≤ queued then .reject else .accept, delay capacity, [])
  | waterMark marks denied =>
    if marks.high ≤ queued + 1 then
      (.accept, waterMark marks (if c ∈ denied then denied else denied ++ [c]), [.pause c])
    else (.accept, waterMark marks denied, [])

/-- Calls have left, and the queue has this length now. -/
def onDequeue (queued : Nat) : OverflowPolicy → OverflowPolicy × List GateSignal
  | delay capacity => (delay capacity, [])
  | waterMark marks denied =>
    if marks.low < queued then (waterMark marks denied, [])
    else (waterMark marks [], denied.map .resume)

end OverflowPolicy

end RemoteCall.Server
