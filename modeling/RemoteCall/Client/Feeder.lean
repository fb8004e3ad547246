import RemoteCall.Client.WriteLoop

/-!
# Feeding a writer

The side that queues frames and the writer share one thread and take turns. A turn of the feeding
side ends after `Feeder.turnLength` steps, when the queue is full, or when it sleeps; only then does
the writer run, and it runs until it has nothing to do. What is queued within one turn is therefore
written together, and a connection that is closed within the turn is closed first.
-/

namespace RemoteCall

/-- A writer, and what queues frames for it. -/
structure Feeder where
  writer : WriteLoop
  /-- The steps left in the turn. -/
  stepsLeft : Nat
  /-- The feeding side holds its end of the queue. -/
  attached : Bool
  /-- The connection holds an end of the queue too. -/
  shared : Bool

namespace Feeder

/-- The steps of a turn. -/
def turnLength : Nat := 128

/-- A feeding side at the beginning of its first turn. -/
def start (writer : WriteLoop) (shared : Bool) : Feeder :=
  ⟨writer, turnLength, true, shared⟩

/-- Ends the turn: the writer does what it can, and a new turn begins. -/
def yield (f : Feeder) : Feeder :=
  { f with writer := f.writer.settle, stepsLeft := turnLength }

/-- Queues a frame, after the writer has made room for it. -/
def send (f : Feeder) (frame : Bytes) : Feeder :=
  if !f.attached then f
  else
    let f := if f.stepsLeft = 0 ∨ f.writer.isFull then f.yield else f
    { f with writer := f.writer.push frame, stepsLeft := f.stepsLeft - 1 }

/-- Sleeps while the writer works. Waking up is the first step of a new turn; a sleep of no length
is a step like any other. -/
def sleep (f : Feeder) (ms : Nat) : Feeder :=
  let f :=
    if 0 < ms then { f with writer := f.writer.elapse ms, stepsLeft := turnLength }
    else if f.stepsLeft = 0 then f.yield
    else f
  { f with stepsLeft := f.stepsLeft - 1 }

/-- Closes the connection. -/
def close (f : Feeder) : Feeder :=
  { f with writer := { f.writer with closing := true } }

/-- Gives up the end of the queue. -/
def detach (f : Feeder) : Feeder :=
  { f with attached := false, writer := { f.writer with hasSender := f.shared } }

/-- Waits for the end of the writer, as long as the next heartbeat may take. -/
def finish (f : Feeder) : WriteLoop :=
  (f.writer.elapse f.writer.plan.intervalMs).settle

end Feeder

end RemoteCall
