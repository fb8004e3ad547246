import RemoteCall.Server.Groups

/-!
# The delay list

A task that a full queue refused is parked here for a while and its connection is paused; then it is
offered again. After too many refusals the caller hears that the server is busy.

One thread looks after the list. It takes a due task into its hand, offers it to its executor, and
parks it again when it is refused, so a task can be in the hand while the list is closed.
-/

namespace RemoteCall.Server

/-- How long tasks are delayed, and how often. -/
structure DelayConfig where
  delayMs : Nat
  maxAttempts : Nat
  deriving DecidableEq, Repr

/-- A delayed task. -/
structure Parked where
  wakeMs : Nat
  task : Task
  executor : ExecutorIndex

/-- What the thread of the list has in its hand. -/
inductive Hand where
  | empty
  /-- A due task, to be offered to its executor. -/
  | due (p : Parked)
  /-- A task that its executor refused once more, to be parked again. -/
  | refused (task : Task) (executor : ExecutorIndex)

/-- The delayed tasks, those to be woken first in front. -/
structure DelayList where
  config : DelayConfig
  parked : List Parked
  hand : Hand
  closed : Bool
  /-- How often a delayed task was offered again. -/
  resubmits : Nat

/-- What becomes of a task that is to be delayed. -/
inductive Delay where
  | parked
  /-- The task has used up its attempts. -/
  | givenUp
  /-- The list is closed. -/
  | closed
  deriving DecidableEq, Repr

namespace DelayList

/-- An open list without tasks. -/
def new (config : DelayConfig) : DelayList :=
  { config, parked := [], hand := .empty, closed := false, resubmits := 0 }

/-- The number of parked tasks. -/
def size (d : DelayList) : Nat :=
  d.parked.length

/-- Puts a parked task behind all that wake no later. -/
def insertParked (p : Parked) : List Parked → List Parked
  | [] => [p]
  | q :: rest => if p.wakeMs < q.wakeMs then p :: q :: rest else q :: insertParked p rest

/-- Parks a task, unless its attempts are used up or the list is closed. -/
def add (d : DelayList) (nowMs : Nat) (t : Task) (executor : ExecutorIndex) : Delay × DelayList :=
  if d.config.maxAttempts ≤ t.attempts then (.givenUp, d)
  else if d.closed then (.closed, d)
  else
    let p : Parked :=
      { wakeMs := nowMs + d.config.delayMs
        task := { t with attempts := t.attempts + 1 }
        executor }
    (.parked, { d with parked := insertParked p d.parked })

/-- When the next task is due. -/
def nextWake? (d : DelayList) : Option Nat :=
  d.parked.head?.map Parked.wakeMs

/-- Takes the first task into an empty hand, if the list is open and the task is due. -/
def pop (d : DelayList) (nowMs : Nat) : DelayList :=
  match d.hand, d.parked with
  | .empty, p :: rest =>
    if !d.closed && p.wakeMs ≤ nowMs then { d with parked := rest, hand := .due p } else d
  | _, _ => d

/-- Closes the list; gives the tasks that were parked. Nothing happens the second time. -/
def close (d : DelayList) : List Parked × DelayList :=
  if d.closed then ([], d) else (d.parked, { d with parked := [], closed := true })

end DelayList

end RemoteCall.Server
