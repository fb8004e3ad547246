import RemoteCall.Server.Overflow
import RemoteCall.Server.Task

/-!
# Queues of tasks

A queue hands tasks out in the order in which it took them, and asks an overflow policy before it
takes one. A closed queue takes nothing more but still hands out what it holds.
-/

namespace RemoteCall.Server

/-- What becomes of a task that is offered to a queue. -/
inductive Offer where
  | accepted
  /-- The policy refused the task. -/
  | rejected (t : Task)
  /-- The queue takes nothing more. -/
  | closed (t : Task)

/-- What a queue gives to somebody who does not wait. -/
inductive Take where
  | task (t : Task)
  /-- There is nothing yet. -/
  | nothing
  /-- The queue is closed and empty. -/
  | closed

/-- A queue of tasks. -/
structure TaskQueue where
  tasks : List Task
  closed : Bool
  /-- The capacity in name; a soft queue may hold more. -/
  capacity : Nat
  policy : OverflowPolicy

namespace TaskQueue

/-- An empty queue, with a capacity of at least one. -/
def new (capacity : Nat) (policy : OverflowPolicy) : TaskQueue :=
  { tasks := [], closed := false, capacity := max capacity 1, policy }

/-- The number of tasks. -/
def size (q : TaskQueue) : Nat :=
  q.tasks.length

/-- There are no tasks. -/
def isEmpty (q : TaskQueue) : Bool :=
  q.tasks.isEmpty

/-- Offers a task. One that is not accepted is given back, and the queue is as before. -/
def offer (q : TaskQueue) (t : Task) : Offer × TaskQueue × List GateSignal :=
  if q.closed then (.closed t, q, [])
  else
    match q.policy.onEnqueue q.size t.connection with
    | (.reject, _, _) => (.rejected t, q, [])
    | (.accept, policy, signals) => (.accepted, { q with tasks := q.tasks ++ [t], policy }, signals)

/-- Takes the first task, without waiting. -/
def take (q : TaskQueue) : Take × TaskQueue × List GateSignal :=
  match q.tasks with
  | [] => (if q.closed then .closed else .nothing, q, [])
  | t :: tasks =>
    let (policy, signals) := q.policy.onDequeue tasks.length
    (.task t, { q with tasks, policy }, signals)

/-- Takes nothing more from now on. -/
def close (q : TaskQueue) : TaskQueue :=
  { q with closed := true }

/-- Takes all tasks at once. -/
def drain (q : TaskQueue) : List Task × TaskQueue × List GateSignal :=
  let (policy, signals) := q.policy.onDequeue 0
  (q.tasks, { q with tasks := [], policy }, signals)

end TaskQueue

end RemoteCall.Server
