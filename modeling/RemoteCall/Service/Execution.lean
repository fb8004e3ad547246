/-!
# How calls are executed

A method says how its calls are run: on how many threads, alone or in a named group with other
methods, behind a queue of what capacity, and what happens when the queue is full.
-/

namespace RemoteCall

/-- What happens when a queue is full. -/
inductive OverflowMode where
  /-- The call is refused for now and tried again later. -/
  | delay
  /-- The call is taken, and its connection is not read until the queue is shorter. -/
  | waterMark
  deriving DecidableEq, Repr

/-- The threads that run calls. -/
inductive Threads where
  | single
  /-- At least `min` and, when they are all busy, up to `max`. -/
  | pool (min max : Nat)
  deriving DecidableEq, Repr

/-- How the calls of a method are executed. -/
structure Execution where
  threads : Threads
  group : String
  /-- Methods that share a group run on one executor. -/
  shared : Bool
  capacity : Nat
  overflow : OverflowMode
  /-- How long a thread above the minimum waits for work, in milliseconds. -/
  keepAliveMs : Nat
  deriving DecidableEq, Repr

namespace Execution

/-- One thread of its own and a queue of ten thousand calls. -/
def single : Execution :=
  { threads := .single
    group := "default"
    shared := false
    capacity := 10000
    overflow := .delay
    keepAliveMs := 60000 }

instance : Inhabited Execution := ⟨single⟩

/-- Between `min` and `max` threads, at least one. -/
def pool (min max : Nat) : Execution :=
  let least := Nat.max min 1
  { single with threads := .pool least (Nat.max max least) }

/-- On the executor of the group. -/
def sharedIn (e : Execution) (group : String) : Execution :=
  { e with group, shared := true }

/-- With room for this many waiting calls, at least one. -/
def withCapacity (e : Execution) (capacity : Nat) : Execution :=
  { e with capacity := max capacity 1 }

/-- With another answer to a full queue. -/
def withOverflow (e : Execution) (overflow : OverflowMode) : Execution :=
  { e with overflow }

/-- With another patience of idle threads. -/
def withKeepAlive (e : Execution) (keepAliveMs : Nat) : Execution :=
  { e with keepAliveMs }

/-- The number of threads that never leave. -/
def minThreads (e : Execution) : Nat :=
  match e.threads with
  | .single => 1
  | .pool min _ => max min 1

/-- The largest number of threads. -/
def maxThreads (e : Execution) : Nat :=
  match e.threads with
  | .single => 1
  | .pool min most => max most (max min 1)

end Execution

end RemoteCall
