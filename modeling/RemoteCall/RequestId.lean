import RemoteCall.Hashing

/-!
# Request ids

A request id packs the milliseconds since a fixed epoch (42 bits), the worker that issued it (12
bits) and a sequence number within the millisecond (10 bits). `RequestId.Generator` issues ids from
a clock; a millisecond holds 1024 of them, and the next one waits for the clock to move on.
-/

namespace RemoteCall.RequestId

/-- The largest worker number. -/
def maxWorker : UInt64 := 4095

/-- The largest sequence number within one millisecond. -/
def maxSequence : UInt64 := 1023

/-- Packs elapsed milliseconds, worker and sequence number. -/
def pack (elapsed worker sequence : UInt64) : RequestId :=
  (elapsed <<< 22) ||| (worker <<< 10) ||| sequence

/-- The worker that issued the id. -/
def worker (id : RequestId) : UInt64 :=
  (id >>> 10) &&& maxWorker

/-- The sequence number of the id within its millisecond. -/
def sequence (id : RequestId) : UInt64 :=
  id &&& maxSequence

/-- The worker number handed out by the `n`-th request for one, counting from zero. -/
def nthWorker (n : UInt64) : UInt64 :=
  n % maxWorker + 1

/-- What an issuer of ids remembers: its worker and the millisecond and sequence number of the last
id. -/
structure Generator where
  worker : UInt64
  last : UInt64
  sequence : UInt64
  deriving DecidableEq, Repr

namespace Generator

/-- An issuer for a worker, whose number is cut to 12 bits. -/
def new (worker : UInt64) : Generator :=
  ⟨worker &&& maxWorker, 0, 0⟩

/-- The id of millisecond `now` with the given sequence number, and the issuer after it. -/
def issue (g : Generator) (now sequence : UInt64) : RequestId × Generator :=
  (pack now g.worker sequence, { g with last := now, sequence })

/-- The next id on a clock that gives these readings, with the readings left over. `none` when the
clock stops inside a millisecond whose sequence numbers are used up. -/
def next (g : Generator) : (clock : List UInt64) → Option (RequestId × Generator × List UInt64)
  | [] => none
  | now :: clock =>
    if now = g.last then
      let sequence := (g.sequence + 1) &&& maxSequence
      if sequence = 0 then
        match clock.dropWhile (· ≤ g.last) with
        | [] => none
        | later :: rest =>
          let (id, g) := g.issue later 0
          some (id, g, rest)
      else
        let (id, g) := g.issue now sequence
        some (id, g, clock)
    else
      let (id, g) := g.issue now 0
      some (id, g, clock)

/-- The next `count` ids, or fewer when the clock stops. -/
def ids (g : Generator) : (count : Nat) → (clock : List UInt64) → List RequestId
  | 0, _ => []
  | count + 1, clock =>
    match g.next clock with
    | none => []
    | some (id, g, rest) => id :: ids g count rest

end Generator

end RemoteCall.RequestId
