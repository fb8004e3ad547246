import RemoteCall.Client.Run

/-!
# Clients at work

Connections are opened, answered on, lost and opened again, services are asked for, calls are made
and the client is shut down, all at the same time. An activity is a client together with the tasks
that it is in the middle of; a move is one step of one of them, or something that happens to the
client from outside, and the moves of a run follow each other in any order. A move that cannot be
made now changes nothing, so every list of moves is a run.

A task is interrupted wherever the client lets another one in: an attach between connecting,
entering the ring and looking whether the pool was shut down meanwhile, a description between being
learned and settling the number of connections, the planning of a reconnect between its question and
its answer, a shutdown between any two connections that it closes, and a call between any two of its
looks at the ring, the table of calls and the connection. A task that waits, be it for a connection,
for time or for other tasks, waits for as long as the run likes. Frames may be read on every
connection at any time, whatever the server was asked for.

The steps in `Client.Steps` that do several of these things at once are put together from the
smaller ones; the lemmas beside the definitions say so.

## Main definitions

* `Task` : what a client is in the middle of.
* `Activity`, `Activity.step`, `Activity.run` : the states, the moves and the runs.
* `Activity.act` : the next step of a task.
-/

namespace RemoteCall.Client

/-! ### Steps in parts -/

section Parts

variable (c : Client) (p : PoolId) (l : LinkId)

/-- Plans to connect the slot of a connection again. -/
def plan : Client :=
  let c := c.onLink l fun link => (link.transition .inactive .reconnectScheduled).2
  { c with reconnects := c.reconnects ++ [⟨p, l, c.config.reconnectDelayMs⟩] }

/-- A connection that was in use is not any more, and the calls sent on it and not answered are
dropped. Tells whether it was in use. -/
def cutOff : Bool × Client :=
  match c.link? l with
  | none => (false, c)
  | some link =>
    match link.transition .active .inactive with
    | (false, _) => (false, c)
    | (true, link) =>
      let (ids, link) := link.takeInflight
      let c := c.onLink l fun _ => link
      (true, { c with pending := ids.foldl (fun pending id => (pending.remove id).2) c.pending })

theorem scheduleReconnect_eq :
    c.scheduleReconnect p l = if c.isShutdown p then c else c.plan p l := rfl

/-- A reconnect is planned for a connection that was cut off. -/
theorem lost_eq :
    c.lost p l = if (c.cutOff l).1 then (c.cutOff l).2.scheduleReconnect p l else c := by
  cases hlink : c.link? l with
  | none => simp [lost, cutOff, hlink]
  | some link =>
    cases htransition : link.transition .active .inactive with
    | mk moved link' => cases moved <;> simp [lost, cutOff, hlink, htransition]

/-- A description is read and its service learned, or else the pool fails. Gives the address that it
came from and the weight of the service. -/
def understand (body : Bytes) : Option (SocketAddress × Nat) × Client :=
  match c.link? l, ServiceInfo.decode body with
  | none, _ => (none, c)
  | _, .error e =>
    (none, c.markReady p (.failed ⟨.clientSerializerError, (Error.compact e).message⟩))
  | some link, .ok info =>
    match c.install p info link.slot.address with
    | .error e => (none, c.markReady p (.failed e.toFault))
    | .ok c => (some (link.slot.address, info.weight.toNat), c)

/-- Settles the number of connections, if it was not settled yet; tells whether it was not. Else the
pool is ready. -/
def settleNumber : Bool × Client :=
  if (c.pool? p).any Pool.fannedOut then (false, c.markReady p .ready)
  else (true, c.onPool p fun pool => { pool with fannedOut := true })

/-- A description that was understood settles the number of connections. -/
theorem described_eq (body : Bytes) :
    c.described p l body =
      match c.understand p l body with
      | (none, c) => ([], c)
      | (some (address, weight), c) =>
        match c.settleNumber p with
        | (true, c) => (furtherSlots address weight, c)
        | (false, c) => ([], c) := by
  cases hlink : c.link? l with
  | none => simp [described, understand, hlink]
  | some link =>
    cases hinfo : ServiceInfo.decode body with
    | error e => simp [described, understand, hlink, hinfo]
    | ok info =>
      cases hinstall : c.install p info link.slot.address with
      | error e => simp [described, understand, hlink, hinfo, hinstall]
      | ok c =>
        simp only [described, understand, hlink, hinfo, hinstall, settleNumber]
        cases (c.pool? p).any Pool.fannedOut <;> rfl

/-- The addresses that a directory gives, as slots; the number of connections is settled. -/
def resolve (pool : Pool) (endpoint service : String) : Except Error (List Slot × Client) :=
  match c.directory with
  | none =>
    .error (.ofFault .clientError
      s!"no discovery collaborator configured for {pool.location.text}")
  | some directory =>
    match directory.resolve endpoint service with
    | [] =>
      .error (.ofFault .clientError
        s!"discovery returned no addresses for {pool.location.text}")
    | first :: others => do
      let c := c.onPool p fun pool => { pool with fannedOut := true }
      let c ← match directory.info? endpoint service with
        | none => pure c
        | some info => c.install p info first.address
      pure (discoveredSlots (first :: others), c)

/-- A pool starts from a directory by connecting the slots that it gives. -/
theorem startFromDirectory_eq (network : Network) (pool : Pool) (endpoint service : String) :
    c.startFromDirectory network p pool endpoint service =
      (c.resolve p pool endpoint service).map fun start =>
        (start.1.foldl (attach network p) start.2).readyIfKnown p pool.service := by
  cases hdirectory : c.directory with
  | none => simp only [startFromDirectory, resolve, hdirectory, Except.map]
  | some directory =>
    cases haddresses : directory.resolve endpoint service with
    | nil => simp only [startFromDirectory, resolve, hdirectory, haddresses, Except.map]
    | cons first others =>
      simp only [startFromDirectory, resolve, hdirectory, haddresses]
      cases directory.info? endpoint service with
      | none => rfl
      | some info =>
        dsimp only
        cases (c.onPool p fun pool => { pool with fannedOut := true }).install p info
          first.address <;> rfl

/-- The slots that a pool connects first. -/
def firstSlots (pool : Pool) : Except Error (List Slot × Client) :=
  match pool.location with
  | .directory endpoint service => c.resolve p pool endpoint service
  | .address address => .ok ([⟨address, 0, false, []⟩], c)

/-- The connection that a request goes to, if it takes another frame. -/
def writable? (request : RequestId) : Option LinkId :=
  ((c.ring p).pick request).filter fun l => (c.link? l).any Link.isWritable

end Parts

/-! ### What tasks are in the middle of -/

/-- The number of a task. -/
abbrev TaskId := Nat

/-- How far the first connection of a slot has come. -/
inductive Attaching where
  | connecting
  /-- It was opened and is not on the ring yet. -/
  | opened (l : LinkId)
  /-- A placeholder stands for it and is not on the ring yet. -/
  | refused (l : LinkId)
  /-- It is on the ring; whether the pool was shut down meanwhile is to be seen. -/
  | rechecking (l : LinkId)
  /-- The connection or the placeholder is left alone. -/
  | ended (l : Option LinkId)
  deriving DecidableEq, Repr

/-- How far the planning of a reconnect has come. -/
inductive Planning where
  | asking
  /-- The pool was not shut down when this was asked. -/
  | allowed
  | ended
  deriving DecidableEq, Repr

/-- How far a reconnect has come after its wait. -/
inductive Reopening where
  | connecting
  | opened (l : LinkId)
  | rechecking (l : LinkId)
  | ended
  deriving DecidableEq, Repr

/-- How far a description has come. -/
inductive Describing where
  | arrived (l : LinkId) (body : Bytes)
  | understood (address : SocketAddress) (weight : Nat)
  | ended
  deriving DecidableEq, Repr

/-- Why the further connections of a pool are opened. -/
inductive FanOutCause where
  /-- The service was known when the pool had its first connection. -/
  | start
  | description
  deriving DecidableEq, Repr

/-- The opening of the further connections of a pool. -/
structure FanOut where
  pool : PoolId
  cause : FanOutCause
  weight : Nat
  deriving DecidableEq, Repr

/-- How far the shutdown of a pool has come. -/
inductive Closing where
  | asking
  /-- The pool is marked; its reconnects are to be ended. -/
  | marked
  /-- The connections on the ring are to be listed. -/
  | listing
  /-- These connections are to be closed. -/
  | sweeping (left : List LinkId)
  | ended
  deriving DecidableEq, Repr

/-- How far the request for a service has come. -/
inductive Connecting where
  | asking
  /-- The client was not stopping when this was asked. -/
  | allowed
  /-- The pool is among those of the client. -/
  | registered (p : PoolId)
  /-- The first connections are opened by these tasks. -/
  | attaching (p : PoolId) (attaches : List TaskId)
  /-- The further connections are opened by this task. -/
  | fanningOut (p : PoolId) (fanOut : TaskId)
  | waiting (p : PoolId)
  /-- The pool is shut down again. -/
  | failing (p : PoolId) (e : Error) (closing : Closing)
  | returned (result : Except Error Session)

/-- How far a call has come. -/
inductive Invoking where
  | asking (progress : CallProgress)
  /-- The client was not stopping when this was asked. -/
  | allowed (progress : CallProgress)
  /-- The connection takes frames, and the request is written down. -/
  | picked (progress : CallProgress) (request : RequestId) (l : LinkId) (frame : Bytes)
  | registered (progress : CallProgress) (s : Sent) (frame : Bytes)
  /-- The connection remembers the request. -/
  | tracked (progress : CallProgress) (s : Sent) (frame : Bytes)
  | waiting (progress : CallProgress) (s : Sent)
  | returned (result : Except Error Value)

/-- How far the shutdown of a client has come. -/
inductive Stopping where
  | asking
  /-- The client is marked; its pools are to be listed. -/
  | marked
  /-- The first `total` pools are shut down one after another, and `p` is the next. -/
  | closing (p total : PoolId) (closing : Closing)
  /-- The calls that wait are to be listed. -/
  | listing (total : PoolId)
  /-- These calls are to be ended. -/
  | failing (total : PoolId) (left : List RequestId)
  /-- The shutdown is over, of so many pools unless it was another shutdown's task. -/
  | returned (total : Option PoolId)
  deriving DecidableEq, Repr

/-- What a client is in the middle of. -/
inductive Task where
  | attach (p : PoolId) (slot : Slot) (stage : Attaching)
  /-- The planning of a reconnect for a connection that was lost or could not be opened. -/
  | plan (p : PoolId) (l : LinkId) (stage : Planning)
  | reopen (r : Reconnect) (stage : Reopening)
  | describe (p : PoolId) (stage : Describing)
  | fanOut (f : FanOut) (attaches : List TaskId) (ended : Bool)
  | closePool (p : PoolId) (stage : Closing)
  | connect (service location : String) (stage : Connecting)
  | invoke (p : PoolId) (m : Method) (parameter : Value) (stage : Invoking)
  | shutdown (stage : Stopping)

namespace Task

/-- The task has nothing left to do. -/
def hasEnded : Task → Bool
  | attach _ _ (.ended _) => true
  | plan _ _ .ended => true
  | reopen _ .ended => true
  | describe _ .ended => true
  | fanOut _ _ ended => ended
  | closePool _ .ended => true
  | connect _ _ (.returned _) => true
  | invoke _ _ _ (.returned _) => true
  | shutdown (.returned _) => true
  | _ => false

end Task

/-- Where a connection belongs. -/
structure Home where
  pool : PoolId
  /-- The first connection of the same slot. -/
  first : LinkId
  deriving DecidableEq, Repr

/-- A client and what it is in the middle of. -/
structure Activity where
  client : Client
  /-- Where each connection belongs, by its number. -/
  homes : List Home
  /-- The tasks that were begun so far, in order. -/
  tasks : List Task

/-- What a step of a task does. -/
structure Effect where
  /-- The task after the step. -/
  task : Task
  client : Client
  /-- The tasks that are begun. -/
  begun : List Task := []
  /-- Where the connections belong that are opened. -/
  homes : List Home := []

/-! ### Steps of tasks -/

/-- A task shuts a pool down, unless another one has done so. -/
def Closing.next (c : Client) (p : PoolId) : Closing → Closing × Client
  | asking =>
    if c.isShutdown p then (ended, c)
    else (marked, c.onPool p fun pool => { pool with shutdown := true })
  | marked => (listing, { c with reconnects := c.reconnects.filter fun r => r.pool != p })
  | listing => (sweeping (c.ring p).owners, c)
  | sweeping (l :: left) => (sweeping left, c.onLink l Link.close)
  | sweeping [] => (ended, c.markReady p (.failed stoppingFault))
  | ended => (ended, c)

/-- What follows an attempt of a call. A pause is a wait like any other. -/
def Invoking.after (c : Client) (progress : CallProgress) (a : Attempt) : Invoking :=
  match progress.after c.config a with
  | .finished r => .returned r
  | .again _ progress => .asking progress

/-- A task makes a call. It sees how the call stands, or has waited for long enough. -/
def Invoking.next (c : Client) (p : PoolId) (m : Method) (parameter : Value) (timedOut : Bool) :
    Invoking → Invoking × Client
  | asking progress =>
    (if c.stopping then returned (.error stoppingError) else allowed progress, c)
  | allowed progress =>
    let (request, c) := c.nextId
    match c.writable? p request with
    | none => (after c progress .unwritable, c)
    | some l =>
      let h : Header := ⟨m.service, request, m.id, .object⟩
      match c.codec.valueBytes h m.parameterSerializer parameter with
      | .error e =>
        (after c progress (.failed (.rpc ⟨.clientSerializerError, e.message⟩ (some h.call))), c)
      | .ok frame => (picked progress request l frame, c)
  | picked progress request l frame =>
    let (ticket, pending) := c.pending.register request m.returnSerializer
    (registered progress ⟨request, ticket, l⟩ frame, { c with pending })
  | registered progress s frame =>
    (tracked progress s frame, c.onLink s.link fun link => link.track s.request)
  | tracked progress s frame =>
    match (c.link? s.link).bind fun link => link.send? frame with
    | some link => (waiting progress s, c.onLink s.link fun _ => link)
    | none => (after c progress .unwritable, (c.finish s .timedOut).2)
  | waiting progress s =>
    if timedOut then
      let (a, c) := c.finish s .timedOut
      (after c progress a, c)
    else
      match c.pending.status s.ticket with
      | .waiting => (waiting progress s, c)
      | .settled (.delivered r) =>
        let (a, c) := c.finish s (.answered r)
        (after c progress a, c)
      | .settled .dropped | .unknown =>
        let (a, c) := c.finish s .dropped
        (after c progress a, c)
  | returned r => (returned r, c)

/-- A task shuts the client down, unless another one does. -/
def Stopping.next (c : Client) : Stopping → Stopping × Client
  | asking => if c.stopping then (returned none, c) else (marked, { c with stopping := true })
  | marked => (closing 0 c.pools.length .asking, c)
  | closing p total stage =>
    if total ≤ p then (listing total, c)
    else if stage = .ended then (closing (p + 1) total .asking, c)
    else
      let (stage, c) := stage.next c p
      (closing p total stage, c)
  | listing total => (failing total (c.pending.calls.map PendingCall.id), c)
  | failing total (id :: left) =>
    (failing total left, { c with pending := (c.pending.fail id stoppingError).2 })
  | failing total [] => (returned (some total), c)
  | returned total => (returned total, c)

namespace Activity

/-- A client that was not asked for anything yet. -/
def start (config : ClientConfig) (serializers : Serializers) (directory : Option Directory)
    (worker : UInt64) : Activity :=
  { client := .new config serializers directory worker
    homes := []
    tasks := [] }

/-- These tasks have nothing left to do. -/
def haveEnded (a : Activity) (ks : List TaskId) : Bool :=
  ks.all fun k => a.tasks[k]?.any Task.hasEnded

/-- The slot of a connection, which it shares with those that stood for the slot before. -/
def slotOf? (a : Activity) (l : LinkId) : Option Slot :=
  (a.homes[l]?.bind fun h => a.client.link? h.first).map Link.slot

/-- The client when a connection knows the positions that its slot has now. -/
def withPositions (a : Activity) (l : LinkId) : Client :=
  match a.slotOf? l with
  | none => a.client
  | some slot => a.client.onLink l fun link => { link with slot }

/-- The tasks that open connections for slots. -/
def attaches (p : PoolId) (slots : List Slot) : List Task :=
  slots.map fun slot => .attach p slot .connecting

/-- The tasks that open the further connections of a pool, when the first of them gets the number
`k`. -/
def fanOut (f : FanOut) (address : SocketAddress) (k : TaskId) : List Task :=
  let slots := furtherSlots address f.weight
  .fanOut f (List.range' (k + 1) slots.length) false :: attaches f.pool slots

/-- An attach goes on. -/
def attachNext (a : Activity) (p : PoolId) (slot : Slot) (connects : Bool) : Attaching → Effect
  | .connecting =>
    if connects then
      let (l, client) := a.client.opened p slot
      { task := .attach p slot (.opened l), client, homes := [⟨p, l⟩] }
    else if slot.discovered then
      { task := .attach p slot (.ended none), client := a.client }
    else
      let (l, client) := a.client.addLink (.placeholder slot)
      { task := .attach p slot (.refused l), client, homes := [⟨p, l⟩] }
  | .opened l => { task := .attach p slot (.rechecking l), client := a.client.putOnRing p l }
  | .refused l =>
    { task := .attach p slot (.ended l)
      client := a.client.putOnRing p l
      begun := [.plan p l .asking] }
  | .rechecking l => { task := .attach p slot (.ended l), client := a.client.recheck p l }
  | .ended l => { task := .attach p slot (.ended l), client := a.client }

/-- The planning of a reconnect goes on. -/
def planNext (a : Activity) (p : PoolId) (l : LinkId) : Planning → Effect
  | .asking =>
    { task := .plan p l (if a.client.isShutdown p then .ended else .allowed), client := a.client }
  | .allowed => { task := .plan p l .ended, client := a.client.plan p l }
  | .ended => { task := .plan p l .ended, client := a.client }

/-- A reconnect goes on. -/
def reopenNext (a : Activity) (r : Reconnect) (connects : Bool) : Reopening → Effect
  | .connecting =>
    if connects then
      match a.homes[r.old]?, a.slotOf? r.old with
      | some home, some slot =>
        let (l, client) := a.client.opened r.pool slot
        { task := .reopen r (.opened l), client, homes := [⟨r.pool, home.first⟩] }
      | _, _ => { task := .reopen r .ended, client := a.client }
    else { task := .reopen r .ended, client := (a.withPositions r.old).notReplaced r }
  | .opened l =>
    { task := .reopen r (.rechecking l), client := (a.withPositions r.old).replaced r l }
  | .rechecking l => { task := .reopen r .ended, client := a.client.recheck r.pool l }
  | .ended => { task := .reopen r .ended, client := a.client }

/-- What follows from a description goes on. -/
def describeNext (a : Activity) (p : PoolId) : Describing → Effect
  | .arrived l body =>
    match a.client.understand p l body with
    | (none, client) => { task := .describe p .ended, client }
    | (some (address, weight), client) =>
      { task := .describe p (.understood address weight), client }
  | .understood address weight =>
    match a.client.settleNumber p with
    | (false, client) => { task := .describe p .ended, client }
    | (true, client) =>
      { task := .describe p .ended
        client
        begun := fanOut ⟨p, .description, weight⟩ address a.tasks.length }
  | .ended => { task := .describe p .ended, client := a.client }

/-- The opening of further connections is over when each of them is. -/
def fanOutNext (a : Activity) (f : FanOut) (attaches : List TaskId) (ended : Bool) : Effect :=
  if !ended && a.haveEnded attaches then
    { task := .fanOut f attaches true, client := a.client.markReady f.pool .ready }
  else { task := .fanOut f attaches ended, client := a.client }

/-- What follows when the first connections of a pool are there. -/
def attachedNext (a : Activity) (p : PoolId) (pool : Pool) :
    Connecting × Client × List Task :=
  match pool.location with
  | .directory _ _ => (.waiting p, a.client.readyIfKnown p pool.service, [])
  | .address address =>
    match a.client.service? pool.service with
    | none => (.waiting p, a.client, [])
    | some s =>
      (.fanningOut p a.tasks.length, a.client,
        fanOut ⟨p, .start, s.weight.val.toNat⟩ address a.tasks.length)

/-- The request for a service goes on. It waits for the pool to be ready, or has waited for long
enough. -/
def connectNext (a : Activity) (service location : String) (timedOut : Bool) :
    Connecting → Connecting × Client × List Task
  | .asking =>
    (if a.client.stopping then .returned (.error stoppingError) else .allowed, a.client, [])
  | .allowed =>
    match Location.parse location with
    | .error e => (.returned (.error e), a.client, [])
    | .ok place =>
      let pool := Pool.new (serviceId service) place
      (.registered a.client.pools.length,
        { a.client with pools := a.client.pools ++ [pool] }, [])
  | .registered p =>
    match a.client.pool? p with
    | none => (.registered p, a.client, [])
    | some pool =>
      match a.client.firstSlots p pool with
      | .error e => (.failing p e .asking, a.client, [])
      | .ok (slots, client) =>
        (.attaching p (List.range' a.tasks.length slots.length), client, attaches p slots)
  | .attaching p ks =>
    match a.client.pool? p with
    | none => (.attaching p ks, a.client, [])
    | some pool =>
      if a.haveEnded ks then a.attachedNext p pool else (.attaching p ks, a.client, [])
  | .fanningOut p k =>
    (if a.haveEnded [k] then .waiting p else .fanningOut p k, a.client, [])
  | .waiting p =>
    match a.client.pool? p with
    | none => (.waiting p, a.client, [])
    | some pool =>
      if pool.readiness = .pending ∧ timedOut = false then (.waiting p, a.client, [])
      else
        match a.client.session p pool service with
        | .ok s => (.returned (.ok s), a.client, [])
        | .error e => (.failing p e .asking, a.client, [])
  | .failing p e stage =>
    if stage = .ended then (.returned (.error e), a.client, [])
    else
      let (stage, client) := stage.next a.client p
      (.failing p e stage, client, [])
  | .returned r => (.returned r, a.client, [])

/-- The next step of a task. What it tries to connect may be reached or not, and what it waits for
may come in time or not. -/
def act (a : Activity) (luck : Bool) : Task → Effect
  | .attach p slot stage => a.attachNext p slot luck stage
  | .plan p l stage => a.planNext p l stage
  | .reopen r stage => a.reopenNext r luck stage
  | .describe p stage => a.describeNext p stage
  | .fanOut f attaches ended => a.fanOutNext f attaches ended
  | .closePool p stage =>
    let next := stage.next a.client p
    { task := .closePool p next.1, client := next.2 }
  | .connect service location stage =>
    let next := a.connectNext service location (!luck) stage
    { task := .connect service location next.1, client := next.2.1, begun := next.2.2 }
  | .invoke p m parameter stage =>
    let next := stage.next a.client p m parameter (!luck)
    { task := .invoke p m parameter next.1, client := next.2 }
  | .shutdown stage =>
    let next := stage.next a.client
    { task := .shutdown next.1, client := next.2 }

/-- A task that has just been begun by another one. -/
def IsFresh : Task → Prop
  | .attach _ _ .connecting | .plan _ _ .asking | .fanOut _ _ false => True
  | _ => False

theorem isFresh_attaches (p : PoolId) (slots : List Slot) : ∀ u ∈ attaches p slots, IsFresh u := by
  intro u hu
  obtain ⟨slot, -, rfl⟩ := List.mem_map.mp hu
  trivial

theorem isFresh_fanOut (f : FanOut) (address : SocketAddress) (k : TaskId) :
    ∀ u ∈ fanOut f address k, IsFresh u := by
  intro u hu
  rcases List.mem_cons.mp hu with rfl | hu
  · trivial
  · exact isFresh_attaches _ _ u hu

/-- An attach begins the planning of a reconnect when a placeholder stands for its connection. -/
theorem begun_attachNext (a : Activity) (p : PoolId) (slot : Slot) (connects : Bool)
    (s : Attaching) : ∀ u ∈ (a.attachNext p slot connects s).begun,
      ∃ l, s = .refused l ∧ u = .plan p l .asking := by
  intro u hu
  cases s with
  | connecting =>
    rw [attachNext] at hu
    split at hu
    · cases hu
    · split at hu <;> cases hu
  | refused l => exact ⟨l, rfl, List.mem_singleton.mp hu⟩
  | _ => cases hu

theorem begun_reopenNext (a : Activity) (r : Reconnect) (connects : Bool) (s : Reopening) :
    (a.reopenNext r connects s).begun = [] := by
  cases s with
  | connecting =>
    rw [reopenNext]
    split
    · split <;> rfl
    · rfl
  | _ => rfl

/-- The tasks that a step of a task begins. -/
inductive Begins (a : Activity) (begun : List Task) : Prop
  | none (h : begun = [])
  | plan (p : PoolId) (l : LinkId) (h : begun = [.plan p l .asking])
  /-- The first connections of a pool. -/
  | first {p : PoolId} {pool : Pool} {slots : List Slot} {client : Client}
    (hpool : a.client.pool? p = some pool)
    (hslots : a.client.firstSlots p pool = .ok (slots, client)) (h : begun = attaches p slots)
  | fanOut (f : FanOut) (address : SocketAddress) (h : begun = fanOut f address a.tasks.length)

/-- What a step of the request for a service makes of the request and of the client, and the tasks
that it begins. -/
inductive Connects (a : Activity) : Connecting → Connecting → Client → List Task → Prop
  /-- What it waits for has not come, or it is over. -/
  | stays {s : Connecting} (hs : ∀ p e stage, s ≠ .failing p e stage) : Connects a s s a.client []
  | allowed (hstopping : a.client.stopping = false) : Connects a .asking .allowed a.client []
  | registered (service : ServiceId) (place : Location) :
    Connects a .allowed (.registered a.client.pools.length)
      { a.client with pools := a.client.pools ++ [.new service place] } []
  | attaching {p : PoolId} {pool : Pool} {slots : List Slot} {client : Client}
    (hpool : a.client.pool? p = some pool)
    (hslots : a.client.firstSlots p pool = .ok (slots, client)) :
    Connects a (.registered p) (.attaching p (List.range' a.tasks.length slots.length)) client
      (attaches p slots)
  /-- The service of a pool at an address is known. -/
  | fanningOut {p : PoolId} {ks : List TaskId} {pool : Pool} {address : SocketAddress} {s : Service}
    (hpool : a.client.pool? p = some pool) (hlocation : pool.location = .address address)
    (hservice : a.client.service? pool.service = some s) (hended : a.haveEnded ks = true) :
    Connects a (.attaching p ks) (.fanningOut p a.tasks.length) a.client
      (fanOut ⟨p, .start, s.weight.val.toNat⟩ address a.tasks.length)
  /-- The connections that a directory gave are there. -/
  | listed {p : PoolId} {ks : List TaskId} {pool : Pool} (hended : a.haveEnded ks = true) :
    Connects a (.attaching p ks) (.waiting p) (a.client.readyIfKnown p pool.service) []
  | waiting {s : Connecting} {p : PoolId} : Connects a s (.waiting p) a.client []
  | fails {s : Connecting} {p : PoolId} {e : Error} : Connects a s (.failing p e .asking) a.client []
  | closing {p : PoolId} {e : Error} {stage : Closing} (hstage : stage ≠ .ended) :
    Connects a (.failing p e stage) (.failing p e (stage.next a.client p).1)
      (stage.next a.client p).2 []
  | ends {s : Connecting} {result : Except Error Session} :
    Connects a s (.returned result) a.client []

/-- Every step of the request for a service is one of those of `Connects`. -/
theorem connects (a : Activity) {service location : String} {timedOut : Bool} {s s' : Connecting}
    {client : Client} {begun : List Task}
    (h : a.connectNext service location timedOut s = (s', client, begun)) :
    a.Connects s s' client begun := by
  cases s with
  | asking =>
    rw [connectNext] at h
    cases hstopping : a.client.stopping <;> rw [hstopping] at h <;> cases h
    · exact .allowed hstopping
    · exact .ends
  | allowed =>
    rw [connectNext] at h
    split at h <;> cases h
    · exact .ends
    · exact .registered _ _
  | registered p =>
    rw [connectNext] at h
    split at h
    · cases h
      exact .stays (by rintro _ _ _ ⟨⟩)
    · rename_i hpool
      split at h <;> cases h
      · exact .fails
      · rename_i hslots
        exact .attaching hpool hslots
  | attaching p ks =>
    rw [connectNext] at h
    split at h
    · cases h
      exact .stays (by rintro _ _ _ ⟨⟩)
    · rename_i pool hpool
      split at h
      · rename_i hended
        rw [attachedNext] at h
        split at h
        · cases h
          exact .listed hended
        · rename_i hlocation
          split at h <;> cases h
          · exact .waiting
          · rename_i hservice
            exact .fanningOut hpool hlocation hservice hended
      · cases h
        exact .stays (by rintro _ _ _ ⟨⟩)
  | fanningOut p k =>
    rw [connectNext] at h
    split at h <;> cases h
    · exact .waiting
    · exact .stays (by rintro _ _ _ ⟨⟩)
  | waiting p =>
    rw [connectNext] at h
    split at h
    · cases h
      exact .waiting
    · split at h
      · cases h
        exact .waiting
      · split at h <;> cases h
        · exact .ends
        · exact .fails
  | failing p e stage =>
    rw [connectNext] at h
    split at h <;> cases h
    · exact .ends
    · rename_i hstage
      exact .closing hstage
  | returned result =>
    cases h
    exact .ends

/-- What the steps of tasks begin. -/
theorem begins_act (a : Activity) (luck : Bool) (t : Task) : a.Begins (a.act luck t).begun := by
  cases t with
  | attach p slot s =>
    cases s with
    | connecting =>
      rw [act, attachNext]
      split
      · exact .none rfl
      · split <;> exact .none rfl
    | refused l => exact .plan p l rfl
    | _ => exact .none rfl
  | plan p l s => cases s <;> exact .none rfl
  | reopen r s => exact .none (a.begun_reopenNext r luck s)
  | describe p s =>
    cases s with
    | arrived l body =>
      rw [act, describeNext]
      split <;> exact .none rfl
    | understood address weight =>
      rw [act, describeNext]
      split
      · exact .none rfl
      · exact .fanOut _ _ rfl
    | ended => exact .none rfl
  | fanOut f ks ended =>
    rw [act, fanOutNext]
    split <;> exact .none rfl
  | closePool p s => exact .none rfl
  | connect service location s =>
    rw [act]
    rcases hnext : a.connectNext service location (!luck) s with ⟨s', client, begun⟩
    cases a.connects hnext with
    | attaching hpool hslots => exact .first hpool hslots rfl
    | fanningOut => exact .fanOut _ _ rfl
    | _ => exact .none rfl
  | invoke p m parameter s => exact .none rfl
  | shutdown s => exact .none rfl

/-- Tasks begin attaches, plans and the opening of further connections. -/
theorem isFresh_begun (a : Activity) (luck : Bool) (t : Task) :
    ∀ u ∈ (a.act luck t).begun, IsFresh u := by
  cases a.begins_act luck t with
  | none h =>
    rw [h]
    exact List.forall_mem_nil _
  | plan p l h =>
    rw [h]
    exact List.forall_mem_singleton.mpr trivial
  | first hpool hslots h =>
    rw [h]
    exact isFresh_attaches _ _
  | fanOut f address h =>
    rw [h]
    exact isFresh_fanOut f address _

/-- A task has made a step. -/
def perform (a : Activity) (k : TaskId) (e : Effect) : Activity :=
  { client := e.client
    homes := a.homes ++ e.homes
    tasks := a.tasks.set k e.task ++ e.begun }

/-- A task is begun. -/
def begin (a : Activity) (t : Task) : Activity :=
  { a with tasks := a.tasks ++ [t] }

end Activity

/-- One step of one task, or something that happens to the client from outside. -/
inductive Move where
  /-- The task of this number makes its next step. -/
  | task (k : TaskId) (luck : Bool)
  /-- Somebody asks for a service. -/
  | connect (service location : String)
  /-- Somebody calls a method on the connections of a pool. -/
  | invoke (p : PoolId) (m : Method) (parameter : Value)
  | shutdown
  /-- Somebody shuts one pool down. -/
  | shutdownPool (p : PoolId)
  /-- Somebody closes one connection. -/
  | close (l : LinkId)
  /-- Somebody makes a service known. -/
  | learn (s : Service)
  /-- A frame is read on a connection. -/
  | frame (l : LinkId) (frame : Frame)
  /-- What is read on a connection is no frame. -/
  | unreadable (l : LinkId) (e : Error)
  /-- A connection cannot be read or written any more. -/
  | lose (l : LinkId)
  /-- The writer of a connection takes a frame off its queue. -/
  | write (l : LinkId)
  /-- The writer of a connection ends. -/
  | abandon (l : LinkId)
  /-- The wait of a planned reconnect is over. -/
  | wake (i : Nat)
  /-- A reconnect is ended while it connects, as its pool was shut down. -/
  | abort (k : TaskId)
  /-- Time passes. -/
  | elapse (ms : Nat)

namespace Activity

/-- A planned reconnect goes on after its wait, unless its pool was shut down. -/
def wake (a : Activity) (i : Nat) : Activity :=
  match a.client.reconnects[i]? with
  | none => a
  | some r =>
    let client := { a.client with reconnects := a.client.reconnects.eraseIdx i }
    if client.isShutdown r.pool then { a with client }
    else { a with client }.begin (.reopen r .connecting)

/-- A reconnect is ended while it connects, if its pool was shut down. -/
def abort (a : Activity) (k : TaskId) : Activity :=
  match a.tasks[k]? with
  | some (.reopen r .connecting) =>
    if a.client.isShutdown r.pool then
      a.perform k { task := .reopen r .ended, client := a.client }
    else a
  | _ => a

/-- A frame is read on a connection. -/
def receive (a : Activity) (l : LinkId) (frame : Frame) : Activity :=
  match a.homes[l]? with
  | none => a
  | some home =>
    if frame.header.type = .metadata then a.begin (.describe home.pool (.arrived l frame.body))
    else { a with client := (a.client.receive home.pool l frame).2 }

/-- A connection is lost. -/
def lose (a : Activity) (l : LinkId) : Activity :=
  match a.homes[l]?, a.client.cutOff l with
  | some home, (true, client) => { a with client }.begin (.plan home.pool l .asking)
  | _, _ => a

/-- Makes a move. -/
def step (a : Activity) : Move → Activity
  | .task k luck =>
    match a.tasks[k]? with
    | none => a
    | some t => a.perform k (a.act luck t)
  | .connect service location => a.begin (.connect service location .asking)
  | .invoke p m parameter => a.begin (.invoke p m parameter (.asking .start))
  | .shutdown => a.begin (.shutdown .asking)
  | .shutdownPool p => a.begin (.closePool p .asking)
  | .close l => { a with client := a.client.onLink l Link.close }
  | .learn s => { a with client := a.client.learn s }
  | .frame l frame => a.receive l frame
  | .unreadable _ e => { a with client := (a.client.readFailure e).2 }
  | .lose l => a.lose l
  | .write l => { a with client := a.client.onLink l fun link => link.takeFrame.2 }
  | .abandon l => { a with client := a.client.onLink l Link.abandon }
  | .wake i => a.wake i
  | .abort k => a.abort k
  | .elapse ms => { a with client.nowMs := a.client.nowMs + ms }

/-- Makes moves one after another. -/
def run (a : Activity) (moves : List Move) : Activity :=
  moves.foldl step a

theorem run_append (a : Activity) (moves moves' : List Move) :
    a.run (moves ++ moves') = (a.run moves).run moves' :=
  List.foldl_append

end Activity

end RemoteCall.Client
