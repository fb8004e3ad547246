import RemoteCall.Client.Steps
import RemoteCall.Proofs.Client.WaitingCalls
import RemoteCall.Proofs.Frame.RawFrame

/-!
# How calls end

The table of waiting calls is told by connections that read, by callers that give up and by the
client when it stops, in any order. Whatever the order, each registered call waits or was settled
once, and what is read for one request concerns its call alone, also when it cannot be understood.

## Main definitions

* `Pending.Notice.ofRead` : what a frame or an error that was read tells, and whom.
* `Client.Event`, `Client.run` : all that happens to the table of a client.

## Main results

* `Client.pending_read` : a connection that reads tells one request at most.
* `Client.pending_begin`, `Client.pending_finish`, `Client.pending_lost`, `Client.pending_shutdown` :
  what the tasks of a client do to its table.
* `Client.calls_end_once` : each registered call ends once.
-/

namespace RemoteCall

/-- A whole frame of an unknown type is read as an error that carries its request. -/
theorem RawFrame.outcome?_of_unknown {f : RawFrame} {codec : Codec}
    (hcode : FrameType.ofCode? f.code = none) (hwhole : f.IsWhole) (hsize : f.size ≤ codec.limit) :
    ∃ e, f.outcome? codec = some (.error e) ∧ e.call? = some f.call := by
  rw [outcome?, if_neg (Nat.not_lt.mpr hsize), if_pos hwhole, hcode]
  exact ⟨_, rfl, rfl⟩

namespace Pending

/-- An answer without a body, or with one that can be read, gives its value. Any other, and a frame
that is no answer, is an error that carries the request. -/
theorem resultOf_cases (serializer : Serializer) (frame : Frame) :
    (∃ v, resultOf serializer frame = .ok v ∧ (frame.header.type = .empty ∨
      frame.header.type = .normal ∧ serializer.deserialize frame.body = .ok v)) ∨
    ∃ e, resultOf serializer frame = .error e ∧ e.call? = some frame.header.call := by
  rw [resultOf]
  cases htype : frame.header.type with
  | normal =>
    cases hread : serializer.deserialize frame.body with
    | ok v => exact Or.inl ⟨v, rfl, Or.inr ⟨rfl, rfl⟩⟩
    | error e => exact Or.inr ⟨_, rfl, rfl⟩
  | empty => exact Or.inl ⟨.empty, rfl, Or.inl rfl⟩
  | abnormal =>
    refine Or.inr ?_
    cases Fault.decode frame.body <;> exact ⟨_, rfl, rfl⟩
  | object => exact Or.inr ⟨_, rfl, rfl⟩
  | metadata => exact Or.inr ⟨_, rfl, rfl⟩
  | heartbeat => exact Or.inr ⟨_, rfl, rfl⟩

/-- What a frame or an error that was read tells, and whom. The answer to the question for a
description is for no call, and neither are frames that are no answers. -/
def Notice.ofRead : Except Error Frame → Option Notice
  | .ok frame =>
    match frame.header.type with
    | .normal | .empty => some (.answer frame)
    | .abnormal => if frame.header.answersProbe then none else some (.answer frame)
    | .metadata | .heartbeat | .object => none
  | .error e => e.call?.map fun call => .failure call.request e

end Pending

namespace Client

open Pending (Notice Change)

variable {c : Client}

/-- A connection has read a frame or an error. -/
def read (c : Client) (p : PoolId) (l : LinkId) : Except Error Frame → Client
  | .ok frame => (c.receive p l frame).2
  | .error e => (c.readFailure e).2

theorem pending_install {info : ServiceInfo} {address : SocketAddress} {c' : Client}
    (h : c.install p info address = .ok c') : c'.pending = c.pending := by
  rw [install] at h
  split at h
  · cases h
    rfl
  split at h
  · cases h
  split at h
  · cases h
    rfl
  · cases h

theorem pending_described (c : Client) (p : PoolId) (l : LinkId) (body : Bytes) :
    (c.described p l body).2.pending = c.pending := by
  rw [described]
  split
  · rfl
  · rfl
  split
  · rfl
  · rename_i hinstall
    rw [← pending_install hinstall]
    split <;> rfl

/-- A connection that reads tells one request at most. -/
theorem pending_read (c : Client) (p : PoolId) (l : LinkId) (outcome : Except Error Frame) :
    (c.read p l outcome).pending =
      match Notice.ofRead outcome with
      | some n => (c.pending.take n).2
      | none => c.pending := by
  cases outcome with
  | ok frame =>
    rw [read, receive, Notice.ofRead]
    cases frame.header.type with
    | normal => rfl
    | empty => rfl
    | abnormal => cases frame.header.answersProbe <;> rfl
    | metadata => exact pending_described c p l frame.body
    | heartbeat => rfl
    | object => rfl
  | error e =>
    cases e with
    | rpc fault call => cases call <;> rfl
    | _ => rfl

/-! ### What the tasks of a client do -/

theorem pending_nextId (c : Client) : c.nextId.2.pending = c.pending := by
  rw [nextId]
  split <;> rfl

/-- A request that was sent is registered; no other attempt is. -/
theorem pending_begin (c : Client) (p : PoolId) (m : Method) (parameter : Value) :
    (c.begin p m parameter).2.pending =
      match (c.begin p m parameter).1 with
      | .sent s => (c.pending.register s.request m.returnSerializer).2
      | .over _ => c.pending := by
  have hnext := c.pending_nextId
  rw [begin]
  generalize c.nextId = next at hnext
  obtain ⟨request, c'⟩ := next
  dsimp only at hnext ⊢
  rw [← hnext]
  split
  · rfl
  split
  · rfl
  split
  · rfl
  split
  · rfl
  split <;> rfl

/-- A call that was waited for long enough is given up. -/
theorem pending_finish (c : Client) (s : Sent) (how : Waited) :
    (c.finish s how).2.pending =
      match how with
      | .timedOut => (c.pending.take (.giveUp s.request)).2
      | .answered _ | .dropped => c.pending := by
  cases how with
  | answered result => cases result <;> rfl
  | dropped => rfl
  | timedOut => rfl

theorem pending_scheduleReconnect (c : Client) (p : PoolId) (l : LinkId) :
    (c.scheduleReconnect p l).pending = c.pending := by
  rw [scheduleReconnect]
  split <;> rfl

/-- The calls that were sent on a lost connection and not answered are given up. -/
theorem pending_lost {l : LinkId} {link link' : Link} (hl : c.link? l = some link)
    (hactive : link.transition .active .inactive = (true, link')) (p : PoolId) :
    (c.lost p l).pending =
      (link'.takeInflight.1.map fun id => Change.notice (.giveUp id)).foldl Pending.change
        c.pending := by
  rw [lost, hl]
  simp only [hactive, pending_scheduleReconnect]
  rw [List.foldl_map]
  rfl

theorem pending_foldl {α : Type} {f : Client → α → Client}
    (h : ∀ c a, (f c a).pending = c.pending) (l : List α) (c : Client) :
    (l.foldl f c).pending = c.pending := by
  induction l generalizing c with
  | nil => rfl
  | cons a l ih => exact (ih (f c a)).trans (h c a)

theorem pending_shutdownPool (c : Client) (p : PoolId) :
    (c.shutdownPool p).pending = c.pending := by
  rw [shutdownPool]
  split
  · rfl
  · have hclose : ∀ (c : Client) (l : LinkId), (c.onLink l Link.close).pending = c.pending :=
      fun c l => rfl
    exact pending_foldl hclose _ _

/-- The calls that wait when the client stops get its fault. -/
theorem pending_shutdown (h : c.stopping = false) :
    c.shutdown.pending = (c.pending.failAll stoppingFault).2 := by
  simp only [shutdown, h, Bool.false_eq_true, if_false, pending_foldl pending_shutdownPool]

/-! ### Runs -/

/-- What happens to the table of a client. -/
inductive Event where
  | table (change : Change)
  /-- A connection has read a frame or an error. -/
  | read (p : PoolId) (l : LinkId) (outcome : Except Error Frame)

/-- The client after an event. -/
def handle (c : Client) : Event → Client
  | .table change => { c with pending := c.pending.change change }
  | .read p l outcome => c.read p l outcome

/-- The client after some events. -/
def run (c : Client) (events : List Event) : Client :=
  events.foldl handle c

namespace Event

/-- The call that an event registers: its request, and how its answer is read. -/
def registration? : Event → Option (RequestId × Serializer)
  | table (.register id serializer) => some (id, serializer)
  | table (.notice _) | table (.failAll _) | read _ _ _ => none

/-- What an event does to the table. -/
def change? : Event → Option Change
  | table change => some change
  | read _ _ outcome => (Notice.ofRead outcome).map .notice

theorem registration?_eq (e : Event) : e.registration? = e.change?.bind Change.registration? := by
  cases e with
  | table change => cases change <;> rfl
  | read p l outcome =>
    rw [registration?, change?]
    cases Notice.ofRead outcome <;> rfl

end Event

theorem pending_handle (c : Client) (e : Event) :
    (c.handle e).pending = (e.change?.map c.pending.change).getD c.pending := by
  cases e with
  | table change => rfl
  | read p l outcome =>
    rw [handle, pending_read, Event.change?]
    cases Notice.ofRead outcome <;> rfl

/-- The table of a client after a run. -/
theorem pending_run (c : Client) (events : List Event) :
    (c.run events).pending = (events.filterMap Event.change?).foldl Pending.change c.pending := by
  induction events generalizing c with
  | nil => rfl
  | cons e events ih =>
    rw [run, List.foldl_cons, ← run, ih, pending_handle]
    cases h : e.change? with
    | none =>
      rw [List.filterMap_cons_none h]
      rfl
    | some change =>
      rw [List.filterMap_cons_some h]
      rfl

/-- The table of a client that started without waiting calls is sound. -/
theorem sound_run (c : Client) (events : List Event) :
    (({ c with pending := .empty } : Client).run events).pending.Sound
      (events.filterMap Event.registration?) := by
  rw [pending_run, funext Event.registration?_eq, ← List.filterMap_filterMap]
  exact Pending.sound_empty.changes _

/-- Of the calls that were registered, each ends once, and none because of another. -/
structure EndsOnce (c : Client) (registered : List (RequestId × Serializer)) : Prop where
  /-- The tickets of the calls stand each in one place, with those that wait or with those that
  are settled. -/
  once : (c.pending.calls.map PendingCall.ticket ++ c.pending.settled.map Prod.fst).Perm
    (List.range registered.length)
  /-- A call waits, or was dropped, or was delivered a result. -/
  standing : ∀ t < registered.length, c.pending.status t = .waiting ∨
    c.pending.status t = .settled .dropped ∨
    ∃ result, c.pending.status t = .settled (.delivered result)
  /-- The next call that is registered waits. Under a request of its own it leaves the others where
  they are. -/
  registering : ∀ id serializer,
    (c.pending.register id serializer).1 = registered.length ∧
    (c.pending.register id serializer).2.status registered.length = .waiting ∧
    (c.pending.contains id = false → ∀ t < registered.length,
      (c.pending.register id serializer).2.status t = c.pending.status t)
  /-- A request is in the table exactly when a call that was registered for it waits. -/
  contained : ∀ id, c.pending.contains id = true ↔
    ∃ t serializer, registered[t]? = some (id, serializer) ∧ c.pending.status t = .waiting
  /-- Whatever is told to a request under which no call waits changes nothing. -/
  ignored : ∀ n, c.pending.contains n.request = false → c.pending.take n = (false, c.pending)
  /-- Whatever is told to a request settles the call that waits under it. -/
  settled : ∀ n t serializer, registered[t]? = some (n.request, serializer) →
    c.pending.status t = .waiting →
      (c.pending.take n).1 = true ∧
        (c.pending.take n).2.status t = .settled (n.settlement serializer)
  /-- Whatever is told to a request leaves the calls of all other requests where they are. -/
  isolated : ∀ n t id serializer, registered[t]? = some (id, serializer) → n.request ≠ id →
    (c.pending.take n).2.status t = c.pending.status t
  /-- A connection that reads tells one request at most. -/
  read : ∀ p l outcome, (c.read p l outcome).pending =
    match Notice.ofRead outcome with
    | some n => (c.pending.take n).2
    | none => c.pending
  /-- An answer that gives no value is an error that carries its request. -/
  unreadable : ∀ (frame : Frame) (serializer : Serializer),
    (∃ v, Pending.resultOf serializer frame = .ok v ∧ (frame.header.type = .empty ∨
      frame.header.type = .normal ∧ serializer.deserialize frame.body = .ok v)) ∨
    ∃ e, Pending.resultOf serializer frame = .error e ∧ e.call? = some frame.header.call
  /-- A frame of an unknown type tells its request an error that carries it. -/
  unknown : ∀ (f : RawFrame) (p : PoolId) (l : LinkId), FrameType.ofCode? f.code = none →
    f.IsWhole → f.size ≤ c.codec.limit →
      ∃ e, f.outcome? c.codec = some (.error e) ∧ e.call? = some f.call ∧
        (c.read p l (.error e)).pending = (c.pending.take (.failure f.request e)).2
  /-- Failing all calls delivers the fault to those that wait, gives their number and leaves
  none. -/
  failed : ∀ fault,
    (c.pending.failAll fault).1 =
      (List.range registered.length).countP (fun t => (c.pending.status t).isWaiting) ∧
    (∀ id, (c.pending.failAll fault).2.contains id = false) ∧
    ∀ t, c.pending.status t = .waiting →
      (c.pending.failAll fault).2.status t = .settled (.delivered (.error (.rpc fault none)))
  /-- It is the same to fail them one by one, in any order. -/
  failedEach : ∀ fault (ids : List RequestId),
    ids.Perm (c.pending.calls.map PendingCall.id) →
      (Pending.failEach fault ids c.pending).1 = (c.pending.failAll fault).1 ∧
      ∀ t, (Pending.failEach fault ids c.pending).2.status t =
        (c.pending.failAll fault).2.status t
  /-- A call that was settled stays so. -/
  final : ∀ later t how, c.pending.status t = .settled how →
    (c.run later).pending.status t = .settled how

/-- Whatever happens to the table of a client that starts without waiting calls, in whatever order:
each registered call ends once, and none because of another. -/
theorem calls_end_once (c : Client) (events : List Event) :
    (({ c with pending := .empty } : Client).run events).EndsOnce
      (events.filterMap Event.registration?) := by
  have hsound := sound_run c events
  generalize ({ c with pending := .empty } : Client).run events = c at hsound ⊢
  generalize events.filterMap Event.registration? = registered at hsound ⊢
  exact
    { once := hsound.once
      standing := fun t ht => by
        rcases hsound.status_cases ht with hwaits | ⟨how, hsettled⟩
        · exact Or.inl hwaits
        · cases how with
          | delivered result => exact Or.inr (Or.inr ⟨result, hsettled⟩)
          | dropped => exact Or.inr (Or.inl hsettled)
      registering := fun id serializer =>
        have hself := hsound.status_register_self id serializer
        ⟨hself.1, hself.2, fun h t ht => hsound.status_register_of_ne h serializer ht⟩
      contained := fun id => hsound.contains_iff
      ignored := fun n => Pending.take_of_not_contains
      settled := fun n t serializer => hsound.status_take_of_waiting
      isolated := fun n t id serializer => hsound.status_take_of_ne
      read := c.pending_read
      unreadable := fun frame serializer => Pending.resultOf_cases serializer frame
      unknown := fun f p l hcode hwhole hsize => by
        obtain ⟨e, hread, hcall⟩ := RawFrame.outcome?_of_unknown hcode hwhole hsize
        refine ⟨e, hread, hcall, ?_⟩
        rw [c.pending_read, Notice.ofRead, hcall]
        rfl
      failed := fun fault => ⟨hsound.failAll_fst fault, c.pending.not_contains_failAll fault,
        fun t => hsound.status_failAll fault⟩
      failedEach := fun fault ids => hsound.failEach fault
      final := fun later t how hsettled => by
        have hlater : (c.run later).pending.Sound
            (registered ++ (later.filterMap Event.change?).filterMap Change.registration?) := by
          rw [pending_run]
          exact hsound.changes _
        rw [hlater.status_eq_settled_iff, pending_run]
        have hkept := Pending.settled_changes_suffix c.pending (later.filterMap Event.change?)
        exact hkept.subset (hsound.status_eq_settled_iff.mp hsettled) }

/-- A fault that cannot be read is an error of its call; the other call gets the fault of the client
that stops, and a later answer is for nobody. -/
example (c : Client) :
    let answer (id : RequestId) (type : FrameType) : Event := .read 0 0 (.ok ⟨⟨1, id, 1, type⟩, []⟩)
    let pending := (({ c with pending := .empty } : Client).run
      [.table (.register 7 .empty), .table (.register 8 .empty), answer 7 .abnormal,
        .table (.failAll stoppingFault), answer 8 .empty]).pending
    pending.settled.map (fun s => (s.1, match s.2 with
      | .delivered (.error e) => (e.kind, e.call?)
      | _ => (.clientError, none))) =
    [(1, .clientStopping, none), (0, .clientSerializerError, some ⟨1, 7, 1⟩)] := rfl

end Client

end RemoteCall
