import Mathlib.Data.List.Basic
import RemoteCall.Proofs.Server.Activity
import RemoteCall.Proofs.Server.Answers

/-!
# What a server posts on its connections

Whatever a server does, all that it puts on a connection are answers, each of them one frame that
belongs to one request. A frame is queued behind the messages that wait if the connection is open
and the frame fits its bound; otherwise it is dropped. A result whose frame does not fit is not
dropped: a fault is posted in its place.

Tasks are answered when they end, and only then, so the posts of an operation on tasks are read off
the endings that it takes down.

## Main definitions

* `Outcome.answerOn` : the frame that answers a request on a connection with a bound.
* `Post`, `Connection.messages` : an answer, and what a connection queues of a list of answers.
* `Queues`, `Ends` : what operations of a server put on its connections.

## Main results

* `Task.reply_eq_post` : a task is answered with one post, however its handler ends.
* `ThreadStepped.ends`, `ends_handOver`, `ends_delayThread`, `Shutdown.ends_next` : operations on
  tasks answer those that end.
-/

namespace RemoteCall

/-- The frame that answers a request on a connection with this bound. A result whose frame does not
fit is answered with a fault, like one that cannot be serialized. -/
def Outcome.answerOn (codec : Codec) (request : Header) (serializer : Serializer) :
    Outcome → Frame
  | value v =>
    match codec.valueBytes (request.withType .normal) serializer v with
    | .ok _ => (value v).answer request serializer
    | .error e => .fault request ⟨.serializerError, e.message⟩
  | outcome => outcome.answer request serializer

/-- An answer belongs to the request that it answers. -/
theorem Outcome.call_answerOn (outcome : Outcome) (codec : Codec) (request : Header)
    (serializer : Serializer) :
    (outcome.answerOn codec request serializer).header.call = request.call := by
  cases outcome with
  | value v =>
    unfold answerOn
    dsimp only
    split
    · exact (value v).call_answer request serializer
    · rfl
  | fault f => exact (Outcome.fault f).call_answer request serializer
  | panic text => exact (Outcome.panic text).call_answer request serializer

namespace Server

/-! ### Posts -/

namespace Connection

variable {k : Connection}

/-- Posts a frame: it is queued if that is possible, and dropped otherwise. -/
def post (k : Connection) (f : Frame) : Connection :=
  (k.sendFrame f).2

/-- A frame that does not fit the bound of the connection is dropped. -/
def message? (k : Connection) (f : Frame) : Option Outbound :=
  if k.codec.Fits f then some (.frame f.bytes) else none

theorem push_of_shut (hk : ¬k.IsOpen) (bytes : Bytes) : k.push bytes = (false, k) := by
  have hshut : k.closed = true ∨ k.writerGone = true := by
    rcases hclosed : k.closed with - | -
    · rcases hgone : k.writerGone with - | -
      · exact absurd ⟨hclosed, hgone⟩ hk
      · exact Or.inr rfl
    · exact Or.inl rfl
  rw [push, if_pos hshut]

theorem post_of_shut (hk : ¬k.IsOpen) (f : Frame) : k.post f = k := by
  unfold post sendFrame
  split
  · rw [push_of_shut hk]
  · rfl

theorem post_of_isOpen (hk : k.IsOpen) (f : Frame) :
    k.post f = { k with outbox := k.outbox ++ (k.message? f).toList } := by
  by_cases hf : k.codec.Fits f
  · rw [post, sendFrame_of_fits hk hf, queue_of_isOpen hk, message?, if_pos hf]
    rfl
  · have hnot : ∀ bytes, k.codec.frameBytes f ≠ .ok bytes := fun bytes hbytes =>
      hf (Codec.frameBytes_eq_ok_iff.mp hbytes).1
    rcases hbytes : k.codec.frameBytes f with e | bytes
    · simp [post, sendFrame, hbytes, message?, hf]
    · exact absurd hbytes (hnot bytes)

end Connection

/-- However its handler ends, a task is answered with one post. -/
theorem Task.reply_eq_post (t : Task) (outcome : Outcome) (k : Connection) :
    t.reply outcome k =
      k.post (outcome.answerOn k.codec t.header t.method.returnSerializer) := by
  cases outcome with
  | value v =>
    rcases hbytes : k.codec.valueBytes (t.header.withType .normal) t.method.returnSerializer v with
      e | bytes
    · have hsend : k.sendValue t.header t.method.returnSerializer v = (.error e, k) := by
        rw [Connection.sendValue, hbytes]
      rw [reply, hsend, Outcome.answerOn, hbytes]
      rfl
    · obtain ⟨f, hv, hf, rfl⟩ := Codec.valueBytes_eq_ok_iff.mp hbytes
      have hanswer : (Outcome.value v).answerOn k.codec t.header t.method.returnSerializer = f := by
        rw [Outcome.answerOn, hbytes]
        exact Outcome.answer_of_ok hv
      rw [hanswer]
      by_cases hk : k.IsOpen
      · rw [reply, Connection.sendValue_of_fits hk hv hf, Connection.post,
          Connection.sendFrame_of_fits hk hf]
      · have hsend : k.sendValue t.header t.method.returnSerializer v =
            (.error (.connection s!"connection to {k.peer.text} is closed"), k) := by
          rw [Connection.sendValue, hbytes]
          dsimp only
          rw [Connection.push_of_shut hk]
        rw [reply, hsend, Connection.post_of_shut hk]
        exact Connection.post_of_shut hk _
  | fault f => rfl
  | panic text => rfl

/-- An answer to a request of a connection; which frame it is may depend on the bound of the
connection. -/
structure Post where
  connection : ConnectionId
  call : CallRef
  answer : Codec → Frame
  call_answer : ∀ codec, (answer codec).header.call = call

/-- The frame that answers a request on a connection whatever its bound. -/
def Post.ofFrame (c : ConnectionId) (f : Frame) : Post :=
  ⟨c, f.header.call, fun _ => f, fun _ => rfl⟩

/-- The answer to a task that has ended. -/
def TaskEnd.post : TaskEnd → Post
  | ran t =>
    { connection := t.connection
      call := t.header.call
      answer := fun codec =>
        (t.method.invoke t.parameter).answerOn codec t.header t.method.returnSerializer
      call_answer := fun codec => Outcome.call_answerOn _ codec t.header _ }
  | refused t fault =>
    { connection := t.connection
      call := t.header.call
      answer := fun _ => .fault t.header fault
      call_answer := fun _ => rfl }

/-- What a connection queues of answers that are posted one after another. -/
def Connection.messages (k : Connection) (posts : List Post) : List Outbound :=
  if k.closed || k.writerGone then [] else posts.filterMap fun p => k.message? (p.answer k.codec)

namespace Connection

variable {k : Connection}

@[simp] theorem messages_nil (k : Connection) : k.messages [] = [] := by
  simp [messages]

theorem messages_append (k : Connection) (posts posts' : List Post) :
    k.messages (posts ++ posts') = k.messages posts ++ k.messages posts' := by
  unfold messages
  split
  · rfl
  · exact List.filterMap_append

/-- An open connection queues every answer that fits its bound. -/
theorem messages_of_fits {posts : List Post} (hk : k.IsOpen)
    (hfits : ∀ p ∈ posts, k.codec.Fits (p.answer k.codec)) :
    k.messages posts = posts.map fun p => .frame (p.answer k.codec).bytes := by
  have hqueued : ∀ p ∈ posts, k.message? (p.answer k.codec) =
      some (.frame (p.answer k.codec).bytes) := fun p hp => if_pos (hfits p hp)
  rw [messages, hk.closed, hk.writerGone, Bool.or_self, if_neg Bool.false_ne_true,
    List.filterMap_congr hqueued]
  exact congrFun List.filterMap_eq_map posts

/-- Posting queues what the connection makes of the answer. -/
theorem post_eq (k : Connection) (p : Post) :
    k.post (p.answer k.codec) = { k with outbox := k.outbox ++ k.messages [p] } := by
  by_cases hk : k.IsOpen
  · rw [post_of_isOpen hk]
    have hmessages : k.messages [p] = (k.message? (p.answer k.codec)).toList := by
      cases hmessage : k.message? (p.answer k.codec) <;>
        simp [messages, hk.closed, hk.writerGone, hmessage]
    rw [hmessages]
  · have hshut : (k.closed || k.writerGone) = true := by
      rcases hclosed : k.closed with - | -
      · rcases hgone : k.writerGone with - | -
        · exact absurd ⟨hclosed, hgone⟩ hk
        · rfl
      · rfl
    simp [post_of_shut hk, messages, hshut]

end Connection

/-- After an operation that posts these answers, each connection has queued those that are for it,
and nothing but its read gate has changed beside. -/
def Queues (s s' : Server) (posts : List Post) : Prop :=
  ∀ d k, s.connections.get? d = some k → ∃ gateOpen,
    s'.connections.get? d = some
      { k with
        gateOpen
        outbox := k.outbox ++ k.messages (posts.filter fun p => p.connection == d) }

namespace Queues

variable {s s' s'' : Server} {posts posts' : List Post}

theorem of_connections (h : s'.connections = s.connections) : Queues s s' [] := by
  intro d k hk
  refine ⟨k.gateOpen, ?_⟩
  rw [h, hk]
  simp

theorem trans (h : Queues s s' posts) (h' : Queues s' s'' posts') :
    Queues s s'' (posts ++ posts') := by
  intro d k hk
  obtain ⟨gate, hk'⟩ := h d k hk
  obtain ⟨gate', hk''⟩ := h' d _ hk'
  refine ⟨gate', hk''.trans ?_⟩
  rw [List.filter_append, Connection.messages_append, ← List.append_assoc]
  rfl

theorem signal (s : Server) (c : ConnectionId) {f : Connection → Connection}
    (hf : ∀ k, ∃ gateOpen, f k = { k with gateOpen }) : Queues s (s.onConnection c f) [] := by
  intro d k hk
  have hid (k : Connection) : (f k).id = k.id := by
    obtain ⟨gate, h⟩ := hf k
    rw [h]
  obtain ⟨gate, hgate⟩ := hf k
  have hfound := Connections.get?_modify hid s.connections c d
  rw [hk] at hfound
  by_cases hd : d = c
  · rw [if_pos hd] at hfound
    exact ⟨gate, hfound.trans (by simp [hgate])⟩
  · rw [if_neg hd] at hfound
    exact ⟨k.gateOpen, hfound.trans (by simp)⟩

theorem signalAll (s : Server) (signals : List GateSignal) : Queues s (s.signalAll signals) [] := by
  induction signals generalizing s with
  | nil => exact of_connections rfl
  | cons signal signals ih =>
    have hfirst : Queues s (s.signalAll [signal]) [] := by
      cases signal with
      | pause c => exact Queues.signal s c fun k => ⟨false, rfl⟩
      | resume c => exact Queues.signal s c fun k => ⟨true, rfl⟩
    exact hfirst.trans (ih (s.signalAll [signal]))

/-- Posting an answer queues it on its connection and on no other. -/
theorem post (s : Server) (p : Post) :
    Queues s (s.onConnection p.connection fun k => k.post (p.answer k.codec)) [p] := by
  intro d k hk
  have hid (k : Connection) : (k.post (p.answer k.codec)).id = k.id := by rw [k.post_eq]
  have hfound := Connections.get?_modify hid s.connections p.connection d
  rw [hk] at hfound
  refine ⟨k.gateOpen, hfound.trans ?_⟩
  by_cases hd : d = p.connection
  · simp [hd, k.post_eq]
  · have hother : (p.connection == d) = false := by simpa using Ne.symm hd
    simp [hd, hother]

end Queues

/-- An operation that answers those tasks that end in it, and posts nothing else. -/
def Ends (s s' : Server) : Prop :=
  ∃ ends, s'.endings = s.endings ++ ends ∧ Queues s s' (ends.map TaskEnd.post)

namespace Ends

variable {s s' s'' : Server}

/-- An operation in which no task ends. -/
theorem of_queues (hendings : s'.endings = s.endings) (h : Queues s s' []) : Ends s s' :=
  ⟨[], by rw [hendings, List.append_nil], h⟩

theorem refl (s : Server) : Ends s s := of_queues rfl (.of_connections rfl)

theorem trans (h : Ends s s') (h' : Ends s' s'') : Ends s s'' := by
  obtain ⟨ends, hendings, hqueues⟩ := h
  obtain ⟨ends', hendings', hqueues'⟩ := h'
  refine ⟨ends ++ ends', ?_, ?_⟩
  · rw [hendings', hendings, List.append_assoc]
  · rw [List.map_append]
    exact hqueues.trans hqueues'

theorem signalAll (s : Server) (signals : List GateSignal) : Ends s (s.signalAll signals) :=
  of_queues rfl (.signalAll s signals)

theorem refuse (s : Server) (t : Task) (fault : Fault) : Ends s (s.refuse t fault) :=
  ⟨[.refused t fault], rfl, Queues.post s (TaskEnd.post (.refused t fault))⟩

/-- A task that was run is answered. -/
theorem run (s : Server) (t : Task) :
    Ends s ((s.onConnection t.connection t.run).record (.ran t)) := by
  refine ⟨[.ran t], rfl, ?_⟩
  have hrun : t.run = fun k => k.post ((TaskEnd.post (.ran t)).answer k.codec) :=
    funext fun k => t.reply_eq_post (t.method.invoke t.parameter) k
  have hpost := Queues.post s (TaskEnd.post (.ran t))
  rw [← hrun] at hpost
  exact hpost

end Ends

/-! ### Operations on tasks -/

section Operations

variable {s s' : Server}

theorem ThreadStepped.ends {i : ExecutorIndex} {w : Nat} (h : ThreadStepped s i w s') :
    Ends s s' := by
  cases h with
  | same => exact .refl s
  | restage he hr started => exact .of_queues rfl (.of_connections rfl)
  | take he hstage htasks hdequeue =>
    exact (Ends.of_queues rfl (.of_connections rfl)).trans (.signalAll _ _)
  | finish he hstage =>
    exact (Ends.of_queues rfl (.of_connections rfl)).trans (.run _ _)

theorem ends_submit (s : Server) (i : ExecutorIndex) (t : Task) : Ends s (s.submit i t).2 := by
  unfold submit
  split
  · exact .refl s
  · exact (Ends.of_queues rfl (.of_connections rfl)).trans (.signalAll _ _)

theorem ends_delay (s : Server) (t : Task) (i : ExecutorIndex) : Ends s (s.delay t i) := by
  rcases s.delay_cases t i with ⟨-, h⟩ | ⟨-, -, h⟩ | ⟨-, -, h⟩
  · rw [h]
    exact (Ends.refuse s t _).trans (.signalAll _ _)
  · rw [h]
    exact .refuse s t _
  · rw [h]
    exact (Ends.of_queues rfl (.of_connections rfl)).trans (.signalAll _ _)

theorem ends_handOver (s : Server) (h : Handing) : Ends s (s.handOver h).2 := by
  cases h with
  | refused t i => exact ends_delay s t i
  | offered t i =>
    have hsubmit := ends_submit s i t
    rcases hs : s.submit i t with ⟨- | - | u | u, s'⟩ <;> rw [hs] at hsubmit <;>
      simp only [handOver, hs]
    · exact hsubmit
    · exact hsubmit
    · exact hsubmit
    · exact (hsubmit.trans (.signalAll _ [.pause u.connection])).trans (.refuse _ u _)

theorem ends_resubmit (s : Server) : Ends s s.resubmit := by
  rcases hhand : s.delayed.hand with - | p | ⟨t, i⟩ <;> simp only [resubmit, hhand]
  · exact .refl s
  · have hempty : Ends s s.emptyHand := .of_queues rfl (.of_connections rfl)
    have hsubmit := hempty.trans (ends_submit s.emptyHand p.executor p.task)
    rcases hs : s.emptyHand.submit p.executor p.task with ⟨- | - | u | u, s'⟩ <;>
      rw [hs] at hsubmit <;> simp only [offerAgain, hs]
    · exact hsubmit.trans (.signalAll _ _)
    · exact hsubmit.trans (.signalAll _ _)
    · exact hsubmit.trans (.of_queues rfl (.of_connections rfl))
    · exact (hsubmit.trans (.refuse _ u _)).trans (.signalAll _ _)
  · exact .refl s

/-- A step of the thread of the delay list answers a task that it gives up. -/
theorem ends_delayThread (s : Server) (step : DelayStep) : Ends s (s.delayThread step) := by
  cases step with
  | wake => exact .of_queues rfl (.of_connections rfl)
  | resubmit => exact ends_resubmit s
  | repark =>
    rcases hhand : s.delayed.hand with - | p | ⟨t, i⟩ <;> simp only [delayThread, repark, hhand]
    · exact .refl s
    · exact .refl s
    · exact (Ends.of_queues rfl (.of_connections rfl)).trans (ends_delay _ t i)

/-- A step of a shutdown answers at most one task. -/
theorem Shutdown.ends_next (s : Server) (p : Shutdown) : Ends s (p.next s).2 := by
  cases p with
  | notBegun => exact .of_queues rfl (.of_connections rfl)
  | begun => exact .of_queues rfl (.of_connections rfl)
  | answering parked =>
    rcases hhand : s.delayed.hand with - | p | ⟨t, i⟩
    · rcases parked with - | ⟨p, parked⟩ <;> simp only [next, hhand]
      · exact .of_queues rfl (.of_connections rfl)
      · exact (Ends.signalAll s [.resume p.task.connection]).trans (.refuse _ p.task _)
    · simpa only [next, hhand] using Ends.refl s
    · simpa only [next, hhand] using Ends.refl s
  | draining i left =>
    unfold next
    dsimp only
    split
    · rename_i hi
      rw [drain_eq (List.getElem?_eq_getElem hi)]
      exact (Ends.of_queues rfl (.of_connections rfl)).trans (.signalAll _ _)
    · exact .refl s
  | refusing left =>
    rcases left with - | ⟨t, left⟩
    · exact .refl s
    · exact .refuse s t stoppingFault
  | returned => exact .refl s

end Operations

end Server

end RemoteCall
