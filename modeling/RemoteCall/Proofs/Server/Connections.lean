import RemoteCall.Server.Basic

/-!
# Connections and their gates

A connection is found by its number, whatever is done to the others. Answering a request changes
nothing about a connection but the messages that wait for its writer; only signals change its read
gate.

## Main results

* `Connections.get?_modify` : what a change of one connection does to the others.
* `Connection.answered_refuse`, `Task.answered_run` : answers leave the gate as it is.
* `gate_signalAll_resume`, `gate_pause` : what signals do to the gates of a server.
-/

namespace RemoteCall.Server

/-! ### Answers -/

/-- A connection after answers were queued on it, or none. -/
def Connection.Answered (c c' : Connection) : Prop :=
  ∃ outbox, c' = { c with outbox }

namespace Connection

variable {c c' c'' : Connection}

theorem Answered.refl (c : Connection) : c.Answered c := ⟨c.outbox, rfl⟩

theorem Answered.trans (h : c.Answered c') (h' : c'.Answered c'') : c.Answered c'' := by
  obtain ⟨outbox, rfl⟩ := h
  obtain ⟨outbox', rfl⟩ := h'
  exact ⟨outbox', rfl⟩

theorem answered_push (c : Connection) (bytes : Bytes) : c.Answered (c.push bytes).2 := by
  unfold push
  split
  · exact .refl c
  · unfold queue
    dsimp only
    split
    · exact .refl c
    · exact ⟨_, rfl⟩

theorem answered_sendFrame (c : Connection) (frame : Frame) :
    c.Answered (c.sendFrame frame).2 := by
  unfold sendFrame
  split
  · exact c.answered_push _
  · exact .refl c

theorem answered_refuse (c : Connection) (request : Header) (fault : Fault) :
    c.Answered (c.refuse request fault) :=
  c.answered_sendFrame (.fault request fault)

theorem answered_sendValue (c : Connection) (request : Header) (serializer : Serializer)
    (value : Value) : c.Answered (c.sendValue request serializer value).2 := by
  unfold sendValue
  split
  · exact .refl c
  · rename_i bytes _
    have hpush := c.answered_push bytes
    split <;> rename_i hp <;> rw [hp] at hpush <;> exact hpush

end Connection

theorem Task.answered_run (t : Task) (c : Connection) : c.Answered (t.run c) := by
  unfold run reply
  split
  · rename_i v _
    have hsend := c.answered_sendValue t.header t.method.returnSerializer v
    split <;> rename_i hs <;> rw [hs] at hsend
    · exact hsend
    · exact hsend.trans (Connection.answered_refuse _ _ _)
  · exact c.answered_refuse _ _
  · exact c.answered_refuse _ _

/-! ### Finding connections -/

namespace Connections

/-- A change of one connection that keeps its number changes no other one. -/
theorem get?_modify {f : Connection → Connection} (hf : ∀ k, (f k).id = k.id) (cs : Connections)
    (c d : ConnectionId) :
    (cs.modify c f).get? d = if d = c then (cs.get? d).map f else cs.get? d := by
  have hid : ((fun k : Connection => k.id == d) ∘ fun k => if k.id = c then f k else k) =
      fun k => k.id == d := by
    funext k
    dsimp only [Function.comp]
    split
    · rw [hf]
    · rfl
  rw [get?, modify, List.find?_map, hid]
  cases hfind : cs.find? fun k => k.id == d with
  | none => simp [get?, hfind]
  | some k =>
    have hk : k.id = d := by simpa using List.find?_some hfind
    simp only [get?, hfind, Option.map_some, hk]
    split <;> rfl

end Connections

/-! ### Gates -/

/-- Whether the read gate of a connection is open; `none` if there is no such connection. -/
def gate (s : Server) (c : ConnectionId) : Option Bool :=
  (s.connections.get? c).map Connection.gateOpen

variable (s : Server) (c d : ConnectionId)

/-- A change of a connection that keeps its number changes at most its own gate. -/
theorem gate_onConnection {f : Connection → Connection} {g : Bool → Bool}
    (hf : ∀ k, (f k).id = k.id) (hgate : ∀ k, (f k).gateOpen = g k.gateOpen) :
    (s.onConnection c f).gate d = if d = c then (s.gate d).map g else s.gate d := by
  rw [gate, onConnection, Connections.get?_modify hf]
  split
  · rw [gate, Option.map_map, Option.map_map]
    exact congrArg (fun h => (s.connections.get? d).map h) (funext hgate)
  · rfl

theorem gate_onConnection_of_eq {f : Connection → Connection} (hf : ∀ k, (f k).id = k.id)
    (hgate : ∀ k, (f k).gateOpen = k.gateOpen) : (s.onConnection c f).gate d = s.gate d := by
  rw [s.gate_onConnection c d (g := id) hf hgate]
  simp

theorem gate_onConnection_of_answered {f : Connection → Connection}
    (hf : ∀ k, Connection.Answered k (f k)) : (s.onConnection c f).gate d = s.gate d := by
  refine s.gate_onConnection_of_eq c d (fun k => ?_) fun k => ?_
  · obtain ⟨outbox, h⟩ := hf k
    rw [h]
  · obtain ⟨outbox, h⟩ := hf k
    rw [h]

@[simp] theorem gate_refuse (t : Task) (fault : Fault) : (s.refuse t fault).gate d = s.gate d :=
  s.gate_onConnection_of_answered t.connection d fun k => k.answered_refuse t.header fault

theorem gate_pause :
    (s.pause c).gate d = if d = c then (s.gate d).map fun _ => false else s.gate d :=
  s.gate_onConnection c d (f := Connection.pause) (fun _ => rfl) fun _ => rfl

theorem gate_resume :
    (s.resume c).gate d = if d = c then (s.gate d).map fun _ => true else s.gate d :=
  s.gate_onConnection c d (f := Connection.resume) (fun _ => rfl) fun _ => rfl

/-- Resuming connections opens the gates of these and of no others. -/
theorem gate_signalAll_resume (cs : List ConnectionId) :
    (s.signalAll (cs.map .resume)).gate d =
      if d ∈ cs then (s.gate d).map fun _ => true else s.gate d := by
  induction cs generalizing s with
  | nil => simp [signalAll, Connections.signalAll, gate]
  | cons c cs ih =>
    have hcons : s.signalAll ((c :: cs).map .resume) = (s.resume c).signalAll (cs.map .resume) :=
      rfl
    rw [hcons, ih, gate_resume]
    by_cases hd : d = c <;> by_cases hcs : d ∈ cs <;> simp [hd, hcs, Function.comp_def]

/-- A further connection does not change the gates of those that are there. -/
theorem gate_connect (k : Connection) :
    { s with connections := s.connections ++ [k] }.gate d =
      (s.gate d).or (if k.id = d then some k.gateOpen else none) := by
  simp only [gate, Connections.get?, List.find?_append, Option.map_or]
  by_cases hk : k.id = d <;> simp [hk]

end RemoteCall.Server
