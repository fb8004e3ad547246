import RemoteCall.Proofs.Server.Posting
import RemoteCall.Server.WriteLoop

/-!
# What the writer of a connection delivers

A send that reports success has put one frame behind the messages that wait; any other send changes
nothing. The writer receives the messages one after another and writes them in batches, which may
begin and end anywhere between two messages. However sends, closings and the steps of the writer are
interleaved, the bytes on the socket are those of the accepted frames in the order of their sends,
as far as the writer has come; and since the closing is the last message, the socket is shut down
behind all of them.

## Main definitions

* `Send` : what can be sent on a connection, and the frame that is sent.
* `Delivery`, `DeliveryMove` : a connection with its writer, and what can happen to them.
* `Delivery.Sound` : every accepted frame is on its way, in order.
* `Delivery.owed` : what the writer still has to do.

## Main results

* `WriteLoop.received_writeBatches` : grouping messages into batches makes no difference.
* `Delivery.Sound.step` : no move loses a frame, or puts one elsewhere.
* `Delivery.frames_delivered` : what is delivered, and that nothing is accepted after the closing.
-/

namespace RemoteCall.Server

/-! ### Batches -/

namespace WriteLoop

variable {ms ms' : List Outbound} {batches : List (List Outbound)}

/-- Nothing is written behind a closing. -/
theorem frames_append (ms ms' : List Outbound) :
    frames (ms ++ ms') =
      if (frames ms).2 then frames ms
      else ((frames ms).1 ++ (frames ms').1, (frames ms').2) := by
  induction ms with
  | nil => rfl
  | cons m ms ih =>
    cases m with
    | close => rfl
    | frame bytes =>
      rw [List.cons_append, frames, ih]
      by_cases hclosing : (frames ms).2 = true <;> simp [frames, hclosing]

theorem closing_iff : (frames ms).2 = true ↔ Outbound.close ∈ ms := by
  induction ms with
  | nil => simp [frames]
  | cons m ms ih => cases m <;> simp [frames, ih]

/-- However messages are grouped into batches, the same bytes reach the socket. -/
theorem received_writeBatches (batches : List (List Outbound)) :
    received (writeBatches batches) = (frames batches.flatten).1 := by
  induction batches with
  | nil => rfl
  | cons batch batches ih =>
    rw [List.flatten_cons, frames_append, writeBatches]
    by_cases hclosing : (frames batch).2 = true <;> simp [received, hclosing, ih]

theorem flatten_batchesUpTo {fuel : Nat} {ms : List Outbound} (h : ms.length ≤ fuel) :
    (batchesUpTo fuel ms).flatten = ms := by
  induction fuel generalizing ms with
  | zero =>
    obtain rfl := List.length_eq_zero_iff.mp (Nat.le_zero.mp h)
    rfl
  | succ fuel ih =>
    cases ms with
    | nil => rfl
    | cons m ms =>
      have hrest : ((m :: ms).drop maxBatch).length ≤ fuel := by
        rw [List.length_drop, maxBatch]
        simp only [List.length_cons] at h ⊢
        omega
      have hcut : batchesUpTo (fuel + 1) (m :: ms) =
          (m :: ms).take maxBatch :: batchesUpTo fuel ((m :: ms).drop maxBatch) := rfl
      rw [hcut, List.flatten_cons, ih hrest, List.take_append_drop]

/-- Full batches too are as good as writing one message after another. -/
theorem received_run (ms : List Outbound) : received (run ms) = (frames ms).1 := by
  rw [run, received_writeBatches, batches, flatten_batchesUpTo (Nat.le_refl _)]

/-- The socket is shut down at the end of the batch with the closing, and nothing follows. -/
theorem eq_append_shutdown (h : Outbound.close ∈ batches.flatten) :
    ∃ writes, writeBatches batches = writes ++ [.shutdown] ∧ .shutdown ∉ writes := by
  induction batches with
  | nil => simp at h
  | cons batch batches ih =>
    by_cases hclosing : (frames batch).2 = true
    · exact ⟨[.flushed (frames batch).1], by simp [writeBatches, hclosing], by simp⟩
    · have hlater : Outbound.close ∈ batches.flatten := by
        rw [List.flatten_cons, List.mem_append] at h
        exact h.resolve_left fun hclose => hclosing (closing_iff.mpr hclose)
      obtain ⟨writes, heq, hnot⟩ := ih hlater
      exact ⟨.flushed (frames batch).1 :: writes, by simp [writeBatches, hclosing, heq],
        by simp [hnot]⟩

/-- Without a closing the socket is not shut down. -/
theorem shutdown_notMem (h : Outbound.close ∉ batches.flatten) :
    .shutdown ∉ writeBatches batches := by
  induction batches with
  | nil => simp [writeBatches]
  | cons batch batches ih =>
    rw [List.flatten_cons, List.mem_append, not_or] at h
    have hclosing : ¬(frames batch).2 = true := fun hclose => h.1 (closing_iff.mp hclose)
    simp [writeBatches, hclosing, ih h.2]

end WriteLoop

/-! ### Sends -/

/-- What can be sent on a connection. -/
inductive Send where
  | frame (f : Frame)
  /-- The result of a request. -/
  | value (request : Header) (serializer : Serializer) (v : Value)
  | fault (request : Header) (f : Fault)

namespace Send

/-- The frame that is sent, unless the value cannot be serialized. -/
def frame? : Send → Option Frame
  | frame f => some f
  | value request serializer v => (Frame.ofValue (request.withType .normal) serializer v).toOption
  | fault request f => some (.fault request f)

/-- Sends on a connection; tells whether this was reported as a success. -/
def on (k : Connection) : Send → Bool × Connection
  | frame f => k.sendFrame f
  | value request serializer v =>
    let (result, k) := k.sendValue request serializer v
    (result.isOk, k)
  | fault request f => k.sendFault request f

/-- The send succeeds on the connection with this frame. -/
def Sends (s : Send) (k : Connection) (f : Frame) : Prop :=
  k.IsOpen ∧ s.frame? = some f ∧ k.codec.Fits f

variable {k : Connection} {s : Send} {f : Frame}

theorem sendFrame_eq_self (h : ¬(k.IsOpen ∧ k.codec.Fits f)) : k.sendFrame f = (false, k) := by
  rcases hbytes : k.codec.frameBytes f with e | bytes
  · rw [Connection.sendFrame, hbytes]
  · obtain ⟨hf, rfl⟩ := Codec.frameBytes_eq_ok_iff.mp hbytes
    rw [Connection.sendFrame, hbytes]
    exact Connection.push_of_shut (fun hk => h ⟨hk, hf⟩) f.bytes

/-- A send that succeeds puts its frame behind the messages that wait. -/
theorem on_of_sends (h : s.Sends k f) :
    s.on k = (true, { k with outbox := k.outbox ++ [.frame f.bytes] }) := by
  obtain ⟨hk, hframe, hf⟩ := h
  rw [← Connection.queue_of_isOpen hk]
  cases s with
  | frame g =>
    obtain rfl := Option.some.inj hframe
    rw [on, Connection.sendFrame_of_fits hk hf]
  | value request serializer v =>
    rcases hv : Frame.ofValue (request.withType .normal) serializer v with e | g
    · simp [frame?, hv, Except.toOption] at hframe
    · simp only [frame?, hv, Except.toOption, Option.some.injEq] at hframe
      subst hframe
      rw [on, Connection.sendValue_of_fits hk hv hf]
      rfl
  | fault request fault =>
    obtain rfl := Option.some.inj hframe
    rw [on, Connection.sendFault, Connection.sendFrame_of_fits hk hf]

/-- A send that does not succeed says so and changes nothing. -/
theorem on_of_not_sends (h : ∀ f, ¬s.Sends k f) : s.on k = (false, k) := by
  cases s with
  | frame f => rw [on, sendFrame_eq_self fun hopen => h f ⟨hopen.1, rfl, hopen.2⟩]
  | value request serializer v =>
    rcases hv : Frame.ofValue (request.withType .normal) serializer v with e | f
    · rw [on, Connection.sendValue_of_error hv]
      rfl
    · have hframe : (Send.value request serializer v).frame? = some f := by
        simp [frame?, hv, Except.toOption]
      have hnot : ¬(k.IsOpen ∧ k.codec.Fits f) := fun hopen => h f ⟨hopen.1, hframe, hopen.2⟩
      rw [on, Connection.sendValue, Codec.valueBytes_eq, hv]
      dsimp only
      rcases hbytes : k.codec.frameBytes f with e | bytes
      · rfl
      · obtain ⟨hf, rfl⟩ := Codec.frameBytes_eq_ok_iff.mp hbytes
        dsimp only
        rw [Connection.push_of_shut fun hk => hnot ⟨hk, hf⟩]
        rfl
  | fault request fault =>
    rw [on, Connection.sendFault, sendFrame_eq_self fun hopen => h _ ⟨hopen.1, rfl, hopen.2⟩]

/-- A send reports success exactly when there is a frame that the connection takes. -/
theorem on_fst_iff : (s.on k).1 = true ↔ ∃ f, s.Sends k f := by
  constructor
  · intro htrue
    by_contra hnot
    rw [on_of_not_sends fun f hf => hnot ⟨f, hf⟩] at htrue
    cases htrue
  · rintro ⟨f, hf⟩
    rw [on_of_sends hf]

end Send

/-! ### A connection and its writer -/

/-- A connection with its writer. -/
structure Delivery where
  connection : Connection
  /-- The messages that the writer has received and not written yet. -/
  batch : List Outbound
  /-- The batches that the writer has written, in order. -/
  written : List (List Outbound)
  /-- The frames of the sends that reported success, in order. -/
  accepted : List Frame

/-- What can happen to a connection and its writer. -/
inductive DeliveryMove where
  | send (s : Send)
  | close
  /-- The writer receives the next message, if its batch may grow. -/
  | receive
  /-- The writer writes its batch. -/
  | write

/-- The move is one of the writer. -/
def DeliveryMove.IsOfWriter : DeliveryMove → Prop
  | receive | write => True
  | send _ | close => False

namespace Delivery

/-- A new connection. -/
def start (id : ConnectionId) (peer : SocketAddress) (codec : Codec) : Delivery :=
  { connection := .new id peer codec, batch := [], written := [], accepted := [] }

/-- What has reached the socket. -/
def socket (d : Delivery) : List SocketWrite :=
  WriteLoop.writeBatches d.written

/-- The bytes that have reached the socket. -/
def received (d : Delivery) : Bytes :=
  WriteLoop.received d.socket

/-- Makes a move. The writer stops when it has written a batch with a closing. -/
def step (d : Delivery) : DeliveryMove → Delivery
  | .send s =>
    match s.on d.connection with
    | (true, connection) => { d with connection, accepted := d.accepted ++ s.frame?.toList }
    | (false, connection) => { d with connection }
  | .close => { d with connection := d.connection.close }
  | .receive =>
    match d.connection.outbox with
    | [] => d
    | m :: rest =>
      if d.batch.length < WriteLoop.maxBatch then
        { d with connection := { d.connection with outbox := rest }, batch := d.batch ++ [m] }
      else d
  | .write =>
    if d.batch = [] then d
    else
      { d with
        connection :=
          if (WriteLoop.frames d.batch).2 then d.connection.abandon else d.connection
        batch := []
        written := d.written ++ [d.batch] }

/-- Makes moves one after another. -/
def run (d : Delivery) (moves : List DeliveryMove) : Delivery :=
  moves.foldl step d

variable {d : Delivery}

/-- A send is taken down with its frame, or changes nothing. -/
theorem step_send_cases (d : Delivery) (s : Send) :
    (∃ f, s.Sends d.connection f ∧ d.step (.send s) =
      { d with
        connection := { d.connection with outbox := d.connection.outbox ++ [.frame f.bytes] }
        accepted := d.accepted ++ [f] }) ∨
    (∀ f, ¬s.Sends d.connection f) ∧ d.step (.send s) = d := by
  by_cases hsends : ∃ f, s.Sends d.connection f
  · obtain ⟨f, hf⟩ := hsends
    refine Or.inl ⟨f, hf, ?_⟩
    rw [step, Send.on_of_sends hf, hf.2.1]
    rfl
  · have hnot : ∀ f, ¬s.Sends d.connection f := fun f hf => hsends ⟨f, hf⟩
    refine Or.inr ⟨hnot, ?_⟩
    rw [step, Send.on_of_not_sends hnot]

theorem step_receive_cases (d : Delivery) :
    (∃ m rest, d.connection.outbox = m :: rest ∧ d.step .receive =
      { d with connection := { d.connection with outbox := rest }, batch := d.batch ++ [m] }) ∨
    d.step .receive = d := by
  rw [step]
  split
  · exact Or.inr rfl
  · rename_i m rest houtbox
    split
    · exact Or.inl ⟨m, rest, houtbox, rfl⟩
    · exact Or.inr rfl

theorem step_write_of_batch (h : d.batch ≠ []) :
    d.step .write =
      { d with
        connection :=
          if (WriteLoop.frames d.batch).2 then d.connection.abandon else d.connection
        batch := []
        written := d.written ++ [d.batch] } :=
  if_neg h

theorem step_write_cases (d : Delivery) :
    (d.step .write =
      { d with
        connection :=
          if (WriteLoop.frames d.batch).2 then d.connection.abandon else d.connection
        batch := []
        written := d.written ++ [d.batch] }) ∨
    d.step .write = d := by
  by_cases h : d.batch = []
  · exact Or.inr (if_pos h)
  · exact Or.inl (step_write_of_batch h)

/-- The messages of accepted frames, and of the closing if there was one. -/
def messages (accepted : List Frame) (closed : Bool) : List Outbound :=
  accepted.map (fun f => .frame f.bytes) ++ if closed then [.close] else []

/-- The accepted frames are written, in the hands of the writer, or waiting for it, in order, and the
closing is behind them; the writer has stopped when it has written that. -/
structure Sound (d : Delivery) : Prop where
  order : d.written.flatten ++ d.batch ++ d.connection.outbox =
    messages d.accepted d.connection.closed
  stopped : d.connection.writerGone = true ↔ Outbound.close ∈ d.written.flatten

theorem sound_start (id : ConnectionId) (peer : SocketAddress) (codec : Codec) :
    (start id peer codec).Sound :=
  ⟨rfl, by simp [start, Connection.new]⟩

/-- A connection that takes frames is not closed. -/
theorem messages_append (accepted : List Frame) (f : Frame) :
    messages (accepted ++ [f]) false = messages accepted false ++ [.frame f.bytes] := by
  simp [messages]

/-- Nothing is behind the closing. -/
theorem eq_nil_of_close_mem {front back : List Outbound} {accepted : List Frame} {closed : Bool}
    (h : front ++ back = messages accepted closed) (hclose : .close ∈ front) :
    closed = true ∧ back = [] := by
  cases closed with
  | false =>
    have hmem : Outbound.close ∈ messages accepted false := h ▸ List.mem_append_left back hclose
    simp [messages] at hmem
  | true =>
    refine ⟨rfl, ?_⟩
    rcases List.eq_nil_or_concat back with rfl | ⟨back, m, rfl⟩
    · rfl
    · -- The closing would be among the frames.
      rw [messages, if_pos rfl, List.concat_eq_append, ← List.append_assoc] at h
      have hframes := (List.append_inj' h rfl).1
      have hmem := List.mem_append_left back hclose
      rw [hframes] at hmem
      simp at hmem

/-- Once the writer has stopped the connection is closed, and nothing waits. -/
theorem Sound.of_stopped (hd : d.Sound) (h : d.connection.writerGone = true) :
    d.connection.closed = true ∧ d.batch = [] ∧ d.connection.outbox = [] := by
  have horder := hd.order
  rw [List.append_assoc] at horder
  obtain ⟨hclosed, hwaiting⟩ := eq_nil_of_close_mem horder (hd.stopped.mp h)
  exact ⟨hclosed, List.append_eq_nil_iff.mp hwaiting⟩

theorem Sound.isOpen (hd : d.Sound) (h : d.connection.closed = false) : d.connection.IsOpen := by
  refine ⟨h, Bool.eq_false_iff.mpr fun hgone => ?_⟩
  rw [(hd.of_stopped hgone).1] at h
  cases h

theorem Sound.send (hd : d.Sound) (s : Send) : (d.step (.send s)).Sound := by
  rcases d.step_send_cases s with ⟨f, hf, hstep⟩ | ⟨-, hstep⟩
  · rw [hstep]
    have horder := hd.order
    refine ⟨?_, hd.stopped⟩
    show d.written.flatten ++ d.batch ++ (d.connection.outbox ++ [_]) =
      messages (d.accepted ++ [f]) d.connection.closed
    rw [hf.1.closed] at horder ⊢
    rw [messages_append, ← horder, List.append_assoc _ _ [_]]
  · rw [hstep]
    exact hd

theorem Sound.close (hd : d.Sound) : (d.step .close).Sound := by
  rw [step, Connection.close]
  split
  · exact hd
  · rename_i hnot
    have hopen := hd.isOpen (Bool.eq_false_iff.mpr hnot)
    have horder := hd.order
    rw [hopen.closed] at horder
    refine ⟨?_, ?_⟩
    · simp only [Connection.queue, Connection.resume, hopen.writerGone]
      show d.written.flatten ++ d.batch ++ (d.connection.outbox ++ [.close]) = _
      rw [← List.append_assoc, horder]
      simp [messages]
    · simpa [Connection.queue, Connection.resume, hopen.writerGone] using hd.stopped

theorem Sound.receive (hd : d.Sound) : (d.step .receive).Sound := by
  rcases d.step_receive_cases with ⟨m, rest, houtbox, hstep⟩ | hstep
  · have horder := hd.order
    rw [houtbox] at horder
    rw [hstep]
    exact ⟨by simpa using horder, hd.stopped⟩
  · rw [hstep]
    exact hd

theorem Sound.write (hd : d.Sound) : (d.step .write).Sound := by
  have horder := hd.order
  rcases d.step_write_cases with hstep | hstep
  · rw [hstep]
    by_cases hclosing : (WriteLoop.frames d.batch).2 = true
    · have hclose : Outbound.close ∈ d.written.flatten ++ d.batch :=
        List.mem_append_right _ (WriteLoop.closing_iff.mp hclosing)
      have houtbox := (eq_nil_of_close_mem horder hclose).2
      rw [houtbox] at horder
      rw [if_pos hclosing]
      exact ⟨by simpa [Connection.abandon] using horder, by simpa [Connection.abandon] using hclose⟩
    · have hclose : Outbound.close ∉ d.batch := fun h => hclosing (WriteLoop.closing_iff.mpr h)
      rw [if_neg hclosing]
      exact ⟨by simpa using horder, by simpa [hclose] using hd.stopped⟩
  · rw [hstep]
    exact hd

/-- No move loses a frame, or puts one elsewhere. -/
theorem Sound.step (hd : d.Sound) (move : DeliveryMove) : (d.step move).Sound := by
  cases move with
  | send s => exact hd.send s
  | close => exact hd.close
  | receive => exact hd.receive
  | write => exact hd.write

theorem Sound.run (hd : d.Sound) (moves : List DeliveryMove) : (d.run moves).Sound := by
  induction moves generalizing d with
  | nil => exact hd
  | cons move moves ih => exact ih (hd.step move)

/-! ### What is delivered -/

/-- The messages that the writer has not written. -/
def waiting (d : Delivery) : List Outbound :=
  d.batch ++ d.connection.outbox

theorem frames_messages (accepted : List Frame) (closed : Bool) :
    WriteLoop.frames (messages accepted closed) = (accepted.flatMap Frame.bytes, closed) := by
  induction accepted with
  | nil => cases closed <;> rfl
  | cons f accepted ih =>
    have hcons : messages (f :: accepted) closed = .frame f.bytes :: messages accepted closed := rfl
    rw [hcons, WriteLoop.frames, ih]
    rfl

/-- The socket has the accepted frames in order, as far as the writer has come. -/
theorem Sound.received_append (hd : d.Sound) :
    d.received ++ (WriteLoop.frames d.waiting).1 = d.accepted.flatMap Frame.bytes := by
  have hall : WriteLoop.frames (d.written.flatten ++ d.waiting) =
      (d.accepted.flatMap Frame.bytes, d.connection.closed) := by
    rw [waiting, ← List.append_assoc, hd.order, frames_messages]
  rw [received, socket, WriteLoop.received_writeBatches]
  by_cases hclosing : (WriteLoop.frames d.written.flatten).2 = true
  · have hclose := WriteLoop.closing_iff.mp hclosing
    obtain ⟨-, hbatch, houtbox⟩ := hd.of_stopped (hd.stopped.mpr hclose)
    have hwaiting : d.waiting = [] := by rw [waiting, hbatch, houtbox, List.append_nil]
    rw [hwaiting, List.append_nil] at hall
    rw [hwaiting, hall]
    exact List.append_nil _
  · rw [WriteLoop.frames_append, if_neg hclosing] at hall
    exact congrArg Prod.fst hall

/-- Everything accepted is in front of the shutdown, which is the last that happens on the socket. -/
theorem Sound.of_shutdown (hd : d.Sound) (h : .shutdown ∈ d.socket) :
    d.connection.closed = true ∧ d.received = d.accepted.flatMap Frame.bytes ∧
      ∃ writes, d.socket = writes ++ [.shutdown] ∧ .shutdown ∉ writes := by
  have hclose : Outbound.close ∈ d.written.flatten := by
    by_contra hnot
    exact WriteLoop.shutdown_notMem hnot h
  obtain ⟨hclosed, hbatch, houtbox⟩ := hd.of_stopped (hd.stopped.mpr hclose)
  have hreceived := hd.received_append
  rw [waiting, hbatch, houtbox] at hreceived
  exact ⟨hclosed, (List.append_nil _).symm.trans hreceived, WriteLoop.eq_append_shutdown hclose⟩

/-- When nothing waits, everything accepted is on the socket, and it is shut down if the connection
was closed. -/
theorem Sound.of_waiting_nil (hd : d.Sound) (h : d.waiting = []) :
    d.received = d.accepted.flatMap Frame.bytes ∧
      (d.connection.closed = true → .shutdown ∈ d.socket) := by
  have hreceived := hd.received_append
  rw [h] at hreceived
  refine ⟨(List.append_nil _).symm.trans hreceived, fun hclosed => ?_⟩
  have horder := hd.order
  rw [List.append_assoc, ← waiting, h, List.append_nil, hclosed] at horder
  have hclose : Outbound.close ∈ d.written.flatten := by simp [horder, messages]
  obtain ⟨writes, hsocket, -⟩ := WriteLoop.eq_append_shutdown hclose
  rw [socket, hsocket]
  simp

/-! ### The writer gets everything done -/

/-- How many moves the writer has to make at most: each message is received, and a batch is written
for it. -/
def owed (d : Delivery) : Nat :=
  2 * d.connection.outbox.length + d.batch.length

/-- While something waits, the writer has a move that brings it further. -/
theorem exists_owed_lt (h : d.waiting ≠ []) :
    ∃ move, DeliveryMove.IsOfWriter move ∧ (d.step move).owed < d.owed := by
  by_cases hbatch : d.batch = []
  · rcases houtbox : d.connection.outbox with - | ⟨m, rest⟩
    · exact absurd (by rw [waiting, hbatch, houtbox, List.append_nil]) h
    · refine ⟨.receive, trivial, ?_⟩
      rw [step, houtbox]
      simp [owed, hbatch, houtbox, WriteLoop.maxBatch]
      omega
  · refine ⟨.write, trivial, ?_⟩
    have hpos := List.length_pos_iff.mpr hbatch
    rw [step_write_of_batch hbatch]
    split <;> simp [owed, Connection.abandon] <;> omega

/-- The writer accepts nothing. -/
theorem accepted_of_isOfWriter {move : DeliveryMove} (h : move.IsOfWriter) :
    (d.step move).accepted = d.accepted := by
  cases move with
  | send s => exact absurd h id
  | close => exact absurd h id
  | receive => rcases d.step_receive_cases with ⟨m, rest, -, hstep⟩ | hstep <;> rw [hstep]
  | write => rcases d.step_write_cases with hstep | hstep <;> rw [hstep]

/-- By moves of the writer alone, nothing waits any more. -/
theorem exists_waiting_nil (d : Delivery) :
    ∃ later : List DeliveryMove, (∀ move ∈ later, move.IsOfWriter) ∧
      (d.run later).waiting = [] ∧ (d.run later).accepted = d.accepted := by
  by_cases hwaiting : d.waiting = []
  · exact ⟨[], by simp, hwaiting, rfl⟩
  · obtain ⟨move, hmove, hlt⟩ := exists_owed_lt hwaiting
    obtain ⟨later, hlater, hnil, haccepted⟩ := exists_waiting_nil (d.step move)
    refine ⟨move :: later, ?_, hnil, haccepted.trans (accepted_of_isOfWriter hmove)⟩
    simpa using ⟨hmove, hlater⟩
termination_by d.owed

/-! ### Closing -/

/-- The bound for frames stays, and the connection is closed by a closing alone. -/
theorem step_connection (d : Delivery) (move : DeliveryMove) :
    (d.step move).connection.codec = d.connection.codec ∧
      ((d.step move).connection.closed = true ↔ d.connection.closed = true ∨ move = .close) := by
  cases move with
  | send s => rcases d.step_send_cases s with ⟨f, -, hstep⟩ | ⟨-, hstep⟩ <;> simp [hstep]
  | close =>
    simp only [step, Connection.close]
    split
    · simpa
    · simp only [Connection.queue, Connection.resume]
      split <;> simp
  | receive => rcases d.step_receive_cases with ⟨m, rest, -, hstep⟩ | hstep <;> simp [hstep]
  | write =>
    rcases d.step_write_cases with hstep | hstep
    · rw [hstep]
      split <;> simp [Connection.abandon]
    · simp [hstep]

theorem run_connection (d : Delivery) (moves : List DeliveryMove) :
    (d.run moves).connection.codec = d.connection.codec ∧
      ((d.run moves).connection.closed = true ↔
        d.connection.closed = true ∨ .close ∈ moves) := by
  induction moves generalizing d with
  | nil => simp [run]
  | cons move moves ih =>
    obtain ⟨hcodec, hclosed⟩ := step_connection d move
    obtain ⟨hcodec', hclosed'⟩ := ih (d.step move)
    refine ⟨hcodec'.trans hcodec, hclosed'.trans ?_⟩
    rw [hclosed, List.mem_cons, or_assoc, eq_comm (a := move)]

/-- Until it is closed a connection takes every frame that fits; from then on it takes none. -/
theorem Sound.sends_iff (hd : d.Sound) (s : Send) :
    (s.on d.connection).1 = true ↔
      d.connection.closed = false ∧ ∃ f, s.frame? = some f ∧ d.connection.codec.Fits f := by
  rw [Send.on_fst_iff]
  constructor
  · rintro ⟨f, hopen, hf⟩
    exact ⟨hopen.closed, f, hf⟩
  · rintro ⟨hclosed, f, hf⟩
    exact ⟨f, hd.isOpen hclosed, hf⟩

/-- A send that fails queues nothing. -/
theorem step_of_failed {s : Send} (h : (s.on d.connection).1 = false) : d.step (.send s) = d := by
  rcases d.step_send_cases s with ⟨f, hf, -⟩ | ⟨-, hstep⟩
  · rw [Send.on_of_sends hf] at h
    cases h
  · exact hstep

/-- Sends, closings and moves of the writer on a new connection, in any order. What is on the socket,
followed by the frames that still wait, are the frames of the sends that reported success, in the
order of these sends; the writer can bring all of them to the socket, and shuts it down then if the
connection was closed. Nothing happens on the socket after the shutdown, and everything accepted is
there before. A send succeeds exactly if the connection was not closed and there is a frame that
fits; one that fails changes nothing. -/
theorem frames_delivered (id : ConnectionId) (peer : SocketAddress) (codec : Codec)
    (moves : List DeliveryMove) :
    let d := (start id peer codec).run moves
    let bytes := d.accepted.flatMap Frame.bytes
    d.received ++ (WriteLoop.frames d.waiting).1 = bytes ∧
      (∃ later : List DeliveryMove, (∀ move ∈ later, move.IsOfWriter) ∧
        (d.run later).waiting = [] ∧ (d.run later).received = bytes ∧
        (.close ∈ moves → .shutdown ∈ (d.run later).socket)) ∧
      (.shutdown ∈ d.socket → .close ∈ moves ∧ d.received = bytes ∧
        ∃ writes, d.socket = writes ++ [.shutdown] ∧ .shutdown ∉ writes) ∧
      ∀ s : Send,
        ((s.on d.connection).1 = true ↔
          .close ∉ moves ∧ ∃ f, s.frame? = some f ∧ codec.Fits f) ∧
        ((s.on d.connection).1 = false → d.step (.send s) = d) := by
  intro d bytes
  have hd : d.Sound := (sound_start id peer codec).run moves
  obtain ⟨hcodec, hclosed⟩ := run_connection (start id peer codec) moves
  replace hclosed : d.connection.closed = true ↔ .close ∈ moves :=
    hclosed.trans (or_iff_right Bool.false_ne_true)
  refine ⟨hd.received_append, ?_, fun hshutdown => ?_, fun s => ⟨?_, step_of_failed⟩⟩
  · obtain ⟨later, hlater, hnil, haccepted⟩ := exists_waiting_nil d
    obtain ⟨hreceived, hshutdown⟩ := (hd.run later).of_waiting_nil hnil
    refine ⟨later, hlater, hnil, by rw [hreceived, haccepted], fun hclose => hshutdown ?_⟩
    exact (run_connection d later).2.mpr (Or.inl (hclosed.mpr hclose))
  · obtain ⟨hshut, hrest⟩ := hd.of_shutdown hshutdown
    exact ⟨hclosed.mp hshut, hrest⟩
  · rw [hd.sends_iff, ← Bool.not_eq_true, hclosed, hcodec]
    rfl

end Delivery

end RemoteCall.Server
