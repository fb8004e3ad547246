import RemoteCall.Proofs.Frame.Encoding
import RemoteCall.Server.Steps

/-!
# The frame that answers a request

However its handler ends, a request is answered with one frame: the result as a frame of its own,
or a fault when there is no result or the result cannot be serialized. On a connection that is open
the frame is queued behind the messages that wait there, provided that it fits the bound of the
connection.

## Main definitions

* `Outcome.answer` : the frame that answers a request.
* `Connection.IsOpen` : what is queued on the connection will be written.

## Main results

* `Task.run_eq_queue` : running a task queues its answer and does nothing else.
-/

namespace RemoteCall

/-- The frame that answers a request with how its handler ended, whose values are written by this
serializer. -/
def Outcome.answer (request : Header) (serializer : Serializer) : Outcome → Frame
  | value v =>
    match Frame.ofValue (request.withType .normal) serializer v with
    | .ok f => f
    | .error e => .fault request ⟨.serializerError, e.toError.message⟩
  | fault f => .fault request f
  | panic text => .fault request (Server.Task.panicFault text)

theorem Outcome.answer_of_ok {request : Header} {serializer : Serializer} {v : Value} {f : Frame}
    (h : Frame.ofValue (request.withType .normal) serializer v = .ok f) :
    (Outcome.value v).answer request serializer = f := by
  rw [answer, h]

theorem Outcome.answer_of_error {request : Header} {serializer : Serializer} {v : Value}
    {e : Serializer.Failure}
    (h : Frame.ofValue (request.withType .normal) serializer v = .error e) :
    (Outcome.value v).answer request serializer =
      .fault request ⟨.serializerError, e.toError.message⟩ := by
  rw [answer, h]

/-- An answer belongs to the request that it answers. -/
theorem Outcome.call_answer (outcome : Outcome) (request : Header) (serializer : Serializer) :
    (outcome.answer request serializer).header.call = request.call := by
  cases outcome with
  | value v =>
    rcases Frame.ofValue_cases (request.withType .normal) serializer v with ⟨-, h⟩ |
      ⟨body, -, -, h⟩ | ⟨e, -, -, h⟩
    · rw [answer_of_ok h]
      rfl
    · rw [answer_of_ok h]
      rfl
    · rw [answer_of_error h]
      rfl
  | fault f => rfl
  | panic text => rfl

namespace Server

/-- The frame that answers a task. -/
def Task.answer (t : Task) : Frame :=
  (t.method.invoke t.parameter).answer t.header t.method.returnSerializer

namespace Connection

/-- What is queued on the connection will be written. -/
structure IsOpen (k : Connection) : Prop where
  closed : k.closed = false
  writerGone : k.writerGone = false

variable {k : Connection} {f : Frame}

theorem push_of_isOpen (hk : k.IsOpen) (bytes : Bytes) :
    k.push bytes = (true, k.queue (.frame bytes)) := by
  have hopen : ¬(k.closed = true ∨ k.writerGone = true) := by
    rintro (hclosed | hgone)
    · cases hk.closed.symm.trans hclosed
    · cases hk.writerGone.symm.trans hgone
  rw [push, if_neg hopen]

/-- An open connection queues messages behind those that wait. -/
theorem queue_of_isOpen (hk : k.IsOpen) (m : Outbound) :
    k.queue m = { k with outbox := k.outbox ++ [m] } := by
  simp [queue, hk.writerGone]

theorem sendFrame_of_fits (hk : k.IsOpen) (hf : k.codec.Fits f) :
    k.sendFrame f = (true, k.queue (.frame f.bytes)) := by
  have hbytes := Codec.frameBytes_eq_ok_iff.mpr ⟨hf, rfl⟩
  rw [sendFrame, hbytes]
  exact push_of_isOpen hk f.bytes

theorem refuse_of_fits {request : Header} {fault : Fault} (hk : k.IsOpen)
    (hf : k.codec.Fits (.fault request fault)) :
    k.refuse request fault = k.queue (.frame (Frame.fault request fault).bytes) := by
  rw [refuse, sendFault, sendFrame_of_fits hk hf]

theorem sendValue_of_fits {request : Header} {serializer : Serializer} {v : Value} (hk : k.IsOpen)
    (hv : Frame.ofValue (request.withType .normal) serializer v = .ok f) (hf : k.codec.Fits f) :
    k.sendValue request serializer v = (.ok (), k.queue (.frame f.bytes)) := by
  have hbytes := Codec.frameBytes_eq_ok_iff.mpr ⟨hf, rfl⟩
  rw [sendValue, Codec.valueBytes_eq, hv]
  dsimp only
  rw [hbytes]
  dsimp only
  rw [push_of_isOpen hk]

theorem sendValue_of_error {request : Header} {serializer : Serializer} {v : Value}
    {e : Serializer.Failure}
    (hv : Frame.ofValue (request.withType .normal) serializer v = .error e) :
    k.sendValue request serializer v = (.error e.toError, k) := by
  rw [sendValue, Codec.valueBytes_eq, hv]

end Connection

/-- However a handler ends, the answer is queued on an open connection that it fits. -/
theorem Task.reply_eq_queue {t : Task} {outcome : Outcome} {k : Connection} (hk : k.IsOpen)
    (hf : k.codec.Fits (outcome.answer t.header t.method.returnSerializer)) :
    t.reply outcome k =
      k.queue (.frame (outcome.answer t.header t.method.returnSerializer).bytes) := by
  cases outcome with
  | value v =>
    rcases hv : Frame.ofValue (t.header.withType .normal) t.method.returnSerializer v with e | f
    · rw [Outcome.answer_of_error hv] at hf ⊢
      rw [reply, Connection.sendValue_of_error hv]
      exact Connection.refuse_of_fits hk hf
    · rw [Outcome.answer_of_ok hv] at hf ⊢
      rw [reply, Connection.sendValue_of_fits hk hv hf]
  | fault fault => exact Connection.refuse_of_fits hk hf
  | panic text => exact Connection.refuse_of_fits hk hf

/-- Running a task queues its answer and does nothing else. -/
theorem Task.run_eq_queue {t : Task} {k : Connection} (hk : k.IsOpen)
    (hf : k.codec.Fits t.answer) : t.run k = k.queue (.frame t.answer.bytes) :=
  Task.reply_eq_queue hk hf

end Server

end RemoteCall
