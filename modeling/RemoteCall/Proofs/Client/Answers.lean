import RemoteCall.Client.Pending
import RemoteCall.Proofs.Compact
import RemoteCall.Proofs.Serializer
import RemoteCall.Proofs.Server.Answers

/-!
# What a caller makes of an answer

The answer to a request tells its caller how the handler ended: the value that the handler gave, the
fault that it gave, or a fault of the server when the handler broke off or its value is not of the
declared type. A call leaves the table of those that wait with this result.

## Main definitions

* `Outcome.result` : what the caller of a method gets.

## Main results

* `Pending.resultOf_answer` : an answer is read as the result that it stands for.
* `Pending.resolve_eq` : the result goes to the call that waits for it.
-/

namespace RemoteCall

/-- What the caller gets when the handler ends in this way and its values are written by this
serializer. -/
def Outcome.result (call : CallRef) (serializer : Serializer) : Outcome → Except Error Value
  | value v =>
    if v.isEmpty then .ok v
    else
      match serializer.serialize v with
      | .ok _ => .ok v
      | .error e => .error (.rpc ⟨.serializerError, e.toError.message⟩ (some call))
  | fault f => .error (.rpc f (some call))
  | panic text => .error (.rpc (Server.Task.panicFault text) (some call))

/-- The caller gets the values that a frame can carry. -/
theorem Outcome.result_value (call : CallRef) (header : Header) (serializer : Serializer)
    (v : Value) :
    (Outcome.value v).result call serializer =
      match Frame.ofValue header serializer v with
      | .ok _ => .ok v
      | .error e => .error (.rpc ⟨.serializerError, e.toError.message⟩ (some call)) := by
  rcases Frame.ofValue_cases header serializer v with ⟨hempty, h⟩ | ⟨body, hvalue, hserialize, h⟩ |
    ⟨e, hvalue, hserialize, h⟩
  · rw [h, result, if_pos hempty]
  · rw [h, result, hvalue, hserialize]
    rfl
  · rw [h, result, hvalue, hserialize]
    rfl

namespace Pending

variable {request : Header} {serializer : Serializer}

/-- A fault that fits the body of a frame is read back. -/
theorem resultOf_fault {f : Fault} (h : f.encode.length ≤ maxBodyLength) :
    resultOf serializer (.fault request f) = .error (.rpc f (some request.call)) := by
  have hmessage : (Utf8.encode f.message).length < UInt64.size := by
    have hle : (Utf8.encode f.message).length ≤ f.encode.length := by
      rw [Fault.encode, Compact.text, Compact.sized]
      simp only [List.length_append]
      omega
    exact Nat.lt_of_le_of_lt (Nat.le_trans hle h) (by decide)
  have hread := f.decode_encode hmessage
  simp only [resultOf, Frame.fault, Header.withType, hread]
  rfl

/-- A value is read back from the frame that carries it. -/
theorem resultOf_ofValue (hplain : serializer ∈ Serializer.plain) {v : Value} {f : Frame}
    (h : Frame.ofValue (request.withType .normal) serializer v = .ok f) :
    resultOf serializer f = .ok v := by
  rcases Frame.ofValue_cases (request.withType .normal) serializer v with ⟨hempty, hframe⟩ |
    ⟨body, hvalue, hserialize, hframe⟩ | ⟨e, hvalue, hserialize, hframe⟩
  · cases hframe.symm.trans h
    cases v with
    | empty => rfl
    | _ => cases hempty
  · cases hframe.symm.trans h
    have hread := Serializer.deserialize_serialize hplain hserialize
    show (serializer.deserialize body).mapError _ = _
    rw [hread]
    rfl
  · cases hframe.symm.trans h

/-- An answer is read as the result that it stands for. -/
theorem resultOf_answer (hplain : serializer ∈ Serializer.plain) {outcome : Outcome}
    (h : (outcome.answer request serializer).body.length ≤ maxBodyLength) :
    resultOf serializer (outcome.answer request serializer) =
      outcome.result request.call serializer := by
  cases outcome with
  | value v =>
    rw [Outcome.result_value request.call (request.withType .normal)]
    rcases hframe : Frame.ofValue (request.withType .normal) serializer v with e | f
    · rw [Outcome.answer_of_error hframe] at h ⊢
      exact resultOf_fault h
    · rw [Outcome.answer_of_ok hframe]
      exact resultOf_ofValue hplain hframe
  | fault f => exact resultOf_fault h
  | panic text => exact resultOf_fault h

/-- The result goes to the call that waits for it, and to no other one. -/
theorem resolve_eq {p : Pending} {frame : Frame} {k : PendingCall}
    (h : p.call? frame.header.request = some k) :
    p.resolve frame =
      (true, { p with
        calls := p.calls.filter fun other => other.id != frame.header.request
        settled := (k.ticket, .delivered (resultOf k.serializer frame)) :: p.settled }) := by
  rw [resolve, settle, h]

end Pending

end RemoteCall
