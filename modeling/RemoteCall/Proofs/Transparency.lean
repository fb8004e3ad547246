import RemoteCall.Proofs.Client.Answers
import RemoteCall.Proofs.Server.Calls

/-!
# A remote call is like a call of the handler

A client writes a call with the serializers that it finds under the types in the description of the
method; the server reads it with those that it found under the declared types when the method was
registered, runs the handler, and answers; the client reads the answer and gives the result to the
caller. For a method whose declared types are primitive or empty both sides find the same
serializers, so the handler gets the very parameter of the caller, once, and the caller gets what
the handler made of it.

## Main definitions

* `Method.IsPlain` : the declared types of the method are primitive or empty.
* `Server.Activity.Reachable` : the states that a server comes to.

## Main results

* `Server.Activity.call_transparent` : a call from its caller to the handler and back.
-/

namespace RemoteCall

/-! ### Two lookups of a serializer -/

/-- The declared types of the method are primitive or empty, and they alone select how values are
written. -/
structure Method.IsPlain (m : Method) (serializers : Serializers) : Prop where
  parameterType : m.parameterType ∈ Serializer.plain.map Serializer.typeName
  returnType : m.returnType ∈ Serializer.plain.map Serializer.typeName
  parameterSerializer : m.parameterSerializer = serializers.resolve m.parameterType
  returnSerializer : m.returnSerializer = serializers.resolve m.returnType

/-- The method as a client knows it from its description. -/
def Method.described (m : Method) (serializers : Serializers) : Method :=
  .ofInfo m.service m.info serializers

/-- The name of a plain type means the same plain serializer to everybody. -/
theorem Serializers.Plain.resolve_eq {s s' : Serializers} (h : s.Plain) (h' : s'.Plain)
    {name : String} (hname : name ∈ Serializer.plain.map Serializer.typeName) :
    s.resolve name = s'.resolve name ∧ s.resolve name ∈ Serializer.plain := by
  obtain ⟨x, hx, rfl⟩ := List.mem_map.mp hname
  rw [h x hx, h' x hx]
  exact ⟨rfl, hx⟩

namespace Method.IsPlain

variable {m : Method} {published learned : Serializers}

/-- Client and server write and read the parameter with the same plain serializer. -/
theorem parameterSerializer_described (hm : m.IsPlain published) (hpublished : published.Plain)
    (hlearned : learned.Plain) :
    (m.described learned).parameterSerializer = m.parameterSerializer ∧
      m.parameterSerializer ∈ Serializer.plain := by
  obtain ⟨heq, hmem⟩ := hpublished.resolve_eq hlearned hm.parameterType
  rw [hm.parameterSerializer]
  exact ⟨heq.symm, hmem⟩

/-- So they do with the result. -/
theorem returnSerializer_described (hm : m.IsPlain published) (hpublished : published.Plain)
    (hlearned : learned.Plain) :
    (m.described learned).returnSerializer = m.returnSerializer ∧
      m.returnSerializer ∈ Serializer.plain := by
  obtain ⟨heq, hmem⟩ := hpublished.resolve_eq hlearned hm.returnType
  rw [hm.returnSerializer]
  exact ⟨heq.symm, hmem⟩

end Method.IsPlain

namespace Server

/-- A server reads the parameter that the frame of a request carries. -/
theorem parameterOf_ofValue {m : Method} {header : Header} {v : Value} {frame : Frame}
    (hplain : m.parameterSerializer ∈ Serializer.plain) (hobject : header.type = .object)
    (h : Frame.ofValue header m.parameterSerializer v = .ok frame) :
    parameterOf m frame = .ok v ∧ frame.header.call = header.call ∧
      (frame.header.type = .object ∨ frame.header.type = .empty) := by
  rcases Frame.ofValue_cases header m.parameterSerializer v with ⟨hempty, hframe⟩ |
    ⟨body, hvalue, hserialize, hframe⟩ | ⟨e, hvalue, hserialize, hframe⟩
  · cases hframe.symm.trans h
    cases v with
    | empty => exact ⟨rfl, rfl, Or.inr rfl⟩
    | _ => cases hempty
  · cases hframe.symm.trans h
    refine ⟨?_, rfl, Or.inl hobject⟩
    simp only [parameterOf, hobject]
    exact Serializer.deserialize_serialize hplain hserialize
  · cases hframe.symm.trans h

/-- What a client has written is read as a request with the parameter that it wrote. -/
theorem finds_request {m : Method} {published learned : Serializers} (hm : m.IsPlain published)
    (hpublished : published.Plain) (hlearned : learned.Plain) {near far : Codec}
    {request : RequestId} {v : Value} {bytes : Bytes}
    (hwritten : near.valueBytes ⟨m.service, request, m.id, .object⟩
      (m.described learned).parameterSerializer v = .ok bytes) (hsize : bytes.length ≤ far.limit) :
    ∃ frame, far.Finds bytes frame ∧ frame.header.call = ⟨m.service, request, m.id⟩ ∧
      parameterOf m frame = .ok v ∧
      (frame.header.type = .object ∨ frame.header.type = .empty) := by
  obtain ⟨hserializer, hplain⟩ := hm.parameterSerializer_described hpublished hlearned
  rw [hserializer, Codec.valueBytes_eq_ok_iff] at hwritten
  obtain ⟨frame, hframe, hnear, rfl⟩ := hwritten
  rw [Frame.length_bytes] at hsize
  obtain ⟨hparameter, hcall, htype⟩ := parameterOf_ofValue hplain rfl hframe
  exact ⟨frame, Codec.finds_of_fits ⟨hnear.body_le, hsize⟩, hcall, hparameter, htype⟩

namespace Activity

/-- The server has come to this state from one with nothing to do. -/
def Reachable (a : Activity) : Prop :=
  ∃ registry config connections moves, a = (start registry config connections).run moves

theorem Reachable.sound {a : Activity} (h : a.Reachable) : a.Sound := by
  obtain ⟨registry, config, connections, moves, rfl⟩ := h
  exact sound_run registry config connections moves

/-- A call goes from its caller to the handler and back as if the caller had called the handler.
Let the declared types of a method be plain, let a client write a call of it, and let a server that
is not stopping read the call and its executor accept it. Then the server reads the request and
queues one task for it, with the parameter of the caller. Whatever the threads of the server do from
then on, a thread that runs a task under the number of this one runs this task; when it finishes,
the handler has run on the parameter, and nothing else ever ends under this number. If the
connection is open then and the answer fits the bounds of both sides, the answer is queued on it,
the client reads it, and the call that waits for it gets what the handler made of the parameter. -/
theorem call_transparent {m : Method} {h : Handler} {published learned : Serializers}
    (hhandler : m.handler = some h) (hm : m.IsPlain published) (hpublished : published.Plain)
    (hlearned : learned.Plain) {near far : Codec} {request : RequestId} {v : Value} {bytes : Bytes}
    (hwritten : near.valueBytes ⟨m.service, request, m.id, .object⟩
      (m.described learned).parameterSerializer v = .ok bytes)
    (hsize : bytes.length ≤ far.limit) {a : Activity} (ha : a.Reachable)
    (hserving : a.server.stopping = false)
    (hmethod : a.server.registry.method? m.service m.id = some m) {i : ExecutorIndex}
    (hexecutor : a.server.groups.index? (m.service, m.id) = some i) {e : Executor}
    (he : a.server.executors[i]? = some e) {c : ConnectionId} (haccepts : e.Accepts c) :
    ∃ frame,
      let call : CallRef := ⟨m.service, request, m.id⟩
      let t : Task := (Task.new frame.header m v c).numbered a.server.taken
      let answer : Frame := (h.run v).answer frame.header m.returnSerializer
      far.Finds bytes frame ∧ frame.header.call = call ∧
        (a.dispatch c frame).server = a.server.dispatch c frame ∧
        (∃ e', (a.server.dispatch c frame).executors[i]? = some e' ∧
          e'.queue.tasks = e.queue.tasks ++ [t]) ∧
        (a.server.dispatch c frame).endings = a.server.endings ∧
        ∀ moves j w u,
          let b := (a.dispatch c frame).run moves
          b.server.stage? j w = some (.running u) → u.serial = t.serial →
          u.original = t ∧ (b.server.canFinish u = true →
            let d := b.step (.thread j w .finish)
            (∀ moves', ((d.run moves').server.endings.filter fun x =>
              x.task.serial == t.serial) = [.ran u]) ∧
            ∀ k, b.server.connections.get? c = some k → k.IsOpen → k.codec = far →
              far.Fits answer → near.Fits answer →
              d.server.connections.get? c =
                some { k with outbox := k.outbox ++ [.frame answer.bytes] } ∧
              near.Finds answer.bytes answer ∧
              ∀ p waiting, Pending.call? p request = some waiting →
                waiting.serializer = (m.described learned).returnSerializer →
                p.resolve answer = (true, { p with
                  calls := p.calls.filter fun other => other.id != request
                  settled := (waiting.ticket,
                    .delivered ((h.run v).result call m.returnSerializer)) :: p.settled })) := by
  obtain ⟨frame, hfinds, hcall, hparameter, htype⟩ :=
    finds_request hm hpublished hlearned hwritten hsize
  refine ⟨frame, ?_⟩
  intro call t answer
  have hservice : frame.header.service = m.service := congrArg CallRef.service hcall
  have hid : frame.header.method = m.id := congrArg CallRef.method hcall
  have htask : a.server.taskOf c frame = .ok (i, t) := by
    refine taskOf_eq ?_ ?_ hparameter
    · rw [hservice, hid, hmethod]
    · rw [hservice, hid, hexecutor]
  obtain ⟨e', he', htasks, hendings⟩ := dispatch_of_accepts htype hserving htask he haccepts
  obtain ⟨hdispatch, -⟩ := a.dispatch_eq c frame
  refine ⟨hfinds, hcall, hdispatch, ⟨e', he', htasks⟩, hendings, ?_⟩
  intro moves j w u b hstage hserial
  have hsound : b.Sound := (ha.sound.run _).run moves
  have hmade : t ∈ b.arrivals :=
    (arrivals_run _ moves).subset (mem_arrivals_dispatch htype hserving htask)
  refine ⟨hsound.original_eq hmade (mem_tasks_of_running hstage) hserial, ?_⟩
  intro hcan d
  refine ⟨?_, ?_⟩
  · intro moves'
    rw [← hserial]
    exact hsound.endings_finish hstage hcan moves'
  · intro k hk hopen hcodec hfar hnear
    have hanswer : t.answer = answer := by
      show (m.invoke v).answer frame.header m.returnSerializer = answer
      rw [Method.invoke, hhandler]
    refine ⟨?_, Codec.finds_of_fits hnear, ?_⟩
    · rw [← hanswer]
      refine hsound.get?_finish hmade hstage hserial hcan hk hopen ?_
      rw [hcodec, hanswer]
      exact hfar
    · intro p waiting hwaiting hserializer
      obtain ⟨hsame, hplain⟩ := hm.returnSerializer_described hpublished hlearned
      have hrequest : answer.header.request = request :=
        congrArg CallRef.request ((Outcome.call_answer _ _ _).trans hcall)
      have hresult : Pending.resultOf waiting.serializer answer =
          (h.run v).result call m.returnSerializer := by
        rw [hserializer, hsame, Pending.resultOf_answer hplain hnear.body_le, hcall]
      rw [← hrequest] at hwaiting
      rw [Pending.resolve_eq hwaiting, hresult, hrequest]

/-- A method that gives back its integer. -/
def echoInt : Method :=
  .ofSignature 1 1 { Signature.ofName "echo" with parameterType := "int", returnType := "int" }
    (some .echo) .standard

/-- A server of this method, with one connection. -/
def echoStart : Activity :=
  start ⟨[{ Service.new "echo" (.v4 0 0) with id := 1, methods := [echoInt] }], false⟩ ⟨100, 3⟩
    [.new 1 (.v4 0 0) .standard]

/-- The frame that calls the method with five, as request seven. -/
def echoFive : Frame :=
  ⟨⟨1, 7, 1, .object⟩, [0, 0, 0, 5]⟩

/-- The caller of five gets five: the one thread of the server takes the call, runs it and answers,
and the answer goes to the call that waits. -/
theorem call_transparent_five :
    ∃ frame, Codec.standard.Finds echoFive.bytes frame ∧
      let b := (echoStart.dispatch 1 frame).run [.thread 0 0 .take, .thread 0 0 .begin]
      let answer := (Outcome.value (.int 5)).answer frame.header (.primitive .int)
      ((b.step (.thread 0 0 .finish)).server.connections.get? 1).map Connection.outbox =
          some [.frame answer.bytes] ∧
        Codec.standard.Finds answer.bytes answer ∧
        ((⟨[⟨7, 0, .primitive .int⟩], [], 1⟩ : Pending).resolve answer).2.settled =
          [(0, .delivered (.ok (.int 5)))] := by
  have hreachable : echoStart.Reachable := ⟨_, _, _, [], rfl⟩
  have hplain : echoInt.IsPlain .standard := ⟨by decide, by decide, rfl, rfl⟩
  have hwritten : Codec.standard.valueBytes ⟨echoInt.service, 7, echoInt.id, .object⟩
      (echoInt.described .standard).parameterSerializer (.int 5) = .ok echoFive.bytes := rfl
  have hsize : echoFive.bytes.length ≤ Codec.standard.limit := by decide
  have hmethod : echoStart.server.registry.method? echoInt.service echoInt.id = some echoInt := rfl
  have hexecutor : echoStart.server.groups.index? (echoInt.service, echoInt.id) = some 0 := rfl
  have haccepts : Executor.Accepts (.new "1.echo" .single) 1 := ⟨rfl, rfl⟩
  obtain ⟨frame, hfinds, -, -, -, -, hruns⟩ :=
    call_transparent rfl hplain Serializers.plain_standard Serializers.plain_standard hwritten hsize
      hreachable rfl hmethod hexecutor rfl haccepts
  -- A stream of these bytes alone has one frame, which can be computed.
  obtain rfl : echoFive = frame := by
    have hread := hfinds [echoFive.bytes] [] rfl
    have hfound : ((FrameReader.new .standard).receiveAll [echoFive.bytes]).1 =
        [.ok echoFive] := rfl
    rw [hfound] at hread
    exact Except.ok.inj (List.cons.inj hread).1
  obtain ⟨-, hfinish⟩ := hruns [.thread 0 0 .take, .thread 0 0 .begin] 0 0 _ rfl rfl
  obtain ⟨-, hanswers⟩ := hfinish rfl
  obtain ⟨houtbox, hanswer, hresolve⟩ := hanswers _ rfl ⟨rfl, rfl⟩ rfl (by decide) (by decide)
  have hdelivered := hresolve ⟨[⟨7, 0, .primitive .int⟩], [], 1⟩ ⟨7, 0, .primitive .int⟩ rfl rfl
  refine ⟨echoFive, hfinds, ?_, hanswer, ?_⟩
  · rw [houtbox]
    rfl
  · exact congrArg (fun r => r.2.settled) hdelivered

end Activity

end Server

end RemoteCall
