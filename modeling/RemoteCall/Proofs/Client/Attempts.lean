import RemoteCall.Proofs.Client.Budget
import RemoteCall.Proofs.Client.Numbering

/-!
# Attempts of calls at work

A call is one of the tasks of a client, and everything else goes on between any two of its steps. An
attempt begins when the call draws a request id and ends at one of the three places where the call
learns its outcome. What the calls of a client have drawn and tried is taken down beside the client,
the last first; it shows that a call keeps to the course of its attempts whatever happens around it,
and that each attempt has a request id of its own.

## Main definitions

* `Invoking.tried?` : the attempt that a step of a call ends.
* `Invoking.Advance` : all that a step makes of a call.
* `Calling` : a client at work, with the ids that its calls drew and the attempts that are over.
* `Calling.InVain` : a call of a client without connections.

## Main results

* `Invoking.advance_next` : every step of a call is one of those of `Invoking.Advance`.
* `Calling.sound_run` : the invariant of a run.
* `Calling.InVain.run` : a call without a connection goes on as its counters say.
* `Calling.calls_within_budget` : calls keep to their budgets and do not share request ids.
* `Calling.attempts_wrap_around` : a call that is given up and names no attempt.
-/

namespace RemoteCall.Client

open CallProgress (Course WithinBudget)

/-! ### One call -/

/-- An attempt that is over, and the request that it was made as. -/
structure Tried where
  request : RequestId
  outcome : Attempt

namespace Invoking

/-- What a call that is not over goes on with. -/
def progress? : Invoking → Option CallProgress
  | asking progress | allowed progress => some progress
  | picked progress _ _ _ | registered progress _ _ => some progress
  | tracked progress _ _ | waiting progress _ => some progress
  | returned _ => none

/-- The request of the attempt that is underway. -/
def request? : Invoking → Option RequestId
  | picked _ request _ _ => some request
  | registered _ s _ | tracked _ s _ | waiting _ s => some s.request
  | asking _ | allowed _ | returned _ => none

/-- The attempt that the next step of the call ends: no connection takes a frame or the parameter
cannot be written, the connection does not take the frame after all, or the wait for an answer is
over. -/
def tried? (c : Client) (p : PoolId) (m : Method) (parameter : Value) (timedOut : Bool) :
    Invoking → Option Tried
  | allowed _ =>
    let (request, c) := c.nextId
    match c.writable? p request with
    | none => some ⟨request, .unwritable⟩
    | some _ =>
      let h : Header := ⟨m.service, request, m.id, .object⟩
      match c.codec.valueBytes h m.parameterSerializer parameter with
      | .error e =>
        some ⟨request, .failed (.rpc ⟨.clientSerializerError, e.message⟩ (some h.call))⟩
      | .ok _ => none
  | tracked _ s frame =>
    match (c.link? s.link).bind fun link => link.send? frame with
    | some _ => none
    | none => some ⟨s.request, .unwritable⟩
  | waiting _ s =>
    if timedOut then some ⟨s.request, (c.finish s .timedOut).1⟩
    else
      match c.pending.status s.ticket with
      | .waiting => none
      | .settled (.delivered r) => some ⟨s.request, (c.finish s (.answered r)).1⟩
      | .settled .dropped | .unknown => some ⟨s.request, (c.finish s .dropped).1⟩
  | _ => none

/-- What a step makes of a call, with the ids that it draws and the attempt that it ends. -/
inductive Advance (c : Client) (s : Invoking) : Invoking → List RequestId → Option Tried → Prop
  /-- An attempt ends, and an outcome without an answer names its request. -/
  | tried {progress : CallProgress} {drawn : List RequestId} {request : RequestId} {a : Attempt}
    (hs : s.progress? = some progress) (hrequest : drawn ++ s.request?.toList = [request])
    (hnamed : ∀ lost connected, a = .unanswered lost connected → lost = request) :
    Advance c s (after c progress a) drawn (some ⟨request, a⟩)
  /-- The attempt goes on, or another one begins. -/
  | underway {s' : Invoking} {progress : CallProgress} {drawn : List RequestId}
    (hs : s.progress? = some progress) (hs' : s'.progress? = some progress)
    (hrequest : s'.request?.toList = drawn ++ s.request?.toList) : Advance c s s' drawn none
  /-- The call is over. -/
  | ended {result : Except Error Value} (hs : s = returned result) : Advance c s s [] none
  | stopping (hs : s.request? = none) (hstopping : c.stopping = true) :
    Advance c s (returned (.error stoppingError)) [] none

theorem after_eq_of_config {c c' : Client} (h : c'.config = c.config) (progress : CallProgress)
    (a : Attempt) : after c' progress a = after c progress a := by
  rw [after, after, h]

/-- An attempt that ends without an answer is the one that was sent. -/
theorem request_of_finish {c : Client} {s : Sent} {how : Waited} {request : RequestId}
    {connected : Bool} (h : (c.finish s how).1 = .unanswered request connected) :
    request = s.request := by
  cases how with
  | answered result =>
    cases result with
    | ok v => cases h
    | error e =>
      rw [finish] at h
      dsimp only at h
      split at h <;> cases h
  | dropped =>
    rw [finish] at h
    dsimp only at h
    split at h <;> cases h
    rfl
  | timedOut =>
    cases h
    rfl

/-- A wait that is over ends the attempt that was sent. -/
theorem advance_finish (c : Client) (progress : CallProgress) (s : Sent) (how : Waited) :
    Advance c (waiting progress s) (after (c.finish s how).2 progress (c.finish s how).1) []
      (some ⟨s.request, (c.finish s how).1⟩) := by
  have hconfig : (c.finish s how).2.config = c.config :=
    congrArg Numbering.config (c.numbering_finish s how)
  rw [after_eq_of_config hconfig]
  exact .tried rfl rfl fun lost connected => request_of_finish

/-- Every step of a call is one of those of `Advance`. -/
theorem advance_next (c : Client) (p : PoolId) (m : Method) (parameter : Value) (timedOut : Bool)
    (s : Invoking) :
    Advance c s (s.next c p m parameter timedOut).1 (s.drawn? c).toList
      (s.tried? c p m parameter timedOut) := by
  cases s with
  | asking progress =>
    rw [next]
    split
    · rename_i hstopping
      exact .stopping rfl hstopping
    · exact .underway rfl rfl rfl
  | allowed progress =>
    have hafter := after_eq_of_config c.config_nextId progress
    change Advance c (allowed progress) _ [c.nextId.1] _
    rw [next, tried?]
    dsimp only
    cases c.nextId.2.writable? p c.nextId.1 with
    | none =>
      dsimp only
      rw [hafter]
      exact .tried rfl rfl (by rintro _ _ ⟨⟩)
    | some l =>
      dsimp only
      cases c.nextId.2.codec.valueBytes ⟨m.service, c.nextId.1, m.id, .object⟩
        m.parameterSerializer parameter with
      | error e =>
        dsimp only
        rw [hafter]
        exact .tried rfl rfl (by rintro _ _ ⟨⟩)
      | ok frame => exact .underway rfl rfl rfl
  | picked progress request l frame => exact .underway rfl rfl rfl
  | registered progress s frame => exact .underway rfl rfl rfl
  | tracked progress s frame =>
    change Advance c (tracked progress s frame) _ [] _
    rw [next, tried?]
    cases (c.link? s.link).bind fun link => link.send? frame with
    | none => exact .tried rfl rfl (by rintro _ _ ⟨⟩)
    | some link => exact .underway rfl rfl rfl
  | waiting progress s =>
    rw [next, tried?]
    cases timedOut with
    | true => exact advance_finish c progress s .timedOut
    | false =>
      rw [if_neg Bool.false_ne_true, if_neg Bool.false_ne_true]
      cases c.pending.status s.ticket with
      | waiting => exact .underway rfl rfl rfl
      | unknown => exact advance_finish c progress s .dropped
      | settled how =>
        cases how with
        | delivered r => exact advance_finish c progress s (.answered r)
        | dropped => exact advance_finish c progress s .dropped
  | returned result => exact .ended rfl

/-- What follows the attempts of a call, as far as the call has come. -/
inductive Stands : Invoking → CallStep → Prop
  | underway {s : Invoking} {progress : CallProgress} (h : s.progress? = some progress)
    (pauseMs : Nat) : Stands s (.again pauseMs progress)
  | returned (result : Except Error Value) : Stands (returned result) (.finished result)

theorem stands_after (c : Client) (progress : CallProgress) (a : Attempt) :
    (after c progress a).Stands (progress.after c.config a) := by
  rw [after]
  cases progress.after c.config a with
  | finished result => exact .returned result
  | again pauseMs progress => exact .underway rfl pauseMs

theorem request?_after (c : Client) (progress : CallProgress) (a : Attempt) :
    (after c progress a).request? = none := by
  rw [after]
  cases progress.after c.config a <;> rfl

/-- A step of a call draws the request of an attempt that it ends or goes on with. -/
theorem Advance.requests {c : Client} {s s' : Invoking} {drawn : List RequestId} {t : Option Tried}
    (h : Advance c s s' drawn t) :
    s'.request?.toList ++ t.toList.map Tried.request = drawn ++ s.request?.toList := by
  cases h with
  | tried hs hrequest hnamed =>
    rw [request?_after, hrequest]
    rfl
  | underway hs hs' hrequest =>
    rw [hrequest]
    exact List.append_nil _
  | ended hs =>
    subst hs
    rfl
  | stopping hs hstopping =>
    rw [hs]
    rfl

/-- A call has tried these attempts and drawn these ids, the last of them first. -/
structure Follows (config : ClientConfig) (tried : List Tried) (drawn : List RequestId)
    (s : Invoking) : Prop where
  course : ∃ step, Course config (tried.map Tried.outcome) step ∧ s.Stands step
  requests : s.request?.toList ++ tried.map Tried.request = drawn
  named : ∀ t ∈ tried, ∀ request connected, t.outcome = .unanswered request connected →
    request = t.request

/-- A call that begins has tried nothing. -/
theorem follows_start (config : ClientConfig) : (asking .start).Follows config [] [] where
  course := ⟨_, .start, .underway rfl 0⟩
  requests := rfl
  named := List.forall_mem_nil _

/-- A step of a call keeps to the course of its attempts, unless the client stops. -/
theorem Follows.advance {c : Client} {s s' : Invoking} {tried : List Tried}
    {drawn new : List RequestId} {t : Option Tried} (h : s.Follows c.config tried drawn)
    (hadvance : Advance c s s' new t) (hstopping : c.stopping = false) :
    s'.Follows c.config (t.toList ++ tried) (new ++ drawn) := by
  obtain ⟨⟨step, hcourse, hstands⟩, hrequests, hnamed⟩ := h
  have hrequests' : s'.request?.toList ++ (t.toList ++ tried).map Tried.request = new ++ drawn := by
    rw [List.map_append, ← List.append_assoc, hadvance.requests, List.append_assoc, hrequests]
  cases hadvance with
  | @tried progress _ request a hs hrequest hname =>
    obtain ⟨pauseMs, rfl⟩ : ∃ pauseMs, step = .again pauseMs progress := by
      cases hstands with
      | underway hprogress pauseMs =>
        obtain rfl := Option.some.inj (hprogress.symm.trans hs)
        exact ⟨pauseMs, rfl⟩
      | returned result => cases hs
    exact ⟨⟨_, hcourse.attempt a, stands_after c progress a⟩, hrequests',
      List.forall_mem_cons.2 ⟨hname, hnamed⟩⟩
  | underway hs hs' hrequest =>
    refine ⟨⟨step, hcourse, ?_⟩, hrequests', hnamed⟩
    cases hstands with
    | underway hprogress pauseMs =>
      obtain rfl := Option.some.inj (hprogress.symm.trans hs)
      exact .underway hs' pauseMs
    | returned result => cases hs
  | ended hs => exact ⟨⟨step, hcourse, hstands⟩, hrequests', hnamed⟩
  | stopping hs hstopped =>
    rw [hstopped] at hstopping
    cases hstopping

end Invoking

/-! ### Calls among other tasks -/

/-- How far the call has come, if the task is one. -/
def Task.stage? : Task → Option Invoking
  | invoke _ _ _ s => some s
  | _ => none

theorem Task.stage?_eq_some {t : Task} {s : Invoking} (h : t.stage? = some s) :
    ∃ p m parameter, t = .invoke p m parameter s := by
  cases t with
  | invoke p m parameter s =>
    cases h
    exact ⟨p, m, parameter, rfl⟩
  | _ => cases h

theorem Task.stage?_eq_none_of_job {t u : Task} (h : t.job = u.job) (hu : u.stage? = none) :
    t.stage? = none := by
  cases t with
  | invoke p m parameter s =>
    cases u with
    | invoke p m parameter s => cases hu
    | _ => cases h
  | _ => rfl

namespace Activity

variable (a : Activity)

/-- How far the call of this number has come. -/
def stage? (k : TaskId) : Option Invoking :=
  a.tasks[k]?.bind Task.stage?

/-- The attempt that a move ends, and its call. -/
def tried? : Move → Option (TaskId × Tried)
  | .task k luck =>
    match a.tasks[k]? with
    | some (.invoke p m parameter s) =>
      (s.tried? a.client p m parameter (!luck)).map fun t => (k, t)
    | _ => none
  | _ => none

variable {a : Activity} {k : TaskId} {t : Task} {e : Effect}

/-- A step of a task that is no call leaves the calls alone. -/
theorem stage?_perform (ht : a.tasks[k]? = some t) (hstage : t.stage? = none)
    (htask : e.task.stage? = none) (hbegun : ∀ u ∈ e.begun, u.stage? = none) (i : TaskId) :
    (a.perform k e).stage? i = a.stage? i := by
  have hk := (List.getElem?_eq_some_iff.mp ht).1
  rw [stage?, stage?, Activity.perform]
  rcases Nat.lt_or_ge i a.tasks.length with hi | hi
  · rw [List.getElem?_append_left (by rwa [List.length_set])]
    by_cases hik : k = i
    · subst hik
      rw [List.getElem?_set_self hk, ht]
      exact htask.trans hstage.symm
    · rw [List.getElem?_set_ne hik]
  · rw [List.getElem?_append_right (by rwa [List.length_set]), List.getElem?_eq_none hi]
    cases hu : e.begun[i - (a.tasks.set k e.task).length]? with
    | none => rfl
    | some u => exact hbegun u (List.mem_of_getElem? hu)

/-- A task that is begun may be a call. -/
theorem stage?_begin (a : Activity) (t : Task) (i : TaskId) :
    (a.begin t).stage? i = a.stage? i ∨ a.stage? i = none ∧ (a.begin t).stage? i = t.stage? := by
  rw [stage?, stage?, Activity.begin]
  rcases Nat.lt_trichotomy i a.tasks.length with hi | rfl | hi
  · exact Or.inl (by rw [List.getElem?_append_left hi])
  · refine Or.inr ⟨by rw [List.getElem?_eq_none (Nat.le_refl _)]; rfl, ?_⟩
    rw [List.getElem?_concat_length]
    rfl
  · left
    rw [List.getElem?_eq_none (Nat.le_of_lt hi), List.getElem?_eq_none]
    rw [List.length_append, List.length_singleton]
    exact hi

/-- A task that is begun and is no call leaves the calls alone. -/
theorem stage?_begin_of_none {b : Activity} (hb : b.tasks = a.tasks) (ht : t.stage? = none)
    (i : TaskId) : (b.begin t).stage? i = a.stage? i := by
  have hsame : b.stage? i = a.stage? i := by rw [stage?, hb, stage?]
  rcases b.stage?_begin t i with h | ⟨hnone, hnew⟩
  · exact h.trans hsame
  · rw [hnew, ht, ← hnone, hsame]

theorem stage?_eq_none_of_isFresh {u : Task} (h : IsFresh u) : u.stage? = none := by
  cases u with
  | invoke p m parameter s => exact h.elim
  | _ => rfl

/-- All that a move does to the calls: one of them makes a step, or one may begin. -/
theorem stage?_step (a : Activity) (m : Move) :
    (∃ k luck p method parameter s, a.stage? k = some s ∧
        a.drawn? m = (s.drawn? a.client).map (fun id => (k, id)) ∧
        a.tried? m = (s.tried? a.client p method parameter (!luck)).map (fun t => (k, t)) ∧
        (a.step m).stage? k = some (s.next a.client p method parameter (!luck)).1 ∧
        ∀ i, i ≠ k → (a.step m).stage? i = a.stage? i) ∨
      a.drawn? m = none ∧ a.tried? m = none ∧ ∀ i, (a.step m).stage? i = a.stage? i ∨
        a.stage? i = none ∧ (a.step m).stage? i = some (.asking .start) := by
  cases m with
  | task k luck =>
    rw [step, drawn?, tried?]
    cases ht : a.tasks[k]? with
    | none => exact Or.inr ⟨rfl, rfl, fun i => Or.inl rfl⟩
    | some t =>
      cases hstage : t.stage? with
      | none =>
        have htask := Task.stage?_eq_none_of_job (a.job_act luck t) hstage
        have hkept := stage?_perform ht hstage htask fun u hu =>
          stage?_eq_none_of_isFresh (a.isFresh_begun luck t u hu)
        refine Or.inr ⟨?_, ?_, fun i => Or.inl (hkept i)⟩
        · cases t with
          | invoke p m parameter s => cases hstage
          | _ => rfl
        · cases t with
          | invoke p m parameter s => cases hstage
          | _ => rfl
      | some s =>
        obtain ⟨p, m, parameter, rfl⟩ := Task.stage?_eq_some hstage
        have hk := (List.getElem?_eq_some_iff.mp ht).1
        refine Or.inl ⟨k, luck, p, m, parameter, s, by rw [stage?, ht]; rfl, rfl, rfl, ?_, ?_⟩
        · change ((a.tasks.set k _ ++ [])[k]?).bind Task.stage? = _
          rw [List.append_nil, List.getElem?_set_self hk]
          rfl
        · intro i hi
          change ((a.tasks.set k _ ++ [])[i]?).bind Task.stage? = _
          rw [List.append_nil, List.getElem?_set_ne hi.symm]
          rfl
  | invoke p m parameter => exact Or.inr ⟨rfl, rfl, a.stage?_begin _⟩
  | connect service location =>
    exact Or.inr ⟨rfl, rfl, fun i => Or.inl (stage?_begin_of_none rfl rfl i)⟩
  | shutdown => exact Or.inr ⟨rfl, rfl, fun i => Or.inl (stage?_begin_of_none rfl rfl i)⟩
  | shutdownPool p => exact Or.inr ⟨rfl, rfl, fun i => Or.inl (stage?_begin_of_none rfl rfl i)⟩
  | frame l frame =>
    refine Or.inr ⟨rfl, rfl, fun i => Or.inl ?_⟩
    rw [step, receive]
    split
    · rfl
    · split
      · exact stage?_begin_of_none rfl rfl i
      · rfl
  | lose l =>
    refine Or.inr ⟨rfl, rfl, fun i => Or.inl ?_⟩
    rw [step, lose]
    split
    · exact stage?_begin_of_none rfl rfl i
    · rfl
  | wake n =>
    refine Or.inr ⟨rfl, rfl, fun i => Or.inl ?_⟩
    rw [step, wake]
    split
    · rfl
    · dsimp only
      split
      · rfl
      · exact stage?_begin_of_none rfl rfl i
  | abort k =>
    refine Or.inr ⟨rfl, rfl, fun i => Or.inl ?_⟩
    rw [step, Activity.abort]
    split
    · rename_i ht
      split
      · exact stage?_perform ht rfl rfl (List.forall_mem_nil _) i
      · rfl
    · rfl
  | _ => exact Or.inr ⟨rfl, rfl, fun i => Or.inl rfl⟩

end Activity

/-! ### Calls at work -/

/-- The entries of a call in a log of all calls. -/
def entries {α : Type} (k : TaskId) (log : List (TaskId × α)) : List α :=
  log.filterMap fun entry => if entry.1 = k then some entry.2 else none

theorem entries_append {α : Type} (k : TaskId) (log log' : List (TaskId × α)) :
    entries k (log ++ log') = entries k log ++ entries k log' :=
  List.filterMap_append

/-- What a call adds to the log is an entry of this call, -/
theorem entries_self {α : Type} (k : TaskId) (x : Option α) (log : List (TaskId × α)) :
    entries k ((x.map fun x => (k, x)).toList ++ log) = x.toList ++ entries k log := by
  rw [entries_append]
  cases x <;> simp [entries]

/-- and of no other. -/
theorem entries_of_ne {α : Type} {k i : TaskId} (h : i ≠ k) (x : Option α)
    (log : List (TaskId × α)) :
    entries i ((x.map fun x => (k, x)).toList ++ log) = entries i log := by
  rw [entries_append]
  cases x <;> simp [entries, h.symm]

/-- How a call goes on with what follows an attempt. -/
def Invoking.ofStep : CallStep → Invoking
  | .finished result => .returned result
  | .again _ progress => .asking progress

theorem Invoking.after_eq_ofStep (c : Client) (progress : CallProgress) (a : Attempt) :
    Invoking.after c progress a = .ofStep (progress.after c.config a) := by
  rw [Invoking.after]
  cases progress.after c.config a <;> rfl

theorem pools_nextId (c : Client) : c.nextId.2.pools = c.pools := by
  rw [nextId]
  split <;> rfl

theorem stopping_nextId (c : Client) : c.nextId.2.stopping = c.stopping := by
  rw [nextId]
  split <;> rfl

/-- A client without pools has no connection for an attempt. -/
theorem next_without_pool (c : Client) (m : Method) (parameter : Value) (hpools : c.pools = [])
    (progress : CallProgress) :
    Invoking.next c 0 m parameter false (.allowed progress) =
        (.ofStep (progress.after c.config .unwritable), c.nextId.2) ∧
      Invoking.tried? c 0 m parameter false (.allowed progress) =
        some ⟨c.nextId.1, .unwritable⟩ := by
  have hnone : c.nextId.2.writable? 0 c.nextId.1 = none := by
    rw [writable?, ring, pool?, pools_nextId, hpools]
    rfl
  have hafter : Invoking.after c.nextId.2 progress .unwritable =
      .ofStep (progress.after c.config .unwritable) := by
    rw [Invoking.after_eq_ofStep, config_nextId]
  rw [Invoking.next, Invoking.tried?]
  dsimp only
  rw [hnone]
  exact ⟨congrArg (·, c.nextId.2) hafter, rfl⟩

/-- A call that makes so many attempts for which there is no connection. -/
def callWithoutPause (count : Nat) : List Move :=
  .invoke 0 (.ofInfo 1 ⟨"ping", "N/A", "N/A", 1⟩ .standard) .empty ::
    (List.replicate count [.task 0 true, .task 0 true]).flatten

/-- A client at work, with the ids that its calls have drawn and the attempts that are over, the
last of them first. -/
structure Calling where
  activity : Activity
  drawn : List (TaskId × RequestId)
  tried : List (TaskId × Tried)

namespace Calling

/-- A client that was not asked for anything yet. -/
def start (config : ClientConfig) (serializers : Serializers) (directory : Option Directory)
    (worker : UInt64) : Calling :=
  ⟨.start config serializers directory worker, [], []⟩

/-- Makes a move and takes down what it draws and ends. -/
def step (s : Calling) (m : Move) : Calling :=
  { activity := s.activity.step m
    drawn := (s.activity.drawn? m).toList ++ s.drawn
    tried := (s.activity.tried? m).toList ++ s.tried }

/-- Makes moves one after another. -/
def run (s : Calling) (moves : List Move) : Calling :=
  moves.foldl step s

theorem run_append (s : Calling) (moves moves' : List Move) :
    s.run (moves ++ moves') = (s.run moves).run moves' :=
  List.foldl_append

/-- What is taken down changes nothing. -/
theorem activity_run (s : Calling) (moves : List Move) :
    (s.run moves).activity = s.activity.run moves := by
  induction moves generalizing s with
  | nil => rfl
  | cons m moves ih => exact ih (s.step m)

/-- The log of a call as far as it has come, and the empty log of one that has not begun. -/
def Logged (config : ClientConfig) (tried : List Tried) (drawn : List RequestId) :
    Option Invoking → Prop
  | some stage => stage.Follows config tried drawn
  | none => tried = [] ∧ drawn = []

/-- The invariant of a run. While the client does not stop, every call follows its log; while the
clock is within its bits, the ids were issued in order. -/
structure Sound (config : ClientConfig) (s : Calling) : Prop where
  config_eq : s.activity.client.config = config
  logged : s.activity.client.stopping = false → ∀ k,
    Logged config (entries k s.tried) (entries k s.drawn) (s.activity.stage? k)
  issued : s.activity.client.nowMs + 1 < 2 ^ 42 →
    s.activity.client.numbering.Issued (s.drawn.map Prod.snd)

theorem sound_start (config : ClientConfig) (serializers : Serializers)
    (directory : Option Directory) (worker : UInt64) :
    (start config serializers directory worker).Sound config where
  config_eq := rfl
  logged _ k := ⟨rfl, rfl⟩
  issued _ :=
    { worker_lt := by
        change (worker &&& RequestId.maxWorker).toNat < _
        rw [RequestId.toNat_and_maxWorker]
        exact Nat.mod_lt _ (by decide)
      sequence_lt := Nat.two_pow_pos 10
      last_le := Nat.zero_le 1
      decreasing := .nil
      le_latest := List.forall_mem_nil _ }

variable {config : ClientConfig} {s : Calling}

/-- Every move keeps the ids in order. -/
theorem Sound.issued_step (h : s.Sound config) (m : Move)
    (hbound : (s.step m).activity.client.nowMs + 1 < 2 ^ 42) :
    (s.step m).activity.client.numbering.Issued ((s.step m).drawn.map Prod.snd) := by
  rcases s.activity.numbering_step m with ⟨k, hdrawn, hnumbering⟩ | ⟨hdrawn, ms, hnumbering⟩
  · have hnow : (s.step m).activity.client.nowMs = s.activity.client.nextId.2.nowMs :=
      congrArg Numbering.nowMs hnumbering
    have hle := s.activity.client.nowMs_le_nextId
    have hbefore : s.activity.client.nowMs + 1 < 2 ^ 42 := by omega
    have hissued := (h.issued hbefore).nextId hbefore
    rw [← hnumbering] at hissued
    rwa [step, hdrawn]
  · have hnow : (s.step m).activity.client.nowMs = s.activity.client.nowMs + ms :=
      congrArg Numbering.nowMs hnumbering
    have hissued := (h.issued (by omega)).elapse ms
    rw [step, hdrawn]
    exact hnumbering ▸ hissued

/-- No move changes the settings. -/
theorem Sound.config_step (h : s.Sound config) (m : Move) :
    (s.step m).activity.client.config = config := by
  rcases s.activity.numbering_step m with ⟨k, -, hnumbering⟩ | ⟨-, ms, hnumbering⟩
  · have hdrawn := congrArg Numbering.config hnumbering
    exact hdrawn.trans (s.activity.client.config_nextId.trans h.config_eq)
  · exact (congrArg Numbering.config hnumbering).trans h.config_eq

/-- Every move keeps the calls to their logs, unless the client stops. -/
theorem Sound.logged_step (h : s.Sound config) (hstopping : s.activity.client.stopping = false)
    (m : Move) (i : TaskId) :
    Logged config (entries i (s.step m).tried) (entries i (s.step m).drawn)
      ((s.step m).activity.stage? i) := by
  have hlogged := h.logged hstopping i
  rw [step]
  rcases s.activity.stage?_step m with
    ⟨k, luck, p, method, parameter, stage, hstage, hdrawn, htried, hnext, hothers⟩ |
    ⟨hdrawn, htried, hothers⟩
  · rw [hdrawn, htried]
    by_cases hik : i = k
    · subst hik
      rw [hstage, ← h.config_eq] at hlogged
      rw [entries_self, entries_self, hnext, ← h.config_eq]
      exact hlogged.advance (stage.advance_next _ p method parameter (!luck)) hstopping
    · rw [entries_of_ne hik, entries_of_ne hik, hothers i hik]
      exact hlogged
  · rw [hdrawn, htried]
    rcases hothers i with hsame | ⟨hnone, hbegun⟩
    · rwa [hsame]
    · rw [hnone] at hlogged
      obtain ⟨htried_nil, hdrawn_nil⟩ := hlogged
      change Logged config (entries i s.tried) (entries i s.drawn) _
      rw [hbegun, htried_nil, hdrawn_nil]
      exact Invoking.follows_start config

/-- Every move keeps the invariant. -/
theorem Sound.step (h : s.Sound config) (m : Move) : (s.step m).Sound config where
  config_eq := h.config_step m
  logged hafter := by
    have hsteady := Activity.steady_stepped (s.activity.stepped m)
    refine h.logged_step (Bool.eq_false_iff.2 fun hbefore => ?_) m
    exact Bool.eq_false_iff.1 hafter (hsteady.stopping hbefore)
  issued := h.issued_step m

theorem sound_run (h : s.Sound config) (moves : List Move) : (s.run moves).Sound config := by
  induction moves generalizing s with
  | nil => exact h
  | cons m moves ih => exact ih (h.step m)

/-! ### A call without a connection -/

/-- A round of moves more comes last. -/
theorem flatten_replicate_succ (moves : List Move) (count : Nat) :
    (List.replicate (count + 1) moves).flatten = (List.replicate count moves).flatten ++ moves := by
  rw [List.replicate_succ', List.flatten_concat]

/-- The only task of a client without pools is a call at this stage, which has made so many
attempts, each of them without a connection. -/
structure InVain (config : ClientConfig) (m : Method) (parameter : Value) (s : Calling)
    (stage : Invoking) (count : Nat) : Prop where
  tasks : s.activity.tasks = [.invoke 0 m parameter stage]
  pools : s.activity.client.pools = []
  stopping : s.activity.client.stopping = false
  config_eq : s.activity.client.config = config
  tried : (entries 0 s.tried).map Tried.outcome = List.replicate count .unwritable

variable {m : Method} {parameter : Value} {count : Nat}

/-- A move of the only task, which is a call. -/
theorem step_only (client : Client) (homes : List Home) (stage : Invoking)
    (drawn : List (TaskId × RequestId)) (tried : List (TaskId × Tried)) :
    step ⟨⟨client, homes, [.invoke 0 m parameter stage]⟩, drawn, tried⟩ (.task 0 true) =
      ⟨⟨(stage.next client 0 m parameter false).2, homes ++ [],
          [.invoke 0 m parameter (stage.next client 0 m parameter false).1]⟩,
        ((stage.drawn? client).map fun id => (0, id)).toList ++ drawn,
        ((stage.tried? client 0 m parameter false).map fun t => (0, t)).toList ++ tried⟩ :=
  rfl

/-- An attempt of such a call takes two moves. -/
theorem InVain.attempt {progress : CallProgress}
    (h : InVain config m parameter s (.asking progress) count) :
    InVain config m parameter (s.run [.task 0 true, .task 0 true])
      (.ofStep (progress.after config .unwritable)) (count + 1) := by
  obtain ⟨⟨client, homes, tasks⟩, drawn, tried⟩ := s
  obtain ⟨rfl, hpools, hstopping, hconfig, htried⟩ := h
  dsimp only at hpools hstopping hconfig htried
  have hasking : Invoking.next client 0 m parameter false (.asking progress) =
      (.allowed progress, client) := by
    rw [Invoking.next, hstopping]
    rfl
  obtain ⟨hnext, hended⟩ := client.next_without_pool m parameter hpools progress
  rw [run, List.foldl_cons, List.foldl_cons, List.foldl_nil, step_only, hasking, step_only, hnext,
    hended, hconfig]
  exact
    { tasks := rfl
      pools := client.pools_nextId.trans hpools
      stopping := client.stopping_nextId.trans hstopping
      config_eq := client.config_nextId.trans hconfig
      tried := congrArg (Attempt.unwritable :: ·) htried }

/-- As long as an attempt without a connection does not end the call, another one follows. -/
theorem InVain.run (progress : Nat → CallProgress)
    (h : InVain config m parameter s (.asking (progress 0)) 0) (count : Nat)
    (hgoes : ∀ k < count, ∃ pauseMs,
      (progress k).after config .unwritable = .again pauseMs (progress (k + 1))) :
    InVain config m parameter
      (s.run (List.replicate count [.task 0 true, .task 0 true]).flatten)
      (.asking (progress count)) count := by
  induction count with
  | zero => exact h
  | succ count ih =>
    obtain ⟨pauseMs, hafter⟩ := hgoes count (Nat.lt_succ_self count)
    have hnext := (ih fun k hk => hgoes k (Nat.lt_succ_of_lt hk)).attempt
    rw [hafter] at hnext
    rw [flatten_replicate_succ, run_append]
    exact hnext

theorem inVain_start (config : ClientConfig) (m : Method) (parameter : Value) :
    InVain config m parameter ((start config .standard none 1).step (.invoke 0 m parameter))
      (.asking .start) 0 :=
  ⟨rfl, rfl, rfl, rfl, rfl⟩

theorem run_callWithoutPause (s : Calling) (count : Nat) :
    s.run (callWithoutPause count) =
      (s.step (.invoke 0 (.ofInfo 1 ⟨"ping", "N/A", "N/A", 1⟩ .standard) .empty)).run
        (List.replicate count [.task 0 true, .task 0 true]).flatten :=
  rfl

/-- Where attempts wait for nothing, each of them uses up a retry, and the one for which there is
none left ends the call. -/
theorem InVain.exhausted (htimeout : config.callTimeoutMs = 0)
    (h : InVain config m parameter s (.asking .start) 0) :
    InVain config m parameter
      (s.run (List.replicate (config.maxRetries + 1) [.task 0 true, .task 0 true]).flatten)
      (.returned (.error (.retriesExhausted config.attemptsNamed 0))) (config.maxRetries + 1) := by
  have hretry (k : Nat) : (CallProgress.mk k 0).after config .unwritable =
      (CallProgress.mk k 0).retry config 0 := by
    rw [CallProgress.after, htimeout, if_neg (Nat.lt_irrefl 0)]
  have hall := InVain.run (fun k => ⟨k, 0⟩) h config.maxRetries fun k hk =>
    ⟨0, by rw [hretry, CallProgress.retry, if_neg (Nat.not_le.mpr hk)]⟩
  have hlast := hall.attempt
  rw [hretry, CallProgress.retry, if_pos (Nat.le_refl _)] at hlast
  rw [flatten_replicate_succ, run_append]
  exact hlast

/-- Whatever the outcomes of its attempts are, a call makes them within its budget, up to the one
that ends it. In every run of a client that does not stop, however its tasks take turns, each call
is where its attempts have brought it within its budget; its attempts, and the one underway, were
made as one request each out of those that it drew, the attempts without an answer as the request
that got none; and while the clock is within its bits no id was drawn twice. A call that is given up
names one attempt more than it has retries exactly if this number has 32 bits, and no attempt when
it has all the retries that 32 bits can count. -/
theorem calls_within_budget (config : ClientConfig) (serializers : Serializers)
    (directory : Option Directory) (worker : UInt64) (moves : List Move)
    (hstopping : ((Activity.start config serializers directory worker).run
      moves).client.stopping = false) :
    let s := (start config serializers directory worker).run moves
    (∀ outcomes, ∃ tried, tried <:+ outcomes ∧ ∃ step, WithinBudget config tried step ∧
        (tried = outcomes ∨ ∃ result, step = .finished result)) ∧
      (config.attemptsNamed = config.maxRetries + 1 ↔ config.maxRetries + 1 < 2 ^ 32) ∧
      (config.maxRetries + 1 = 2 ^ 32 → config.attemptsNamed = 0) ∧
      s.activity = (Activity.start config serializers directory worker).run moves ∧
      (∀ k p m parameter stage, s.activity.tasks[k]? = some (.invoke p m parameter stage) →
        (∃ step, WithinBudget config ((entries k s.tried).map Tried.outcome) step ∧
            stage.Stands step) ∧
          stage.request?.toList ++ (entries k s.tried).map Tried.request = entries k s.drawn ∧
          ∀ t ∈ entries k s.tried, ∀ request connected,
            t.outcome = .unanswered request connected → request = t.request) ∧
      (s.activity.client.nowMs + 1 < 2 ^ 42 → (s.drawn.map Prod.snd).Nodup) := by
  intro s
  have hactivity : s.activity = (Activity.start config serializers directory worker).run moves :=
    activity_run _ moves
  have hsound : s.Sound config := sound_run (sound_start config serializers directory worker) moves
  rw [← hactivity] at hstopping
  refine ⟨CallProgress.exists_withinBudget config, config.attemptsNamed_eq_iff,
    ClientConfig.attemptsNamed_eq_zero, hactivity, ?_, fun hbound => ?_⟩
  · intro k p m parameter stage hk
    have hlogged := hsound.logged hstopping k
    rw [Activity.stage?, hk] at hlogged
    obtain ⟨⟨step, hcourse, hstands⟩, hrequests, hnamed⟩ := hlogged
    exact ⟨⟨step, hcourse.withinBudget, hstands⟩, hrequests, hnamed⟩
  · refine (hsound.issued hbound).decreasing.imp fun hlt => ?_
    exact (UInt64.ne_of_lt hlt).symm

/-- A client whose calls have one retry, and one pause in each call timeout. -/
def oneRetry : ClientConfig :=
  { ClientConfig.standard with callTimeoutMs := 10, maxRetries := 1 }

/-- A call for which there is no connection makes four attempts. -/
def callInVain : List Move :=
  .invoke 0 (.ofInfo 1 ⟨"ping", "N/A", "N/A", 1⟩ .standard) .empty ::
    List.replicate 8 (.task 0 true)

/-- Every other attempt uses up a retry, and the second that does so ends the call; each attempt has
an id of its own. -/
theorem calls_within_budget_in_vain :
    ((Activity.start oneRetry .standard none 1).run callInVain).client.stopping = false ∧
      (∃ t ∈ ((start oneRetry .standard none 1).run callInVain).activity.tasks,
        t matches .invoke _ _ _ (.returned (.error (.retriesExhausted 2 0)))) ∧
      entries 0 ((start oneRetry .standard none 1).run callInVain).drawn =
        [RequestId.pack 1 1 3, RequestId.pack 1 1 2, RequestId.pack 1 1 1, RequestId.pack 1 1 0] ∧
      (((start oneRetry .standard none 1).run callInVain).drawn.map Prod.snd).Nodup := by
  have hstopping : ((Activity.start oneRetry .standard none 1).run
    callInVain).client.stopping = false := by decide +kernel
  have hclock : ((start oneRetry .standard none 1).run callInVain).activity.client.nowMs + 1 <
    2 ^ 42 := by decide +kernel
  obtain ⟨-, -, -, -, -, hfresh⟩ :=
    calls_within_budget oneRetry .standard none 1 callInVain hstopping
  refine ⟨hstopping, ?_, ?_, hfresh hclock⟩
  · decide +kernel
  · decide +kernel

/-- All the retries that 32 bits can count, and attempts that wait for nothing. -/
def everyRetry : ClientConfig :=
  { ClientConfig.standard with callTimeoutMs := 0, maxRetries := 4294967295 }

/-- With all these retries a call without a connection is given up after one attempt more, and names
no attempt. -/
theorem attempts_wrap_around :
    let s := (start everyRetry .standard none 1).run (callWithoutPause 4294967296)
    everyRetry.maxRetries + 1 = 4294967296 ∧ s.activity.client.stopping = false ∧
      (entries 0 s.tried).map Tried.outcome = List.replicate 4294967296 .unwritable ∧
      Attempt.used everyRetry (List.replicate 4294967296 .unwritable) = 4294967296 ∧
      s.activity.tasks =
        [.invoke 0 (.ofInfo 1 ⟨"ping", "N/A", "N/A", 1⟩ .standard) .empty
          (.returned (.error (.retriesExhausted 0 0)))] := by
  have hcount : everyRetry.maxRetries + 1 = 4294967296 := rfl
  have hgiven := (inVain_start everyRetry (.ofInfo 1 ⟨"ping", "N/A", "N/A", 1⟩ .standard)
    .empty).exhausted rfl
  rw [hcount, ← run_callWithoutPause, ClientConfig.attemptsNamed_eq_zero hcount] at hgiven
  exact ⟨hcount, hgiven.stopping, hgiven.tried, Attempt.used_replicate_unwritable rfl _,
    hgiven.tasks⟩

end Calling

end RemoteCall.Client
