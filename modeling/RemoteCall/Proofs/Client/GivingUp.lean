import RemoteCall.Proofs.Client.Attempts
import RemoteCall.Proofs.Client.Endings

/-!
# Calls that give up

A call without a connection gives up when it has paused for a whole call timeout once for each of
its retries and once more. It counts the pauses that it makes, not the time that passes, so it gives
up if its pauses add up to a call timeout, and after a number of attempts that follows from the
settings. Empty pauses never add up to a timeout that is not empty: then only an answer, a failure
or requests that get no answer end the call.

Attempts that meet a busy server cost a pause and nothing else, and are left out of the count.

## Main definitions

* `ClientConfig.PausesAddUp` : the pauses of a call add up to a call timeout.
* `ClientConfig.attemptBound` : so many attempts make a call give up.
* `Attempt.upTo` : the first of an endless sequence of outcomes.

## Main results

* `CallProgress.Course.countP_not_isBusy_lt` : a call that goes on has made fewer attempts.
* `calls_give_up` : when calls end, whatever the outcomes of their attempts are.
* `calls_without_pause_go_on` : a call without a connection that never ends.
-/

namespace RemoteCall

variable {config : ClientConfig}

/-! ### How long a call can go on -/

namespace ClientConfig

/-- The pauses of a call for a connection add up to a call timeout. -/
def PausesAddUp (config : ClientConfig) : Prop :=
  0 < config.unwritablePauseMs ∨ config.callTimeoutMs = 0

instance (config : ClientConfig) : Decidable config.PausesAddUp :=
  inferInstanceAs (Decidable (_ ∨ _))

/-- The number of pauses that add up to a call timeout. -/
def pausesPerTimeout (config : ClientConfig) : Nat :=
  (config.callTimeoutMs + config.unwritablePauseMs - 1) / config.unwritablePauseMs

/-- So many attempts that do not meet a busy server make a call give up: for each retry, and once
more, the pauses of a call timeout and one attempt after them. -/
def attemptBound (config : ClientConfig) : Nat :=
  (config.maxRetries + 1) * (config.pausesPerTimeout + 1)

/-- There is another pause as long as the pauses have not added up. -/
theorem lt_pausesPerTimeout (h : config.PausesAddUp) {count : Nat}
    (hshort : count * config.unwritablePauseMs < config.callTimeoutMs) :
    count < config.pausesPerTimeout := by
  have hpause : 0 < config.unwritablePauseMs := by
    rcases h with h | h
    · exact h
    · omega
  rw [pausesPerTimeout, Nat.lt_div_iff_mul_lt hpause]
  omega

theorem pausesPerTimeout_le (config : ClientConfig) :
    config.pausesPerTimeout ≤ config.callTimeoutMs := by
  rcases Nat.eq_zero_or_pos config.unwritablePauseMs with hpause | hpause
  · rw [pausesPerTimeout, hpause, Nat.div_zero]
    exact Nat.zero_le _
  · have hle : config.callTimeoutMs ≤ config.unwritablePauseMs * config.callTimeoutMs :=
      Nat.le_mul_of_pos_left _ hpause
    refine Nat.le_of_lt_succ (Nat.div_lt_of_lt_mul ?_)
    rw [Nat.mul_succ]
    omega

end ClientConfig

namespace Attempt

/-- The server answered that it is busy. -/
def isBusy : Attempt → Bool
  | busy _ => true
  | _ => false

/-- The first so many of these outcomes, the last one first. -/
def upTo (outcomes : Nat → Attempt) : Nat → List Attempt
  | 0 => []
  | n + 1 => outcomes n :: upTo outcomes n

theorem length_upTo (outcomes : Nat → Attempt) (n : Nat) : (upTo outcomes n).length = n := by
  induction n with
  | zero => rfl
  | succ n ih => rw [upTo, List.length_cons, ih]

theorem mem_upTo {outcomes : Nat → Attempt} {n : Nat} {a : Attempt} (h : a ∈ upTo outcomes n) :
    ∃ i, a = outcomes i := by
  induction n with
  | zero => cases h
  | succ n ih =>
    rcases List.mem_cons.mp h with rfl | h
    · exact ⟨n, rfl⟩
    · exact ih h

end Attempt

namespace CallProgress

open Attempt

/-- The attempts that did not meet a busy server are paid for: by the retries that are used up, each
with all its pauses, and by the pauses since. -/
def Paid (config : ClientConfig) (tried : List Attempt) (p : CallProgress) : Prop :=
  ∃ count ≤ config.pausesPerTimeout, p.pausedMs = count * config.unwritablePauseMs ∧
    (tried.countP fun a => !a.isBusy) ≤ p.retries * (config.pausesPerTimeout + 1) + count

/-- A retry pays for one attempt more than there are pauses. -/
theorem again_of_retry {p q : CallProgress} {request : RequestId} {pauseMs : Nat}
    (h : p.retry config request = .again pauseMs q) : q = { p with retries := p.retries + 1 } := by
  rw [retry] at h
  split at h <;> cases h
  rfl

/-- An attempt after which the call goes on is paid for. -/
theorem Paid.after (hconfig : config.PausesAddUp) {tried : List Attempt} {p q : CallProgress}
    {pauseMs : Nat} (h : Paid config tried p) {a : Attempt}
    (hafter : p.after config a = .again pauseMs q) : Paid config (a :: tried) q := by
  obtain ⟨count, hcount, hpaused, hpaid⟩ := h
  have hretry : (p.retries + 1) * (config.pausesPerTimeout + 1) =
      p.retries * (config.pausesPerTimeout + 1) + config.pausesPerTimeout + 1 := by
    rw [Nat.succ_mul, Nat.add_assoc]
  cases a with
  | done v => cases hafter
  | failed e => cases hafter
  | busy e =>
    cases hafter
    exact ⟨count, hcount, hpaused, hpaid⟩
  | unanswered request connected =>
    obtain rfl := again_of_retry hafter
    refine ⟨count, hcount, hpaused, ?_⟩
    rw [List.countP_cons_of_pos rfl, hretry]
    omega
  | unwritable =>
    rw [CallProgress.after] at hafter
    split at hafter
    · rename_i hshort
      cases hafter
      rw [hpaused] at hshort
      refine ⟨count + 1, ClientConfig.lt_pausesPerTimeout hconfig hshort, ?_, ?_⟩
      · rw [Nat.succ_mul, ← hpaused]
      · rw [List.countP_cons_of_pos rfl]
        exact Nat.succ_le_succ hpaid
    · obtain rfl := again_of_retry hafter
      refine ⟨0, Nat.zero_le _, (Nat.zero_mul _).symm, ?_⟩
      rw [List.countP_cons_of_pos rfl, hretry]
      omega

namespace Course

variable {tried : List Attempt} {step : CallStep}

theorem paid (hconfig : config.PausesAddUp) (h : Course config tried step) :
    ∀ pauseMs p, step = .again pauseMs p → Paid config tried p := by
  induction h with
  | start =>
    rintro _ _ ⟨⟩
    exact ⟨0, Nat.zero_le _, (Nat.zero_mul _).symm, Nat.zero_le _⟩
  | attempt h a ih => exact fun pauseMs q hafter => (ih _ _ rfl).after hconfig hafter

/-- A call that goes on has made fewer attempts than make a call give up. -/
theorem countP_not_isBusy_lt (hconfig : config.PausesAddUp) {pauseMs : Nat} {p : CallProgress}
    (h : Course config tried (.again pauseMs p)) :
    (tried.countP fun a => !a.isBusy) < config.attemptBound := by
  obtain ⟨count, hcount, -, hpaid⟩ := h.paid hconfig _ _ rfl
  have hretries : p.retries * (config.pausesPerTimeout + 1) ≤
      config.maxRetries * (config.pausesPerTimeout + 1) :=
    Nat.mul_le_mul_right _ h.counts.retries_le
  rw [ClientConfig.attemptBound, Nat.succ_mul]
  omega

theorem countP_not_isBusy_le (hconfig : config.PausesAddUp) (h : Course config tried step) :
    (tried.countP fun a => !a.isBusy) ≤ config.attemptBound := by
  cases h with
  | start => exact Nat.zero_le _
  | attempt h a =>
    have hlt := h.countP_not_isBusy_lt hconfig
    rw [List.countP_cons]
    split <;> omega

/-- After any number of outcomes of an endless sequence the call goes on, or it has ended. -/
theorem upTo (config : ClientConfig) (outcomes : Nat → Attempt) (n : Nat) :
    (∃ pauseMs p, Course config (upTo outcomes n) (.again pauseMs p)) ∨
      ∃ k ≤ n, ∃ result, Course config (Attempt.upTo outcomes k) (.finished result) := by
  induction n with
  | zero => exact Or.inl ⟨_, _, .start⟩
  | succ n ih =>
    rcases ih with ⟨pauseMs, p, h⟩ | ⟨k, hk, hended⟩
    · have hnext := h.attempt (outcomes n)
      cases hafter : p.after config (outcomes n) with
      | again pauseMs q => exact Or.inl ⟨_, _, hafter ▸ hnext⟩
      | finished result => exact Or.inr ⟨n + 1, Nat.le_refl _, result, hafter ▸ hnext⟩
    · exact Or.inr ⟨k, Nat.le_succ_of_le hk, hended⟩

/-- A call whose pauses add up ends. -/
theorem exists_finished (hconfig : config.PausesAddUp) {outcomes : Nat → Attempt}
    (h : ∀ n, (outcomes n).isBusy = false) :
    ∃ n ≤ config.attemptBound, ∃ result,
      Course config (Attempt.upTo outcomes n) (.finished result) := by
  rcases upTo config outcomes config.attemptBound with ⟨pauseMs, p, hcourse⟩ | hended
  · have hlt := hcourse.countP_not_isBusy_lt hconfig
    have hall : ((Attempt.upTo outcomes config.attemptBound).countP fun a => !a.isBusy) =
        config.attemptBound := by
      refine (List.countP_eq_length.mpr fun a ha => ?_).trans (length_upTo _ _)
      obtain ⟨i, rfl⟩ := mem_upTo ha
      rw [h i]
      rfl
    exact absurd hlt (by rw [hall]; exact Nat.lt_irrefl _)
  · exact hended

end Course

/-! ### Empty pauses -/

/-- Empty pauses never add up to a timeout that is not empty, -/
theorem pauses_of_not_pausesAddUp (hconfig : ¬config.PausesAddUp) (tried : List Attempt) :
    pauses config tried = 0 := by
  have hpause : config.unwritablePauseMs = 0 := by
    rw [ClientConfig.PausesAddUp] at hconfig
    omega
  induction tried with
  | nil => rfl
  | cons a earlier ih =>
    cases a with
    | unwritable =>
      rw [pauses, ih, hpause]
      exact ite_self _
    | _ => exact ih

/-- so only requests without an answer use up retries. -/
theorem used_of_not_pausesAddUp (hconfig : ¬config.PausesAddUp) (tried : List Attempt) :
    used config tried = tried.countP isUnanswered := by
  induction tried with
  | nil => rfl
  | cons a earlier ih =>
    rw [used, ih, List.countP_cons]
    cases a with
    | unwritable =>
      have htimeout : ¬config.callTimeoutMs ≤ 0 := by
        rw [ClientConfig.PausesAddUp] at hconfig
        omega
      rw [consumes, pauses_of_not_pausesAddUp hconfig, decide_eq_false htimeout]
      rfl
    | _ => rfl

/-- A call with empty pauses ends by a result, by a failure, or by more requests without an answer
than it has retries. -/
theorem Course.exists_finished_iff (hconfig : ¬config.PausesAddUp) (outcomes : Nat → Attempt) :
    (∃ n result, Course config (Attempt.upTo outcomes n) (.finished result)) ↔
      ∃ n, (∃ v, outcomes n = .done v) ∨ (∃ e, outcomes n = .failed e) ∨
        config.maxRetries < (Attempt.upTo outcomes n).countP isUnanswered := by
  constructor
  · rintro ⟨n, result, h⟩
    obtain ⟨a, earlier, htried, hends⟩ := (h.finished_iff result).mp rfl
    cases n with
    | zero => cases htried
    | succ n =>
      cases hends with
      | done v => exact ⟨n, Or.inl ⟨v, (List.cons.inj htried).1⟩⟩
      | failed e => exact ⟨n, Or.inr (Or.inl ⟨e, (List.cons.inj htried).1⟩)⟩
      | exhausted hconsumes hused =>
        rw [used_of_not_pausesAddUp hconfig, ← htried] at hused
        exact ⟨n + 1, Or.inr (Or.inr (Nat.lt_of_succ_le (Nat.le_of_eq hused.symm)))⟩
  · rintro ⟨n, hn⟩
    have hlast {a : Attempt} {result : Except Error Value} (ha : outcomes n = a)
        (hends : Ends config (Attempt.upTo outcomes n) a result) :
        ∃ n result, Course config (Attempt.upTo outcomes n) (.finished result) := by
      rcases upTo config outcomes (n + 1) with ⟨pauseMs, p, h⟩ | ⟨k, -, result, h⟩
      · exact absurd ((h.finished_iff result).mpr ⟨_, _, rfl, ha ▸ hends⟩) (by rintro ⟨⟩)
      · exact ⟨k, result, h⟩
    rcases hn with ⟨v, hdone⟩ | ⟨e, hfailed⟩ | hcount
    · exact hlast hdone (.done v)
    · exact hlast hfailed (.failed e)
    · rcases upTo config outcomes n with ⟨pauseMs, p, h⟩ | ⟨k, -, result, h⟩
      · have hle := h.counts.retries_le
        rw [h.counts.retries_eq, used_of_not_pausesAddUp hconfig] at hle
        exact absurd hcount (Nat.not_lt.mpr hle)
      · exact ⟨k, result, h⟩

end CallProgress

/-! ### Calls of a client -/

namespace Client

open Attempt (upTo)
open CallProgress (Course)

/-- An attempt that comes to its end at once does not meet a busy server, and a request that was
sent waits for its answer. -/
theorem begin_cases (c : Client) (p : PoolId) (m : Method) (parameter : Value) :
    (c.begin p m parameter).2.config = c.config ∧
      match (c.begin p m parameter).1 with
      | .over a => a.isBusy = false
      | .sent s => (c.begin p m parameter).2.pending.status s.ticket = .waiting := by
  have hconfig := c.config_nextId
  rw [begin]
  generalize c.nextId = next at hconfig
  obtain ⟨request, c'⟩ := next
  dsimp only at hconfig ⊢
  split
  · exact ⟨hconfig, rfl⟩
  split
  · exact ⟨hconfig, rfl⟩
  split
  · exact ⟨hconfig, rfl⟩
  split
  · exact ⟨hconfig, rfl⟩
  split
  · exact ⟨hconfig, rfl⟩
  · refine ⟨hconfig, Pending.status_eq_waiting_iff.mpr ⟨⟨request, _, m.returnSerializer⟩, ?_, rfl⟩⟩
    exact List.mem_append_right _ List.mem_cons_self

/-- Where no server answers, none answers that it is busy. -/
theorem isBusy_attempt (c : Client) (p : PoolId) (m : Method) (parameter : Value) :
    (c.attempt none p m parameter).2.config = c.config ∧
      (c.attempt none p m parameter).1.isBusy = false := by
  obtain ⟨hconfig, hbegun⟩ := c.begin_cases p m parameter
  rw [attempt]
  rcases hbegin : c.begin p m parameter with ⟨_ | s, c'⟩
  · rw [hbegin] at hconfig hbegun
    exact ⟨hconfig, hbegun⟩
  · rw [hbegin] at hconfig hbegun
    dsimp only at hconfig hbegun ⊢
    have hstatus : (c'.elapse none c'.config.callTimeoutMs).pending.status s.ticket = .waiting :=
      hbegun
    rw [hstatus]
    exact ⟨hconfig, rfl⟩

/-- Enough attempts bring a call whose pauses add up to its end. -/
theorem invokeUpTo_isSome (p : PoolId) (m : Method) (parameter : Value) (fuel : Nat)
    {progress : CallProgress} {c : Client} {tried : List Attempt} {pauseMs : Nat}
    (hconfig : c.config.PausesAddUp) (h : Course c.config tried (.again pauseMs progress))
    (hbusy : ∀ a ∈ tried, a.isBusy = false) (hfuel : c.config.attemptBound ≤ fuel + tried.length) :
    (invokeUpTo none p m parameter fuel progress c).1.isSome = true := by
  -- The attempts that were made and the fuel that is left reach the bound together, at any time.
  induction fuel generalizing progress c tried pauseMs with
  | zero =>
    have hlt := h.countP_not_isBusy_lt hconfig
    have hall : (tried.countP fun a => !a.isBusy) = tried.length :=
      List.countP_eq_length.mpr fun a ha => by rw [hbusy a ha]; rfl
    omega
  | succ fuel ih =>
    obtain ⟨hkept, hoften⟩ := c.isBusy_attempt p m parameter
    rw [invokeUpTo]
    split
    · rfl
    rcases hattempt : c.attempt none p m parameter with ⟨a, c'⟩
    rw [hattempt] at hkept hoften
    dsimp only at hkept hoften ⊢
    have hnext := h.attempt a
    rw [← hkept] at hnext hconfig hfuel
    cases hafter : progress.after c'.config a with
    | finished result => rfl
    | again pauseMs q =>
      rw [hafter] at hnext
      refine @ih q (c'.elapse none pauseMs) (a :: tried) pauseMs hconfig hnext ?_ ?_
      · exact List.forall_mem_cons.mpr ⟨hoften, hbusy⟩
      · rw [List.length_cons, ← Nat.add_assoc, Nat.add_right_comm]
        exact hfuel

/-- The number of attempts that a call is allowed is enough. -/
theorem call_isSome {c : Client} (hconfig : c.config.PausesAddUp) (s : Session) (method : String)
    (parameter : Value) : (c.call none s method parameter).1.isSome = true := by
  rw [call]
  split
  · rfl
  · refine invokeUpTo_isSome _ _ _ _ hconfig .start (List.forall_mem_nil _) ?_
    refine Nat.mul_le_mul_left _ (Nat.le_succ_of_le (Nat.succ_le_succ ?_))
    exact c.config.pausesPerTimeout_le

/-- A call at work has made at most as many attempts as make it give up, and then it is over. -/
theorem Invoking.Follows.gives_up {tried : List Tried} {drawn : List RequestId} {s : Invoking}
    (hconfig : config.PausesAddUp) (h : s.Follows config tried drawn) :
    (tried.countP fun t => !t.outcome.isBusy) ≤ config.attemptBound ∧
      ((tried.countP fun t => !t.outcome.isBusy) = config.attemptBound →
        ∃ result, s = .returned result) := by
  obtain ⟨⟨step, hcourse, hstands⟩, -, -⟩ := h
  have hcount : ((tried.map Tried.outcome).countP fun a => !a.isBusy) =
      tried.countP fun t => !t.outcome.isBusy := List.countP_map
  refine ⟨hcount ▸ hcourse.countP_not_isBusy_le hconfig, fun hall => ?_⟩
  cases hstands with
  | underway hs pauseMs =>
    have hlt := hcourse.countP_not_isBusy_lt hconfig
    rw [hcount, hall] at hlt
    exact absurd hlt (Nat.lt_irrefl _)
  | returned result => exact ⟨result, rfl⟩

/-- A call whose pauses add up to a call timeout gives up. Of every endless sequence of outcomes
without a busy server it makes at most as many attempts as the settings say; in every run of a
client that does not stop, however its tasks take turns, so does every call, not counting the
attempts that met a busy server, and with the last of them it has returned; and a call on a client
that no server answers returns. If the pauses of a call do not add up, it ends by a result, by a
failure or by more requests without an answer than it has retries, and by nothing else. -/
theorem calls_give_up (config : ClientConfig) (serializers : Serializers)
    (directory : Option Directory) (worker : UInt64) (moves : List Move)
    (hstopping : ((Activity.start config serializers directory worker).run
      moves).client.stopping = false) :
    let s := (Calling.start config serializers directory worker).run moves
    let paid (k : TaskId) := (entries k s.tried).countP fun t => !t.outcome.isBusy
    (config.PausesAddUp →
      (∀ outcomes, (∀ n, (outcomes n).isBusy = false) → ∃ n ≤ config.attemptBound,
          ∃ result, Course config (upTo outcomes n) (.finished result)) ∧
        (∀ k p m parameter stage, s.activity.tasks[k]? = some (.invoke p m parameter stage) →
          paid k ≤ config.attemptBound ∧
            (paid k = config.attemptBound → ∃ result, stage = .returned result)) ∧
        ∀ (c : Client) session method parameter, c.config = config →
          (c.call none session method parameter).1.isSome = true) ∧
    (¬config.PausesAddUp → ∀ outcomes,
      (∃ n result, Course config (upTo outcomes n) (.finished result)) ↔
        ∃ n, (∃ v, outcomes n = .done v) ∨ (∃ e, outcomes n = .failed e) ∨
          config.maxRetries < (upTo outcomes n).countP Attempt.isUnanswered) := by
  intro s paid
  refine ⟨fun hconfig => ⟨fun outcomes => Course.exists_finished hconfig, ?_, ?_⟩,
    Course.exists_finished_iff⟩
  · intro k p m parameter stage hk
    have hsound : s.Sound config :=
      Calling.sound_run (Calling.sound_start config serializers directory worker) moves
    have hactivity : s.activity = (Activity.start config serializers directory worker).run moves :=
      Calling.activity_run _ moves
    rw [← hactivity] at hstopping
    have hlogged := hsound.logged hstopping k
    rw [Activity.stage?, hk] at hlogged
    exact hlogged.gives_up hconfig
  · rintro c session method parameter rfl
    exact call_isSome hconfig session method parameter

/-- A call with one retry and one pause in each timeout gives up after four attempts. -/
theorem calls_give_up_after_four :
    let s := (Calling.start Calling.oneRetry .standard none 1).run Calling.callInVain
    Calling.oneRetry.attemptBound = 4 ∧ (entries 0 s.tried).length = 4 ∧
      ∃ p m parameter result,
        s.activity.tasks[0]? = some (.invoke p m parameter (.returned result)) := by
  intro s
  have hstopping : ((Activity.start Calling.oneRetry .standard none 1).run
    Calling.callInVain).client.stopping = false := by decide +kernel
  obtain ⟨hends, -⟩ := calls_give_up Calling.oneRetry .standard none 1 Calling.callInVain hstopping
  obtain ⟨-, hruns, -⟩ := hends (Or.inl (by decide))
  have htask : ∃ p m parameter stage,
      s.activity.tasks[0]? = some (.invoke p m parameter stage) := ⟨_, _, _, _, rfl⟩
  obtain ⟨p, m, parameter, stage, htask⟩ := htask
  obtain ⟨result, rfl⟩ := (hruns 0 p m parameter stage htask).2 (by decide +kernel)
  exact ⟨by decide, by decide +kernel, p, m, parameter, result, htask⟩

/-! ### A call that never ends -/

/-- A client whose calls do not pause. -/
def withoutPause : ClientConfig :=
  { ClientConfig.standard with unwritablePauseMs := 0 }

/-- A call that begins. -/
def beginning : Invoking :=
  .asking .start

/-- A client that has no connection and does not pause makes one attempt after another, each of them
without a connection, and the call never ends. -/
theorem calls_without_pause_go_on :
    (∀ n result, ¬Course withoutPause (upTo (fun _ => .unwritable) n) (.finished result)) ∧
      ∀ count,
        let s := (Calling.start withoutPause .standard none 1).run (callWithoutPause count)
        s.activity.client.stopping = false ∧
          (entries 0 s.tried).map Tried.outcome = List.replicate count .unwritable ∧
          s.activity.tasks =
            [.invoke 0 (.ofInfo 1 ⟨"ping", "N/A", "N/A", 1⟩ .standard) .empty beginning] := by
  constructor
  · intro n result h
    have hconfig : ¬withoutPause.PausesAddUp := by decide
    obtain ⟨i, ⟨v, hdone⟩ | ⟨e, hfailed⟩ | hcount⟩ :=
      (Course.exists_finished_iff hconfig fun _ => .unwritable).mp ⟨n, result, h⟩
    · cases hdone
    · cases hfailed
    · refine absurd hcount (Nat.not_lt.mpr (Nat.le_trans (Nat.le_of_eq ?_) (Nat.zero_le _)))
      refine List.countP_eq_zero.mpr fun a ha => ?_
      obtain ⟨-, rfl⟩ := Attempt.mem_upTo ha
      exact Bool.false_ne_true
  · intro count
    -- Each attempt brings the call back to where it began.
    have hbegun := Calling.inVain_start withoutPause (.ofInfo 1 ⟨"ping", "N/A", "N/A", 1⟩ .standard)
      .empty
    have hall := Calling.InVain.run (fun _ => .start) hbegun count fun _ _ => ⟨0, rfl⟩
    exact ⟨hall.stopping, hall.tried, hall.tasks⟩

end Client

end RemoteCall
