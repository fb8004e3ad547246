import Mathlib.Algebra.Group.Nat.Defs
import RemoteCall.Client.Retry

/-!
# The budget of a call

A call goes on with the retries that it used up and the pauses since the last time that they added
up to a call timeout. What it does depends on the attempts before only through these two, and they
can be told from the attempts: an attempt without an answer uses up a retry, and so does one that
could not be sent when the pauses had already added up. The attempt that uses up one retry more than
there are is the last.

Attempts are listed with the last one first, so that the ones before an attempt are the rest of the
list.

The attempts are counted in 32 bits when a call is given up. With as many retries as these can hold
there is one attempt more, and none is named.

## Main definitions

* `CallProgress.Course` : what follows the attempts of a call.
* `ClientConfig.attemptsNamed` : the number of attempts that a call names when it is given up.
* `Attempt.consumes`, `Attempt.used` : the attempts that use up a retry, and how many do.
* `Attempt.Ends` : the attempts that end a call, and its result.
* `CallProgress.WithinBudget` : what a call does with its retries.

## Main results

* `CallProgress.Course.counts` : what a call goes on with.
* `CallProgress.Course.finished_iff` : when a call ends, and how.
* `CallProgress.exists_withinBudget` : every list of outcomes is met by a call up to its end.
-/

namespace RemoteCall

variable {config : ClientConfig}

/-! ### What attempts cost -/

namespace ClientConfig

/-- The number of attempts that a call names when it is given up. -/
def attemptsNamed (config : ClientConfig) : Nat :=
  (config.maxRetries + 1) % CallProgress.attemptsModulus

/-- It is one more than there are retries, as long as this number has 32 bits. -/
theorem attemptsNamed_eq_iff (config : ClientConfig) :
    config.attemptsNamed = config.maxRetries + 1 ↔ config.maxRetries + 1 < 2 ^ 32 :=
  Nat.mod_eq_iff_lt (Nat.succ_ne_zero _)

theorem attemptsNamed_eq_zero (h : config.maxRetries + 1 = 2 ^ 32) : config.attemptsNamed = 0 := by
  rw [attemptsNamed, h]
  exact Nat.mod_self _

end ClientConfig

namespace Attempt

/-- The attempt was sent and got no answer. -/
def isUnanswered : Attempt → Bool
  | unanswered _ _ => true
  | _ => false

/-- The request that got no answer, or zero when nothing was sent. -/
def lostRequest : Attempt → RequestId
  | unanswered request _ => request
  | _ => 0

/-- The pauses for a connection after these attempts, since they last added up to a call timeout. -/
def pauses (config : ClientConfig) : List Attempt → Nat
  | [] => 0
  | unwritable :: earlier =>
    if config.callTimeoutMs ≤ pauses config earlier then 0
    else pauses config earlier + config.unwritablePauseMs
  | _ :: earlier => pauses config earlier

/-- The attempt uses up a retry when these were made before. -/
def consumes (config : ClientConfig) (earlier : List Attempt) : Attempt → Bool
  | unanswered _ _ => true
  | unwritable => config.callTimeoutMs ≤ pauses config earlier
  | done _ | busy _ | failed _ => false

/-- The number of attempts that used up a retry. -/
def used (config : ClientConfig) : List Attempt → Nat
  | [] => 0
  | a :: earlier => used config earlier + (a.consumes config earlier).toNat

/-- The attempt ends the call with this result when these were made before. -/
inductive Ends (config : ClientConfig) (earlier : List Attempt) : Attempt → Except Error Value → Prop
  | done (v : Value) : Ends config earlier (.done v) (.ok v)
  | failed (e : Error) : Ends config earlier (.failed e) (.error e)
  /-- It uses up one retry more than there are. -/
  | exhausted {a : Attempt} (hconsumes : a.consumes config earlier = true)
    (hused : used config (a :: earlier) = config.maxRetries + 1) :
    Ends config earlier a (.error (.retriesExhausted config.attemptsNamed a.lostRequest))

/-- An attempt ends a call in one way. -/
theorem Ends.unique {earlier : List Attempt} {a : Attempt} {result result' : Except Error Value}
    (h : Ends config earlier a result) (h' : Ends config earlier a result') : result = result' := by
  cases h with
  | done v =>
    cases h' with
    | done v => rfl
    | exhausted hconsumes hused => cases hconsumes
  | failed e =>
    cases h' with
    | failed e => rfl
    | exhausted hconsumes hused => cases hconsumes
  | exhausted hconsumes hused =>
    cases h' with
    | done v => cases hconsumes
    | failed e => cases hconsumes
    | exhausted => rfl

/-- Where an attempt waits for nothing, each one that could not be sent uses up a retry. -/
theorem used_replicate_unwritable (htimeout : config.callTimeoutMs = 0) (count : Nat) :
    used config (List.replicate count unwritable) = count := by
  induction count with
  | zero => rfl
  | succ count ih =>
    have hconsumes : unwritable.consumes config (List.replicate count unwritable) = true :=
      decide_eq_true (htimeout ▸ Nat.zero_le _)
    rw [List.replicate_succ, used, ih, hconsumes]
    rfl

/-- Every attempt without an answer uses up a retry. -/
theorem countP_isUnanswered_le (config : ClientConfig) (tried : List Attempt) :
    tried.countP isUnanswered ≤ used config tried := by
  induction tried with
  | nil => exact Nat.le_refl 0
  | cons a earlier ih =>
    rw [List.countP_cons, used]
    cases a with
    | unanswered request connected => exact Nat.add_le_add_right ih 1
    | _ => exact Nat.le_add_right_of_le ih

end Attempt

/-! ### The course of a call -/

namespace CallProgress

open Attempt

/-- The attempts of a call, the last one first, and what follows them. No attempt follows the one
that ends the call. -/
inductive Course (config : ClientConfig) : List Attempt → CallStep → Prop
  | start : Course config [] (.again 0 .start)
  | attempt {tried : List Attempt} {pauseMs : Nat} {p : CallProgress}
    (h : Course config tried (.again pauseMs p)) (a : Attempt) :
    Course config (a :: tried) (p.after config a)

/-- The counters tell what the attempts have cost, and there is a retry left or none is needed. -/
structure Counts (config : ClientConfig) (tried : List Attempt) (p : CallProgress) : Prop where
  retries_eq : p.retries = used config tried
  pausedMs_eq : p.pausedMs = pauses config tried
  retries_le : p.retries ≤ config.maxRetries

/-- A retry is used up or the call ends, as the budget says. -/
theorem Counts.retry {earlier : List Attempt} {p : CallProgress} (h : Counts config earlier p)
    (a : Attempt) (hconsumes : a.consumes config earlier = true) (pausedMs : Nat)
    (hpaused : pausedMs = pauses config (a :: earlier)) :
    (∃ result, Ends config earlier a result ∧
        { p with pausedMs }.retry config a.lostRequest = .finished result) ∨
      (∀ result, ¬Ends config earlier a result) ∧ ∃ q, Counts config (a :: earlier) q ∧
        { p with pausedMs }.retry config a.lostRequest = .again 0 q := by
  have hused : used config (a :: earlier) = p.retries + 1 := by
    rw [used, hconsumes, h.retries_eq]
    rfl
  have hle := h.retries_le
  rw [CallProgress.retry]
  dsimp only
  by_cases hlast : config.maxRetries ≤ p.retries
  · have hretries : p.retries = config.maxRetries := Nat.le_antisymm hle hlast
    rw [if_pos hlast, hretries]
    exact Or.inl ⟨_, .exhausted hconsumes (by rw [hused, hretries]), rfl⟩
  · rw [if_neg hlast]
    refine Or.inr ⟨fun result hends => ?_, _, ⟨hused.symm, hpaused, by dsimp only; omega⟩, rfl⟩
    cases hends with
    | done v => cases hconsumes
    | failed e => cases hconsumes
    | exhausted _ hexhausted =>
      rw [hused] at hexhausted
      omega

/-- An attempt ends the call or the counters go on. -/
theorem Counts.after {earlier : List Attempt} {p : CallProgress} (h : Counts config earlier p)
    (a : Attempt) :
    (∃ result, Ends config earlier a result ∧ p.after config a = .finished result) ∨
      (∀ result, ¬Ends config earlier a result) ∧ ∃ pauseMs q, Counts config (a :: earlier) q ∧
        p.after config a = .again pauseMs q := by
  cases a with
  | done v => exact Or.inl ⟨_, .done v, rfl⟩
  | failed e => exact Or.inl ⟨_, .failed e, rfl⟩
  | busy e =>
    refine Or.inr ⟨fun result hends => ?_, _, p, ⟨h.retries_eq, h.pausedMs_eq, h.retries_le⟩, rfl⟩
    cases hends with
    | exhausted hconsumes hused => cases hconsumes
  | unanswered request connected =>
    rcases h.retry (.unanswered request connected) rfl _ h.pausedMs_eq with hends | ⟨hnot, q, hq⟩
    · exact Or.inl hends
    · exact Or.inr ⟨hnot, _, q, hq⟩
  | unwritable =>
    have hpaused := h.pausedMs_eq
    rw [CallProgress.after]
    by_cases hshort : p.pausedMs < config.callTimeoutMs
    · have hlt : ¬config.callTimeoutMs ≤ pauses config earlier := by omega
      have hconsumes : Attempt.unwritable.consumes config earlier = false := decide_eq_false hlt
      rw [if_pos hshort]
      refine Or.inr ⟨fun result hends => ?_, _, { p with pausedMs := p.pausedMs +
        config.unwritablePauseMs }, ⟨?_, ?_, h.retries_le⟩, rfl⟩
      · cases hends with
        | exhausted hconsumed hused => exact absurd (hconsumes ▸ hconsumed) (by decide)
      · rw [used, hconsumes, ← h.retries_eq]
        rfl
      · rw [pauses, if_neg hlt, hpaused]
    · have hle : config.callTimeoutMs ≤ pauses config earlier := by omega
      rw [if_neg hshort]
      rcases h.retry .unwritable (decide_eq_true hle) 0 (by rw [pauses, if_pos hle]) with
        hends | ⟨hnot, q, hq⟩
      · exact Or.inl hends
      · exact Or.inr ⟨hnot, _, q, hq⟩

namespace Course

variable {tried : List Attempt} {step : CallStep}

/-- A call that goes on has counted what its attempts have cost. -/
theorem counts_or_finished (h : Course config tried step) :
    (∃ pauseMs p, step = .again pauseMs p ∧ Counts config tried p) ∨
      ∃ result, step = .finished result := by
  induction h with
  | start => exact Or.inl ⟨_, _, rfl, rfl, rfl, Nat.zero_le _⟩
  | attempt h a ih =>
    rcases ih with ⟨_, _, ⟨⟩, hcounts⟩ | ⟨_, ⟨⟩⟩
    rcases hcounts.after a with ⟨result, -, hafter⟩ | ⟨-, pauseMs, q, hq, hafter⟩
    · exact Or.inr ⟨result, hafter⟩
    · exact Or.inl ⟨pauseMs, q, hafter, hq⟩

theorem counts {pauseMs : Nat} {p : CallProgress} (h : Course config tried (.again pauseMs p)) :
    Counts config tried p := by
  rcases h.counts_or_finished with ⟨_, _, ⟨⟩, hcounts⟩ | ⟨_, ⟨⟩⟩
  exact hcounts

/-- A call ends at the first attempt that ends it, with the result of this attempt. -/
theorem finished_iff (h : Course config tried step) (result : Except Error Value) :
    step = .finished result ↔ ∃ a earlier, tried = a :: earlier ∧ Ends config earlier a result := by
  cases h with
  | start =>
    constructor
    · rintro ⟨⟩
    · rintro ⟨_, _, ⟨⟩, -⟩
  | @attempt earlier _ p h a =>
    rcases h.counts.after a with ⟨result', hends, hafter⟩ | ⟨hnot, pauseMs, q, -, hafter⟩
    · rw [hafter]
      constructor
      · rintro ⟨⟩
        exact ⟨a, earlier, rfl, hends⟩
      · rintro ⟨_, _, ⟨⟩, hends'⟩
        rw [hends.unique hends']
    · rw [hafter]
      constructor
      · rintro ⟨⟩
      · rintro ⟨_, _, ⟨⟩, hends⟩
        exact absurd hends (hnot result)

/-- No call uses up more than one retry beyond those that it has. -/
theorem used_le (h : Course config tried step) : used config tried ≤ config.maxRetries + 1 := by
  cases h with
  | start => exact Nat.zero_le _
  | attempt h a =>
    have hcounts := h.counts
    have hle := hcounts.retries_le
    rw [hcounts.retries_eq] at hle
    exact Nat.add_le_add hle (Bool.toNat_le _)

end Course

/-- The attempts of a call are within its budget: the call is over exactly when the last of them
ends it, with the result of this attempt, and one attempt more than there are retries is the most
that uses up a retry, or gets no answer. -/
structure WithinBudget (config : ClientConfig) (tried : List Attempt) (step : CallStep) : Prop where
  course : Course config tried step
  finished_iff (result : Except Error Value) :
    step = .finished result ↔ ∃ a earlier, tried = a :: earlier ∧ Ends config earlier a result
  used_le : used config tried ≤ config.maxRetries + 1
  unanswered_le : tried.countP isUnanswered ≤ config.maxRetries + 1

theorem Course.withinBudget {tried : List Attempt} {step : CallStep} (h : Course config tried step) :
    WithinBudget config tried step :=
  ⟨h, h.finished_iff, h.used_le, Nat.le_trans (countP_isUnanswered_le config tried) h.used_le⟩

/-- Whatever the outcomes of attempts are, a call makes all of these attempts, or those up to the
one that ends it. -/
theorem exists_withinBudget (config : ClientConfig) (outcomes : List Attempt) :
    ∃ tried, tried <:+ outcomes ∧ ∃ step, WithinBudget config tried step ∧
      (tried = outcomes ∨ ∃ result, step = .finished result) := by
  induction outcomes with
  | nil => exact ⟨[], List.suffix_refl _, _, Course.start.withinBudget, Or.inl rfl⟩
  | cons a earlier ih =>
    obtain ⟨tried, htried, step, hbudget, hend⟩ := ih
    rcases hbudget.course.counts_or_finished with ⟨pauseMs, p, rfl, -⟩ | ⟨result, rfl⟩
    · rcases hend with rfl | ⟨_, ⟨⟩⟩
      exact ⟨_, List.suffix_refl _, _, (hbudget.course.attempt a).withinBudget, Or.inl rfl⟩
    · exact ⟨tried, htried.trans (List.suffix_cons _ _), _, hbudget, Or.inr ⟨result, rfl⟩⟩

end CallProgress

end RemoteCall
