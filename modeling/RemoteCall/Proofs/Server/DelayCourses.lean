import Mathlib.Data.List.Nodup
import RemoteCall.Proofs.Server.Conservation
import RemoteCall.Proofs.Server.Delaying

/-!
# Courses of delayed tasks

A delayed task goes through rounds: it is parked, woken, offered to its executor and rejected. The
course of a task says how many rounds it has been through and how it ended, if it has. It has at
most as many rounds as attempts were left to it when it was given to the list, and one end: its
executor takes it, or it is answered, once.

## Main definitions

* `Underway`, `Over` : the courses of tasks that the delay list has, and of those that it has not
  any more.
* `Delaying.Sound` : every task that was given to the list has such a course.

## Main results

* `Delaying.Reached.sound` : every task has a course after every run.
-/

namespace RemoteCall.Server

/-! ### Courses of tasks -/

/-- What was done to a task that has been parked and rejected again this often. -/
def rounds : Nat → List Dealing
  | 0 => []
  | n + 1 => rounds n ++ [.parked, .offered .rejected]

/-- What is done, in the round in which it is, to a task that the delay list has at this place. -/
def Place.dealings : Place → List Dealing
  | waiting => [.parked]
  | refused => [.parked, .offered .rejected]
  | found => [.parked, .found]

/-- What was done to a task that the delay list has, where it is and how often it was delayed. When
it was given to the list it had been delayed `first` times. -/
def Underway (max first : Nat) (dealings : List Dealing) (place : Place) (attempts : Nat) : Prop :=
  ∃ n, n < max - first ∧ attempts = first + n + 1 ∧ dealings = rounds n ++ place.dealings

/-- What was done to a task that the delay list had. -/
inductive Over (max first : Nat) : List Dealing → Prop
  /-- Its executor took it. -/
  | accepted {n : Nat} (hn : n < max - first) :
      Over max first (rounds n ++ [.parked, .offered .accepted])
  /-- Its executor was closed. -/
  | stopped {n : Nat} (hn : n < max - first) :
      Over max first (rounds n ++ [.parked, .offered .closed, .ended (some stoppingFault)])
  /-- It was rejected at its last attempt. -/
  | spent : Over max first (rounds (max - first) ++ [.ended (some (busyFault max))])
  /-- The list was closed when it was to be parked. -/
  | late {n : Nat} (hn : n < max - first) :
      Over max first (rounds n ++ [.ended (some stoppingFault)])
  /-- The list was closed while it was parked. -/
  | swept {n : Nat} (hn : n < max - first) :
      Over max first (rounds n ++ [.parked, .found, .ended (some stoppingFault)])

namespace Dealing

/-- How the executor answered. -/
def verdict? : Dealing → Option Verdict
  | offered v => some v
  | _ => none

/-- The end of the task, with the fault that it was answered with, if any. -/
def end? : Dealing → Option (Option Fault)
  | ended fault => some fault
  | _ => none

end Dealing

@[simp] theorem verdicts_rounds (n : Nat) :
    (rounds n).filterMap Dealing.verdict? = List.replicate n .rejected := by
  induction n with
  | zero => rfl
  | succ n ih => simp [rounds, ih, List.filterMap_cons, Dealing.verdict?, List.replicate_succ']

@[simp] theorem ends_rounds (n : Nat) : (rounds n).filterMap Dealing.end? = [] := by
  induction n with
  | zero => rfl
  | succ n ih => simp [rounds, ih, List.filterMap_cons, Dealing.end?]

theorem not_found_rounds (n : Nat) : .found ∉ rounds n := by
  induction n with
  | zero => simp [rounds]
  | succ n ih => simp [rounds, ih]

theorem rejections_append_ne {n m : Nat} {v : Verdict} (hv : v ≠ .rejected) :
    List.replicate n Verdict.rejected ++ [v] ≠ List.replicate m .rejected := by
  intro heq
  have hmem : v ∈ List.replicate m Verdict.rejected := by
    rw [← heq]
    simp
  exact hv (List.eq_of_mem_replicate hmem)

/-- A task that the list has is not answered, and was always rejected. It was rejected at its last
attempt only if it is about to be parked again. -/
theorem Underway.outcome {max first attempts : Nat} {dealings : List Dealing} {place : Place}
    (h : Underway max first dealings place attempts) :
    let offers := dealings.filterMap Dealing.verdict?
    offers.length ≤ max - first ∧ dealings.filterMap Dealing.end? = [] ∧
      (∀ v ∈ offers, v = .rejected) ∧
      (offers = List.replicate (max - first) .rejected → place = .refused) ∧
      (.found ∈ dealings → place = .found) := by
  obtain ⟨n, hn, -, rfl⟩ := h
  cases place with
  | waiting =>
    simp [List.filterMap_cons, Place.dealings, Dealing.verdict?, Dealing.end?, not_found_rounds]
    omega
  | refused =>
    simp [List.filterMap_cons, Place.dealings, Dealing.verdict?, Dealing.end?, not_found_rounds]
    exact ⟨hn, by rintro v (⟨-, rfl⟩ | rfl) <;> rfl⟩
  | found =>
    simp [List.filterMap_cons, Place.dealings, Dealing.verdict?, Dealing.end?]
    omega

/-- A task whose course is over was accepted and not answered, or it was answered once. -/
theorem Over.outcome {max first : Nat} {dealings : List Dealing} (h : Over max first dealings) :
    let offers := dealings.filterMap Dealing.verdict?
    let ends := dealings.filterMap Dealing.end?
    offers.length ≤ max - first ∧ ends.length ≤ 1 ∧ (.accepted ∈ offers → ends = []) ∧
      (offers = List.replicate (max - first) .rejected → ends = [some (busyFault max)]) ∧
      (.closed ∈ offers → ends = [some stoppingFault]) ∧
      (.found ∈ dealings → ends = [some stoppingFault]) := by
  cases h with
  | accepted hn =>
    simp [List.filterMap_cons, Dealing.verdict?, Dealing.end?, not_found_rounds,
      rejections_append_ne]
    omega
  | stopped hn =>
    simp [List.filterMap_cons, Dealing.verdict?, Dealing.end?, not_found_rounds,
      rejections_append_ne]
    omega
  | spent => simp [List.filterMap_cons, Dealing.verdict?, Dealing.end?, not_found_rounds]
  | late hn =>
    simp [List.filterMap_cons, Dealing.verdict?, Dealing.end?, not_found_rounds]
    omega
  | swept hn =>
    simp [List.filterMap_cons, Dealing.verdict?, Dealing.end?, not_found_rounds]
    omega

/-! ### Soundness -/

/-- What a closing has closed and emptied. -/
def Sweep.Closed (s : Server) : Sweep → Prop
  | notBegun => s.delayed.closed = false
  | answering _ => s.delayed.closed = true ∧ s.delayed.parked = []
  | returned => s.delayed.closed = true ∧ s.delayed.parked = [] ∧ s.delayed.hand = .empty

theorem Sweep.Closed.of_delayed {sweep : Sweep} {s s' : Server} (h : sweep.Closed s)
    (hdelayed : s'.delayed = s.delayed) : sweep.Closed s' := by
  rcases sweep with - | left | - <;> simpa only [Closed, hdelayed] using h

/-- The thread puts down what it has in its hand, or turns it over. -/
theorem Sweep.Closed.of_hand {sweep : Sweep} {s s' : Server} (h : sweep.Closed s)
    (hhand : s.delayed.hand ≠ .empty) (hclosed : s'.delayed.closed = s.delayed.closed)
    (hparked : s'.delayed.parked = s.delayed.parked) : sweep.Closed s' := by
  rcases sweep with - | left | -
  · exact hclosed.trans h
  · exact ⟨hclosed.trans h.1, hparked.trans h.2⟩
  · exact absurd h.2.2 hhand

/-- An open list has not begun to be closed. -/
theorem Sweep.Closed.eq_notBegun {sweep : Sweep} {s : Server} (h : sweep.Closed s)
    (hopen : s.delayed.closed = false) : sweep = .notBegun := by
  rcases sweep with - | left | -
  · rfl
  · simp [h.1] at hopen
  · simp [h.1] at hopen

namespace Delaying

/-- Every task that was given to the list is in one place there and underway, or its course is
over. -/
structure Sound (config : DelayConfig) (d : Delaying) : Prop where
  config_eq : d.server.delayed.config = config
  distinct : (d.given.map Task.serial).Nodup
  nodup : (d.held.map fun k => k.task.serial).Nodup
  bound : ∀ k ∈ d.held, k.executor < d.server.executors.length
  underway : ∀ k ∈ d.held, ∃ t ∈ d.given, k.task = { t with attempts := k.task.attempts } ∧
    Underway config.maxAttempts t.attempts (d.dealings t.serial) k.place k.task.attempts
  settled : ∀ t ∈ d.given, (∀ k ∈ d.held, k.task.serial ≠ t.serial) →
    Over config.maxAttempts t.attempts (d.dealings t.serial)
  unknown : ∀ n, (∀ t ∈ d.given, t.serial ≠ n) → d.dealings n = []
  closed : d.sweep.Closed d.server

variable {config : DelayConfig} {d d' : Delaying}

theorem dealings_append {log : List DelayEvent} (h : d'.log = d.log ++ log) (n : Nat) :
    d'.dealings n = d.dealings n ++ log.flatMap (DelayEvent.dealings n) := by
  rw [dealings, h, List.flatMap_append, dealings]

/-- Tasks with the same number are the same. -/
theorem Sound.given_inj (h : d.Sound config) {t u : Task} (ht : t ∈ d.given) (hu : u ∈ d.given)
    (hserial : t.serial = u.serial) : t = u :=
  List.inj_on_of_nodup_map h.distinct ht hu hserial

/-- The executor of the task in the hand is there. -/
theorem Sound.due_bound (h : d.Sound config) (p : Parked) (hhand : d.server.delayed.hand = .due p) :
    p.executor < d.server.executors.length :=
  h.bound (p.heldAt .waiting) (by simp [held, hhand, Hand.held])

/-- A list that has not begun to be closed is open. -/
theorem Sound.begun (h : d.Sound config) (hsweep : d.sweep = .notBegun) :
    d.server.delayed.closed = false := by
  have hclosed := h.closed
  rwa [hsweep] at hclosed

/-- A move after which events about at most one task have been taken down. -/
structure Concerns (d : Delaying) (n : Nat) (log : List DelayEvent) (d' : Delaying) : Prop where
  log_eq : d'.log = d.log ++ log
  others : ∀ m, m ≠ n → log.flatMap (DelayEvent.dealings m) = []
  config_eq : d'.server.delayed.config = d.server.delayed.config
  length_eq : d'.server.executors.length = d.server.executors.length
  closed : d.sweep.Closed d.server → d'.sweep.Closed d'.server

theorem Concerns.dealings_eq {n : Nat} {log : List DelayEvent} (h : d.Concerns n log d') (m : Nat) :
    d'.dealings m = d.dealings m ++ log.flatMap (DelayEvent.dealings m) :=
  dealings_append h.log_eq m

theorem Concerns.dealings_of_ne {n m : Nat} {log : List DelayEvent} (h : d.Concerns n log d')
    (hm : m ≠ n) : d'.dealings m = d.dealings m := by
  rw [h.dealings_eq, h.others m hm, List.append_nil]

/-- What the list has of a task `t` after a move, and what was done to the task until then. -/
def Follows (config : DelayConfig) (d : Delaying) (t : Task) (dealings : List Dealing) :
    Option Held → Prop
  | none => Over config.maxAttempts t.attempts dealings
  | some k => k.executor < d.server.executors.length ∧
      k.task = { t with attempts := k.task.attempts } ∧
      Underway config.maxAttempts t.attempts dealings k.place k.task.attempts

/-- The list has a task no more, or at another place, and has all others as before. -/
theorem Sound.exchange (h : d.Sound config) {t : Task} {log : List DelayEvent}
    (hc : d.Concerns t.serial log d') (gone : Option Held) {here : Option Held} {rest : List Held}
    (hheld : d.held.Perm (gone.toList ++ rest)) (hheld' : d'.held.Perm (here.toList ++ rest))
    (hgone : ∀ k, gone = some k → k.task.serial = t.serial)
    (hrest : ∀ k ∈ rest, k.task.serial ≠ t.serial)
    (hgiven : ∀ u, u ∈ d'.given ↔ u ∈ d.given ∨ u = t)
    (hdistinct : (d'.given.map Task.serial).Nodup)
    (hfollows : Follows config d t (d'.dealings t.serial) here) : d'.Sound config := by
  have hnodup : (rest.map fun k => k.task.serial).Nodup := by
    have hsub := (hheld.map fun k => k.task.serial).nodup_iff.mp h.nodup
    rw [List.map_append] at hsub
    exact (List.nodup_append.mp hsub).2.1
  have hmem (k : Held) : k ∈ d'.held ↔ here = some k ∨ k ∈ rest := by
    simp [hheld'.mem_iff]
  have hold {k : Held} (hk : k ∈ rest) : k ∈ d.held := by
    simp [hheld.mem_iff, hk]
  have htask {k : Held} (hk : here = some k) : k.task.serial = t.serial := by
    subst hk
    rw [hfollows.2.1]
  refine ⟨hc.config_eq.trans h.config_eq, hdistinct, ?_, fun k hk => ?_, fun k hk => ?_,
    fun u hu hnone => ?_, fun n hn => ?_, hc.closed h.closed⟩
  · refine (hheld'.map fun k => k.task.serial).nodup_iff.mpr ?_
    rcases here with - | k
    · simpa using hnodup
    · simp only [Option.toList_some, List.singleton_append, List.map_cons, List.nodup_cons]
      refine ⟨fun hin => ?_, hnodup⟩
      obtain ⟨l, hl, heq⟩ := List.mem_map.mp hin
      exact hrest l hl (heq.trans (htask rfl))
  · rw [hc.length_eq]
    rcases (hmem k).mp hk with rfl | hk
    · exact hfollows.1
    · exact h.bound k (hold hk)
  · rcases (hmem k).mp hk with rfl | hk
    · exact ⟨t, (hgiven t).mpr (Or.inr rfl), hfollows.2⟩
    · obtain ⟨u, hu, huk, hcourse⟩ := h.underway k (hold hk)
      have hne : u.serial ≠ t.serial := by
        have hserial : k.task.serial = u.serial := by rw [huk]
        rw [← hserial]
        exact hrest k hk
      exact ⟨u, (hgiven u).mpr (Or.inl hu), huk, by rwa [hc.dealings_of_ne hne]⟩
  · by_cases hut : u = t
    · subst hut
      rcases here with - | k
      · exact hfollows
      · exact absurd (htask rfl) (hnone k ((hmem k).mpr (Or.inl rfl)))
    · have hu' := ((hgiven u).mp hu).resolve_right hut
      have hne : u.serial ≠ t.serial := fun heq =>
        hut (List.inj_on_of_nodup_map hdistinct hu ((hgiven t).mpr (Or.inr rfl)) heq)
      rw [hc.dealings_of_ne hne]
      refine h.settled u hu' fun k hk => ?_
      rcases List.mem_append.mp (hheld.mem_iff.mp hk) with hk | hk
      · rw [hgone k (by simpa using hk)]
        exact Ne.symm hne
      · exact hnone k ((hmem k).mpr (Or.inr hk))
  · have hne : n ≠ t.serial := fun heq => hn t ((hgiven t).mpr (Or.inr rfl)) heq.symm
    rw [hc.dealings_of_ne hne]
    exact h.unknown n fun u hu => hn u ((hgiven u).mpr (Or.inl hu))

/-- A move of a task that the list has: the task is somewhere else afterwards, or its course is
over. -/
theorem Sound.moved (h : d.Sound config) {k : Held} (here : Option Held) {rest : List Held}
    {log : List DelayEvent} (hc : d.Concerns k.task.serial log d')
    (hgiven : d'.given = d.given) (hheld : d.held.Perm (k :: rest))
    (hheld' : d'.held.Perm (here.toList ++ rest))
    (hcourse : ∀ t dealings, k.task = { t with attempts := k.task.attempts } →
      Underway config.maxAttempts t.attempts dealings k.place k.task.attempts →
      Follows config d t (dealings ++ log.flatMap (DelayEvent.dealings k.task.serial)) here) :
    d'.Sound config := by
  obtain ⟨t, ht, htask, hunderway⟩ := h.underway k (hheld.mem_iff.mpr List.mem_cons_self)
  have hserial : k.task.serial = t.serial := by rw [htask]
  have hnodup := (hheld.map fun k => k.task.serial).nodup_iff.mp h.nodup
  rw [List.map_cons, List.nodup_cons] at hnodup
  have hrest : ∀ l ∈ rest, l.task.serial ≠ t.serial := fun l hl heq =>
    hnodup.1 (List.mem_map.mpr ⟨l, hl, heq.trans hserial.symm⟩)
  rw [hserial] at hc
  refine h.exchange hc (some k) hheld hheld' (by rintro _ ⟨⟩; exact hserial) hrest
    (fun u => ?_) (by rw [hgiven]; exact h.distinct) ?_
  · rw [hgiven]
    refine ⟨Or.inl, ?_⟩
    rintro (hu | rfl)
    · exact hu
    · exact ht
  · rw [hc.dealings_eq, ← hserial]
    exact hcourse t _ htask (hserial ▸ hunderway)

/-! ### Moves -/

/-- A move that leaves all tasks where they are. -/
theorem Sound.still (h : d.Sound config) (hheld : d'.held = d.held) (hgiven : d'.given = d.given)
    (hlog : d'.log = d.log) (hconfig : d'.server.delayed.config = d.server.delayed.config)
    (hlength : d'.server.executors.length = d.server.executors.length)
    (hclosed : d'.sweep.Closed d'.server) : d'.Sound config := by
  have hdealings (n : Nat) : d'.dealings n = d.dealings n := by rw [dealings, hlog, dealings]
  refine ⟨hconfig.trans h.config_eq, ?_, ?_, ?_, ?_, ?_, ?_, hclosed⟩
  · rw [hgiven]
    exact h.distinct
  · rw [hheld]
    exact h.nodup
  · rw [hheld, hlength]
    exact h.bound
  · simp only [hheld, hgiven, hdealings]
    exact h.underway
  · simp only [hheld, hgiven, hdealings]
    exact h.settled
  · simp only [hgiven, hdealings]
    exact h.unknown

/-- A move that concerns no task changes nothing but the rest of the server. -/
theorem sound_other (h : d.Sound config) {s : Server} (hm : d.Allows (.other s)) :
    (d.step (.other s)).Sound config := by
  obtain ⟨hdelayed, hlength⟩ := hm
  have hheld : (d.step (.other s)).held = d.held := by
    simp only [held, step, hdelayed]
  exact h.still hheld rfl rfl (congrArg DelayList.config hdelayed) hlength
    (h.closed.of_delayed hdelayed)

/-- What is done to a task that has been rejected `n` times when it is delayed. -/
theorem advance_delay_follows (d : Delaying) {u : Task} {i : ExecutorIndex}
    (hi : i < d.server.executors.length) :
    ∃ here log,
      d.Concerns u.serial log (d.advance (d.server.delay u i) (d.server.delayEvents u i)) ∧
      (d.advance (d.server.delay u i) (d.server.delayEvents u i)).held.Perm
        (here.toList ++ d.held) ∧
      ∀ (t : Task) (n : Nat), u = { t with attempts := u.attempts } →
        n ≤ d.server.delayed.config.maxAttempts - t.attempts → u.attempts = t.attempts + n →
        Follows d.server.delayed.config d t
          (rounds n ++ log.flatMap (DelayEvent.dealings u.serial)) here := by
  rcases d.advance_delay_cases u i with ⟨hmax, h⟩ | ⟨hlt, hclosed, h⟩ | ⟨hlt, hopen, h⟩
  · rw [h]
    refine ⟨none, _, ⟨rfl, fun m hm => by simp [hm.symm], rfl, rfl, fun hd => hd.of_delayed rfl⟩,
      .refl _, fun t n htask hn hattempts => ?_⟩
    have hlast : n = d.server.delayed.config.maxAttempts - t.attempts := by omega
    simpa [Follows, hlast] using Over.spent
  · rw [h]
    refine ⟨none, _, ⟨rfl, fun m hm => by simp [hm.symm], rfl, rfl, fun hd => hd.of_delayed rfl⟩,
      .refl _, fun t n htask hn hattempts => ?_⟩
    have hbefore : n < d.server.delayed.config.maxAttempts - t.attempts := by omega
    simpa [Follows] using Over.late hbefore
  · have hperm := (insertParked_perm (d.server.delayed.parking d.server.nowMs u i)
      d.server.delayed.parked).map (Parked.heldAt .waiting)
    rw [h]
    refine ⟨some ((d.server.delayed.parking d.server.nowMs u i).heldAt .waiting), _,
      ⟨rfl, fun m hm => by simp [DelayList.parking, hm.symm], rfl, rfl, fun hd => ?_⟩,
      (hperm.append_right _).append_right _, fun t n htask hn hattempts => ⟨hi, ?_, ?_⟩⟩
    · rw [hd.eq_notBegun hopen]
      exact hopen
    · simp only [DelayList.parking, Parked.heldAt]
      rw [htask]
    · have hbefore : n < d.server.delayed.config.maxAttempts - t.attempts := by omega
      exact ⟨n, hbefore, congrArg (· + 1) hattempts,
        by simp [DelayList.parking, Parked.heldAt, Place.dealings]⟩

/-- A task that is given to the list for the first time is parked, or it is answered at once. -/
theorem sound_add (h : d.Sound config) {t : Task} {i : ExecutorIndex}
    (hm : d.Allows (.add t i)) : (d.step (.add t i)).Sound config := by
  obtain ⟨hi, hfresh⟩ := hm
  have hnone : d.dealings t.serial = [] := h.unknown t.serial hfresh
  obtain ⟨here, log, hc, hheld, hfollows⟩ :=
    advance_delay_follows { d with given := d.given ++ [t] } (u := t) hi
  have hc' : d.Concerns t.serial log (d.step (.add t i)) :=
    ⟨hc.log_eq, hc.others, hc.config_eq, hc.length_eq, hc.closed⟩
  refine h.exchange hc' none (.refl _) hheld (by rintro _ ⟨⟩) (fun k hk => ?_)
    (fun u => ?_) ?_ ?_
  · obtain ⟨u, hu, htask, -⟩ := h.underway k hk
    have hserial : k.task.serial = u.serial := by rw [htask]
    rw [hserial]
    exact hfresh u hu
  · simp [step, advance]
  · exact nodup_map_append_singleton h.distinct hfresh
  · rw [hc'.dealings_eq, hnone]
    exact h.config_eq ▸ hfollows t 0 rfl (Nat.zero_le _) rfl

theorem sound_wake (h : d.Sound config) : (d.step (.thread .wake)).Sound config := by
  rcases d.wake_cases with hs | ⟨p, rest, hhand, hparked, hopen, -, hs⟩
  · rw [hs]
    exact h
  · rw [hs]
    have hheld : d.held.Perm (p.heldAt .waiting :: (rest.map (Parked.heldAt .waiting) ++
        d.sweep.left.map (Parked.heldAt .found))) := by
      simp [held, hhand, hparked, Hand.held]
    refine h.moved (k := p.heldAt .waiting) (some (p.heldAt .waiting))
      ⟨rfl, fun _ _ => rfl, rfl, rfl, fun hd => ?_⟩ rfl
      hheld ?_ fun t dealings htask hcourse => ?_
    · rw [hd.eq_notBegun hopen]
      exact hopen
    · simp only [held, Hand.held, Option.toList_some, List.append_assoc, List.singleton_append]
      exact List.perm_middle
    · have hk : p.heldAt .waiting ∈ d.held := hheld.mem_iff.mpr List.mem_cons_self
      exact ⟨h.bound _ hk, htask, by simpa using hcourse⟩

/-- The thread offers the task in its hand. -/
theorem sound_resubmit (h : d.Sound config) : (d.step (.thread .resubmit)).Sound config := by
  rcases resubmit_cases h.due_bound with hs | ⟨p, hhand, hs⟩
  · rw [hs]
    exact h
  · have hne : d.server.delayed.hand ≠ .empty := by simp [hhand]
    have hnot {m : Nat} (hm : m ≠ (p.heldAt .waiting).task.serial) : p.task.serial ≠ m := hm.symm
    generalize d.step (.thread .resubmit) = d' at hs ⊢
    cases hs with
    | closed =>
      refine h.moved none
        ⟨rfl, fun m hm => by simp [hnot hm], rfl, rfl, fun hd => hd.of_hand hne rfl rfl⟩ rfl
        (held_of_due hhand) (held_of_empty rfl) fun t dealings htask hcourse => ?_
      obtain ⟨n, hn, -, rfl⟩ := hcourse
      simpa [Follows, Parked.heldAt, Place.dealings] using Over.stopped hn
    | rejected =>
      refine h.moved (some ⟨.refused, p.task, p.executor⟩)
        ⟨rfl, fun m hm => by simp [hnot hm], rfl, rfl, fun hd => hd.of_hand hne rfl rfl⟩ rfl
        (held_of_due hhand) (held_of_refused rfl)
        fun t dealings htask hcourse => ⟨h.due_bound p hhand, htask, ?_⟩
      obtain ⟨n, hn, hattempts, rfl⟩ := hcourse
      exact ⟨n, hn, hattempts, by simp [Parked.heldAt, Place.dealings]⟩
    | accepted he hopen henqueue =>
      refine h.moved none
        ⟨rfl, fun m hm => by simp [hnot hm], rfl, List.length_set, fun hd => hd.of_hand hne rfl rfl⟩
        rfl (held_of_due hhand) (held_of_empty rfl) fun t dealings htask hcourse => ?_
      obtain ⟨n, hn, -, rfl⟩ := hcourse
      simpa [Follows, Parked.heldAt, Place.dealings] using Over.accepted hn

/-- The thread parks the task in its hand again, or answers it. -/
theorem sound_repark (h : d.Sound config) : (d.step (.thread .repark)).Sound config := by
  rcases d.repark_cases with hs | ⟨u, i, hhand, hs⟩
  · rw [hs]
    exact h
  · have hheld := held_of_refused hhand
    have hne : d.server.delayed.hand ≠ .empty := by simp [hhand]
    have hi := h.bound _ (hheld.mem_iff.mpr List.mem_cons_self)
    obtain ⟨here, log, hc, hheld', hfollows⟩ :=
      advance_delay_follows { d with server.delayed.hand := .empty } (u := u) (i := i) hi
    rw [hs]
    refine h.moved (k := ⟨.refused, u, i⟩) here
      ⟨hc.log_eq, hc.others, hc.config_eq, hc.length_eq,
        fun hd => hc.closed (hd.of_hand hne rfl rfl)⟩ rfl hheld
      (hheld'.trans ((held_of_empty rfl).append_left _))
      fun t dealings htask hcourse => ?_
    obtain ⟨n, hn, hattempts, rfl⟩ := hcourse
    have hround : rounds n ++ Place.dealings .refused = rounds (n + 1) := rfl
    have hf := hfollows t (n + 1) htask (by rw [← h.config_eq] at hn; exact hn) hattempts
    rw [hround]
    exact h.config_eq ▸ hf

theorem dealings_beginClosing (d : Delaying) (n : Nat) :
    d.beginClosing.dealings n = d.dealings n ++
      if ∃ p ∈ d.server.delayed.parked, p.task.serial = n then [.found] else [] := by
  simp [beginClosing, dealings]

/-- Only what is parked is found. -/
theorem dealings_beginClosing_of_ne {n : Nat}
    (hn : ∀ p ∈ d.server.delayed.parked, p.task.serial ≠ n) :
    d.beginClosing.dealings n = d.dealings n := by
  have hnone : ¬∃ p ∈ d.server.delayed.parked, p.task.serial = n := by
    rintro ⟨p, hp, heq⟩
    exact hn p hp heq
  rw [dealings_beginClosing, if_neg hnone, List.append_nil]

theorem heldAt_mem_held {p : Parked} (hp : p ∈ d.server.delayed.parked) :
    p.heldAt .waiting ∈ d.held :=
  List.mem_append_left _ (List.mem_append_left _ (List.mem_map_of_mem hp))

/-- The list has the same tasks when it has been closed. -/
theorem serials_beginClosing (hsweep : d.sweep = .notBegun) :
    (d.beginClosing.held.map fun k => k.task.serial).Perm (d.held.map fun k => k.task.serial) := by
  rw [held_of_notBegun hsweep, held_beginClosing, List.map_append, List.map_append, List.map_map,
    List.map_map]
  exact List.perm_append_comm

/-- The task in the hand stays underway, and so do those that are found. -/
theorem Sound.underway_beginClosing (h : d.Sound config) (hsweep : d.sweep = .notBegun) {k : Held}
    (hk : k ∈ d.beginClosing.held) :
    ∃ t ∈ d.given, k.task = { t with attempts := k.task.attempts } ∧
      Underway config.maxAttempts t.attempts (d.beginClosing.dealings t.serial) k.place
        k.task.attempts := by
  have hnodup := h.nodup
  rw [held_of_notBegun hsweep, List.map_append, List.nodup_append] at hnodup
  rw [held_beginClosing] at hk
  rcases List.mem_append.mp hk with hk | hk
  · obtain ⟨t, ht, htask, hcourse⟩ :=
      h.underway k (by rw [held_of_notBegun hsweep]; exact List.mem_append_right _ hk)
    have hserial : k.task.serial = t.serial := by rw [htask]
    refine ⟨t, ht, htask, ?_⟩
    rw [dealings_beginClosing_of_ne fun p hp heq => ?_]
    · exact hcourse
    · exact hnodup.2.2 _ (List.mem_map_of_mem (List.mem_map_of_mem hp)) _
        (List.mem_map_of_mem hk) (heq.trans hserial.symm)
  · obtain ⟨p, hp, rfl⟩ := List.mem_map.mp hk
    obtain ⟨t, ht, htask, n, hn, hattempts, hcourse⟩ := h.underway _ (heldAt_mem_held hp)
    have hserial : (p.heldAt .waiting).task.serial = t.serial := by rw [htask]
    refine ⟨t, ht, htask, n, hn, hattempts, ?_⟩
    rw [dealings_beginClosing, hcourse, if_pos ⟨p, hp, hserial⟩]
    simp [Parked.heldAt, Place.dealings]

/-- The tasks that are parked when the list is closed are found there. -/
theorem Sound.beginClosing (h : d.Sound config) (hsweep : d.sweep = .notBegun) :
    d.beginClosing.Sound config := by
  have hserials := serials_beginClosing hsweep
  refine ⟨h.config_eq, h.distinct, hserials.nodup_iff.mpr h.nodup, fun k hk => ?_,
    fun k hk => h.underway_beginClosing hsweep hk, fun t ht hnone => ?_, fun n hn => ?_, rfl, rfl⟩
  · rw [held_beginClosing] at hk
    rcases List.mem_append.mp hk with hk | hk
    · exact h.bound k (by rw [held_of_notBegun hsweep]; exact List.mem_append_right _ hk)
    · obtain ⟨p, hp, rfl⟩ := List.mem_map.mp hk
      exact h.bound (p.heldAt .waiting) (heldAt_mem_held hp)
  · have habsent (k : Held) (hk : k ∈ d.held) : k.task.serial ≠ t.serial := by
      intro heq
      obtain ⟨l, hl, hserial⟩ := List.mem_map.mp (hserials.mem_iff.mpr
        (List.mem_map_of_mem (f := fun k : Held => k.task.serial) hk))
      exact hnone l hl (hserial.trans heq)
    rw [dealings_beginClosing_of_ne fun p hp => habsent _ (heldAt_mem_held hp)]
    exact h.settled t ht habsent
  · rw [dealings_beginClosing_of_ne fun p hp heq => ?_]
    · exact h.unknown n hn
    · obtain ⟨t, ht, htask, -⟩ := h.underway _ (heldAt_mem_held hp)
      have hserial : (p.heldAt .waiting).task.serial = t.serial := by rw [htask]
      exact hn t ht (hserial.symm.trans heq)

/-- A step of a closing takes what is parked, or answers one task of it. -/
theorem sound_close (h : d.Sound config) : (d.step .close).Sound config := by
  rcases close_cases h.begun with hs | ⟨hsweep, hs⟩ | ⟨p, left, hsweep, hhand, hs⟩ |
    ⟨hsweep, hhand, hs⟩
  · rw [hs]
    exact h
  · rw [hs]
    exact h.beginClosing hsweep
  · rw [hs]
    refine h.moved none
      ⟨rfl, fun m hm => ?_, rfl, rfl, fun hd => ?_⟩ rfl (held_of_answering hhand hsweep)
      (held_of_empty hhand)
      fun t dealings htask hcourse => ?_
    · have hnot : p.task.serial ≠ m := hm.symm
      simp [hnot]
    · rw [hsweep] at hd
      exact hd
    · obtain ⟨n, hn, -, rfl⟩ := hcourse
      simpa [Follows, Parked.heldAt, Place.dealings] using Over.swept hn
  · have hclosed := h.closed
    rw [hsweep] at hclosed
    rw [hs]
    exact h.still (held_returned hsweep) rfl rfl rfl rfl ⟨hclosed.1, hclosed.2, hhand⟩

/-- Every move keeps the courses of tasks. -/
theorem sound_step (h : d.Sound config) {m : DelayMove} (hm : d.Allows m) :
    (d.step m).Sound config := by
  rcases m with ⟨t, i⟩ | ⟨- | - | -⟩ | - | s
  · exact sound_add h hm
  · exact sound_wake h
  · exact sound_resubmit h
  · exact sound_repark h
  · exact sound_close h
  · exact sound_other h hm

theorem sound_start {s : Server} (hs : s.delayed = .new config) : (start s).Sound config := by
  have hheld : (start s).held = [] := by
    simp [held, start, hs, DelayList.new, Hand.held, Sweep.left]
  refine ⟨congrArg DelayList.config hs, List.nodup_nil, ?_, ?_, ?_, by rintro _ ⟨⟩,
    fun _ _ => rfl, congrArg DelayList.closed hs⟩ <;> simp [hheld]

/-- Every task that was given to the list has a course after every run. -/
theorem Reached.sound (h : Reached config d) : d.Sound config := by
  induction h with
  | start hs => exact sound_start hs
  | step h hm ih => exact sound_step ih hm

end Delaying

end RemoteCall.Server
