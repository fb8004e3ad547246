import RemoteCall.Proofs.Server.DelayCourses
import RemoteCall.Proofs.Server.Gates

/-!
# Attempts of delayed tasks

A task on the delay list is offered again no more often than it has attempts left, and not before it
is due. One offer that is accepted ends its time on the list; otherwise it is answered once: the
server is busy if all attempts were in vain, and stops if the executor or the list was closed. While
the clock does not go back, tasks are offered in the order in which they were parked.

## Main definitions

* `Delaying.parkings`, `Delaying.wakings`, `Delaying.offerings` : what the log says about parked
  tasks, in order.
* `Delaying.Ordered` : tasks are woken in time and in order.

## Main results

* `Delaying.Reached.ordered` : tasks are woken in time and in order in every run.
* `Delaying.delayed_within_budget` : how the time of a task on the delay list goes and ends.
-/

namespace RemoteCall.Server

namespace DelayEvent

/-- The task that is parked, and when. -/
def parking? : DelayEvent → Option (Parked × Nat)
  | parked p nowMs => some (p, nowMs)
  | _ => none

/-- The task that is taken into the hand. -/
def waking? : DelayEvent → Option Parked
  | woken p _ => some p
  | _ => none

/-- The task that is offered. -/
def offering? : DelayEvent → Option Parked
  | offered p _ => some p
  | _ => none

/-- The tasks that the list was closed with. -/
def found : DelayEvent → List Parked
  | closed found => found
  | _ => []

end DelayEvent

/-- The task in the hand that is to be offered. -/
def Hand.due? : Hand → Option Parked
  | due p => some p
  | _ => none

/-- A task that wakes no earlier than the others is parked behind them. -/
theorem insertParked_eq_append {p : Parked} {parked : List Parked}
    (h : ∀ q ∈ parked, q.wakeMs ≤ p.wakeMs) : DelayList.insertParked p parked = parked ++ [p] := by
  induction parked with
  | nil => rfl
  | cons q parked ih =>
    have hq := h q List.mem_cons_self
    rw [DelayList.insertParked, if_neg (by omega),
      ih fun r hr => h r (List.mem_cons_of_mem q hr), List.cons_append]

namespace Delaying

/-- The tasks that were parked, and when, in order. -/
def parkings (d : Delaying) : List (Parked × Nat) :=
  d.log.filterMap DelayEvent.parking?

/-- The tasks that the thread has taken into its hand, in order. -/
def wakings (d : Delaying) : List Parked :=
  d.log.filterMap DelayEvent.waking?

/-- The tasks that were offered to their executors again, in order. -/
def offerings (d : Delaying) : List Parked :=
  d.log.filterMap DelayEvent.offering?

/-- The tasks that were parked when the list was closed. -/
def swept (d : Delaying) : List Parked :=
  d.log.flatMap DelayEvent.found

/-- The clock did not go back between the times when tasks were parked. -/
def Steady (d : Delaying) : Prop :=
  (d.parkings.map Prod.snd).Pairwise (· ≤ ·)

/-- Tasks are parked for the delay of the list and taken into the hand when they are due; those that
were taken have been offered, but for the last one; each that was parked was taken, is parked or was
found by a closing; and while the clock does not go back they are taken in the order in which they
were parked. -/
structure Ordered (config : DelayConfig) (d : Delaying) : Prop where
  delay : ∀ p nowMs, (p, nowMs) ∈ d.parkings → p.wakeMs = nowMs + config.delayMs
  due : ∀ p nowMs, .woken p nowMs ∈ d.log → p.wakeMs ≤ nowMs
  offered : d.wakings = d.offerings ++ d.server.delayed.hand.due?.toList
  perm : (d.parkings.map Prod.fst).Perm (d.wakings ++ d.server.delayed.parked ++ d.swept)
  fifo : d.Steady → d.parkings.map Prod.fst = d.wakings ++ d.server.delayed.parked ++ d.swept
  unswept : d.server.delayed.closed = false → d.swept = []

variable {config : DelayConfig} {d d' : Delaying}

/-- A move that at most answers tasks. -/
theorem Ordered.ended (h : d.Ordered config) (ends : List TaskEnd)
    (hlog : d'.log = d.log ++ ends.map .ended)
    (hparked : d'.server.delayed.parked = d.server.delayed.parked)
    (hhand : d'.server.delayed.hand.due? = d.server.delayed.hand.due?)
    (hclosed : d'.server.delayed.closed = d.server.delayed.closed) : d'.Ordered config := by
  have hparkings : d'.parkings = d.parkings := by
    simp [parkings, hlog, List.filterMap_map, Function.comp_def, DelayEvent.parking?]
  have hwakings : d'.wakings = d.wakings := by
    simp [wakings, hlog, List.filterMap_map, Function.comp_def, DelayEvent.waking?]
  have hofferings : d'.offerings = d.offerings := by
    simp [offerings, hlog, List.filterMap_map, Function.comp_def, DelayEvent.offering?]
  have hswept : d'.swept = d.swept := by
    simp [swept, hlog, List.flatMap_map, DelayEvent.found]
  refine ⟨by rw [hparkings]; exact h.delay, fun p nowMs hp => ?_, by
    rw [hwakings, hofferings, hhand]; exact h.offered, by
    rw [hparkings, hwakings, hparked, hswept]; exact h.perm, fun hsteady => ?_, by
    rw [hclosed, hswept]; exact h.unswept⟩
  · rw [hlog] at hp
    simp only [List.mem_append, List.mem_map, reduceCtorEq, and_false, exists_false, or_false] at hp
    exact h.due p nowMs hp
  · rw [Steady, hparkings] at hsteady
    rw [hparkings, hwakings, hparked, hswept]
    exact h.fifo hsteady

/-- If the clock has not gone back since, what is parked is due before anything that is parked
now. -/
theorem Ordered.wakeMs_le (h : d.Ordered config)
    (hlast : ∀ nowMs ∈ d.parkings.map Prod.snd, nowMs ≤ d.server.nowMs) {q : Parked}
    (hq : q ∈ d.server.delayed.parked) : q.wakeMs ≤ d.server.nowMs + config.delayMs := by
  have hmem : q ∈ d.parkings.map Prod.fst := h.perm.mem_iff.mpr (by simp [hq])
  obtain ⟨⟨r, nowMs⟩, hr, rfl⟩ := List.mem_map.mp hmem
  rw [h.delay r nowMs hr]
  exact Nat.add_le_add_right (hlast nowMs (List.mem_map_of_mem hr)) _

/-- A task is parked: behind all others, if the clock does not go back. -/
theorem Ordered.park (h : d.Ordered config) (hopen : d.server.delayed.closed = false) {p : Parked}
    (hwake : p.wakeMs = d.server.nowMs + config.delayMs)
    (hlog : d'.log = d.log ++ [.parked p d.server.nowMs])
    (hparked : d'.server.delayed.parked = DelayList.insertParked p d.server.delayed.parked)
    (hhand : d'.server.delayed.hand = d.server.delayed.hand) : d'.Ordered config := by
  have hparkings : d'.parkings = d.parkings ++ [(p, d.server.nowMs)] := by
    simp [parkings, hlog, DelayEvent.parking?]
  have hwakings : d'.wakings = d.wakings := by
    simp [wakings, hlog, List.filterMap_cons, DelayEvent.waking?]
  have hofferings : d'.offerings = d.offerings := by
    simp [offerings, hlog, List.filterMap_cons, DelayEvent.offering?]
  have hunswept := h.unswept hopen
  have hswept : d'.swept = [] := by
    simp only [swept] at hunswept
    simp [swept, hlog, DelayEvent.found, hunswept]
  refine ⟨fun q nowMs hq => ?_, fun q nowMs hq => ?_, ?_, ?_, fun hsteady => ?_, fun _ => hswept⟩
  · rw [hparkings] at hq
    rcases List.mem_append.mp hq with hq | hq
    · exact h.delay q nowMs hq
    · obtain ⟨rfl, rfl⟩ := Prod.mk.inj (List.mem_singleton.mp hq)
      exact hwake
  · exact h.due q nowMs (by simpa [hlog] using hq)
  · rw [hwakings, hofferings, hhand]
    exact h.offered
  · have hperm := h.perm
    rw [hunswept, List.append_nil] at hperm
    rw [hparkings, hwakings, hparked, hswept, List.append_nil, List.map_append]
    have hlast : ((d.wakings ++ d.server.delayed.parked) ++ [p]).Perm
        (d.wakings ++ (p :: d.server.delayed.parked)) := by
      rw [List.append_assoc]
      exact (List.perm_append_singleton p _).append_left _
    exact ((hperm.append_right _).trans hlast).trans ((insertParked_perm p _).symm.append_left _)
  · rw [Steady, hparkings, List.map_append, List.pairwise_append] at hsteady
    obtain ⟨hbefore, -, hlast⟩ := hsteady
    have hbehind : ∀ q ∈ d.server.delayed.parked, q.wakeMs ≤ p.wakeMs := fun q hq => by
      rw [hwake]
      exact h.wakeMs_le (fun nowMs hn => hlast nowMs hn _ List.mem_cons_self) hq
    rw [hparkings, hwakings, hparked, hswept, insertParked_eq_append hbehind, List.map_append,
      h.fifo hbefore, hunswept]
    simp

/-- A task that is delayed is parked, or it is answered. -/
theorem Ordered.advance_delay (h : d.Ordered config) (hconfig : d.server.delayed.config = config)
    (t : Task) (i : ExecutorIndex) :
    (d.advance (d.server.delay t i) (d.server.delayEvents t i)).Ordered config := by
  rcases d.advance_delay_cases t i with ⟨-, hs⟩ | ⟨-, -, hs⟩ | ⟨-, hopen, hs⟩
  · rw [hs]
    exact h.ended [_] rfl rfl rfl rfl
  · rw [hs]
    exact h.ended [_] rfl rfl rfl rfl
  · rw [hs]
    refine h.park hopen ?_ rfl rfl rfl
    rw [← hconfig]
    rfl

/-- A move that parks no task: those that were parked are taken, parked or found as before. -/
theorem Ordered.event (h : d.Ordered config) {e : DelayEvent} (hlog : d'.log = d.log ++ [e])
    (hparks : e.parking? = none) (hdue : ∀ p nowMs, e = .woken p nowMs → p.wakeMs ≤ nowMs)
    (hoffered : d'.wakings = d'.offerings ++ d'.server.delayed.hand.due?.toList)
    (hsame : d'.wakings ++ d'.server.delayed.parked ++ d'.swept =
      d.wakings ++ d.server.delayed.parked ++ d.swept)
    (hunswept : d'.server.delayed.closed = false → d'.swept = []) : d'.Ordered config := by
  have hparkings : d'.parkings = d.parkings := by
    simp [parkings, hlog, hparks]
  refine ⟨by rw [hparkings]; exact h.delay, fun p nowMs hp => ?_, hoffered, by
    rw [hparkings, hsame]; exact h.perm, fun hsteady => ?_, hunswept⟩
  · rw [hlog] at hp
    rcases List.mem_append.mp hp with hp | hp
    · exact h.due p nowMs hp
    · exact hdue p nowMs (List.mem_singleton.mp hp).symm
  · rw [Steady, hparkings] at hsteady
    rw [hparkings, hsame]
    exact h.fifo hsteady

theorem Ordered.wake (h : d.Ordered config) : (d.step (.thread .wake)).Ordered config := by
  rcases d.wake_cases with hs | ⟨p, rest, hhand, hparked, -, hdue, hs⟩
  · rw [hs]
    exact h
  · have hoffered := h.offered
    simp only [wakings, offerings, hhand] at hoffered
    rw [hs]
    refine h.event rfl rfl ?_ ?_ ?_ ?_
    · rintro _ _ ⟨⟩
      exact hdue
    · simp [wakings, offerings, List.filterMap_cons, DelayEvent.waking?, DelayEvent.offering?,
        Hand.due?, hoffered]
    · simp [wakings, swept, DelayEvent.waking?, DelayEvent.found, hparked]
    · simpa [swept, DelayEvent.found] using h.unswept

/-- The task in the hand is offered. -/
theorem Ordered.offer (h : d.Ordered config) {p : Parked} {v : Verdict} (ends : List TaskEnd)
    (hhand : d.server.delayed.hand = .due p)
    (hlog : d'.log = d.log ++ .offered p v :: ends.map .ended)
    (hparked : d'.server.delayed.parked = d.server.delayed.parked)
    (hhand' : d'.server.delayed.hand.due? = none)
    (hclosed : d'.server.delayed.closed = d.server.delayed.closed) : d'.Ordered config := by
  have hoffered := h.offered
  simp only [wakings, offerings, hhand] at hoffered
  have hemptied : Ordered config
      { d with
        server := { d.server with delayed.hand := .empty }
        log := d.log ++ [.offered p v] } := by
    refine h.event rfl rfl (by rintro _ _ ⟨⟩) ?_ ?_ ?_
    · simp [wakings, offerings, List.filterMap_cons, DelayEvent.waking?, DelayEvent.offering?,
        Hand.due?, hoffered]
    · simp [wakings, swept, List.filterMap_cons, DelayEvent.waking?, DelayEvent.found]
    · simpa [swept, DelayEvent.found] using h.unswept
  exact hemptied.ended ends (by simp [hlog]) hparked hhand' hclosed

theorem Ordered.resubmit (h : d.Ordered config) (hsound : d.Sound config) :
    (d.step (.thread .resubmit)).Ordered config := by
  rcases resubmit_cases hsound.due_bound with hs | ⟨p, hhand, hs⟩
  · rw [hs]
    exact h
  · generalize d.step (.thread .resubmit) = d' at hs ⊢
    cases hs with
    | closed => exact h.offer [_] hhand rfl rfl rfl rfl
    | rejected => exact h.offer [] hhand rfl rfl rfl rfl
    | accepted he hopen henqueue => exact h.offer [] hhand rfl rfl rfl rfl

theorem Ordered.repark (h : d.Ordered config) (hsound : d.Sound config) :
    (d.step (.thread .repark)).Ordered config := by
  rcases d.repark_cases with hs | ⟨t, i, hhand, hs⟩
  · rw [hs]
    exact h
  · have hemptied : Ordered config { d with server.delayed.hand := .empty } :=
      h.ended [] (List.append_nil _).symm rfl (by rw [hhand]; rfl) rfl
    rw [hs]
    exact hemptied.advance_delay hsound.config_eq t i

theorem Ordered.close (h : d.Ordered config) (hsound : d.Sound config) :
    (d.step .close).Ordered config := by
  rcases close_cases hsound.begun with hs | ⟨hsweep, hs⟩ | ⟨p, left, -, -, hs⟩ | ⟨-, -, hs⟩
  · rw [hs]
    exact h
  · have hunswept := h.unswept (hsound.begun hsweep)
    rw [hs]
    refine h.event rfl rfl (by rintro _ _ ⟨⟩) ?_ ?_ (by rintro ⟨⟩)
    · simpa [beginClosing, wakings, offerings, List.filterMap_cons, DelayEvent.waking?,
        DelayEvent.offering?] using h.offered
    · simp only [swept] at hunswept
      simp [beginClosing, wakings, swept, List.filterMap_cons, DelayEvent.waking?,
        DelayEvent.found, hunswept]
  · rw [hs]
    exact h.ended [_] rfl rfl rfl rfl
  · rw [hs]
    exact h.ended [] (List.append_nil _).symm rfl rfl rfl

/-- Every move wakes tasks in time and in order. -/
theorem Ordered.step (h : d.Ordered config) (hsound : d.Sound config) {m : DelayMove}
    (hm : d.Allows m) : (d.step m).Ordered config := by
  rcases m with ⟨t, i⟩ | ⟨- | - | -⟩ | - | s
  · have hgiven : Ordered config { d with given := d.given ++ [t] } :=
      h.ended [] (List.append_nil _).symm rfl rfl rfl
    exact hgiven.advance_delay hsound.config_eq t i
  · exact h.wake
  · exact h.resubmit hsound
  · exact h.repark hsound
  · exact h.close hsound
  · obtain ⟨hdelayed, -⟩ := hm
    exact h.ended [] (List.append_nil _).symm (congrArg DelayList.parked hdelayed)
      (congrArg (fun l => l.hand.due?) hdelayed) (congrArg DelayList.closed hdelayed)

/-- Tasks are woken in time and in order in every run. -/
theorem Reached.ordered (h : Reached config d) : d.Ordered config := by
  induction h with
  | @start s hs =>
    have hnone : (Delaying.start s).wakings ++ (Delaying.start s).server.delayed.parked ++
        (Delaying.start s).swept = [] := by
      simp [Delaying.start, wakings, swept, hs, DelayList.new]
    refine ⟨by rintro _ _ ⟨⟩, by rintro _ _ ⟨⟩, ?_, by rw [hnone]; exact .nil,
      fun _ => hnone.symm, fun _ => rfl⟩
    simp [Delaying.start, wakings, offerings, hs, DelayList.new, Hand.due?]
  | step h hm ih => exact ih.step h.sound hm

/-! ### How delayed tasks end -/

/-- How the executor of the task of this number has answered, in order. -/
def offersOf (d : Delaying) (n : Nat) : List Verdict :=
  (d.dealings n).filterMap Dealing.verdict?

/-- How the task of this number has ended on the list: with which fault it was answered. -/
def endsOf (d : Delaying) (n : Nat) : List (Option Fault) :=
  (d.dealings n).filterMap Dealing.end?

/-- A task that the list has is underway, and the course of another one is over. -/
theorem Sound.course (h : d.Sound config) {t : Task} (ht : t ∈ d.given) :
    (∃ k ∈ d.held,
      Underway config.maxAttempts t.attempts (d.dealings t.serial) k.place k.task.attempts) ∨
      Over config.maxAttempts t.attempts (d.dealings t.serial) := by
  by_cases hheld : ∃ k ∈ d.held, k.task.serial = t.serial
  · obtain ⟨k, hk, hserial⟩ := hheld
    obtain ⟨u, hu, htask, hcourse⟩ := h.underway k hk
    have huk : k.task.serial = u.serial := by rw [htask]
    obtain rfl := h.given_inj hu ht (huk.symm.trans hserial)
    exact Or.inl ⟨k, hk, hcourse⟩
  · exact Or.inr (h.settled t ht fun k hk hserial => hheld ⟨k, hk, hserial⟩)

theorem hand_of_place {k : Held} (hk : k ∈ d.held) (hplace : k.place = .refused) :
    ∃ t i, d.server.delayed.hand = .refused t i := by
  simp only [held, List.mem_append, List.mem_map] at hk
  rcases hk with (⟨p, -, rfl⟩ | hk) | ⟨p, -, rfl⟩
  · simp [Parked.heldAt] at hplace
  · rcases hhand : d.server.delayed.hand with - | p | ⟨t, i⟩
    · simp [hhand, Hand.held] at hk
    · simp only [hhand, Hand.held, List.mem_singleton] at hk
      subst hk
      simp [Parked.heldAt] at hplace
    · exact ⟨t, i, rfl⟩
  · simp [Parked.heldAt] at hplace

theorem left_of_place {k : Held} (hk : k ∈ d.held) (hplace : k.place = .found) :
    d.sweep.left ≠ [] := by
  simp only [held, List.mem_append, List.mem_map] at hk
  rcases hk with (⟨p, -, rfl⟩ | hk) | ⟨p, hp, -⟩
  · simp [Parked.heldAt] at hplace
  · rcases hhand : d.server.delayed.hand with - | p | ⟨t, i⟩ <;>
      simp only [hhand, Hand.held, List.mem_singleton, List.not_mem_nil] at hk <;> subst hk <;>
        simp [Parked.heldAt] at hplace
  · exact List.ne_nil_of_mem hp

/-- A delayed task is offered again at most as often as it has attempts left, and has at most one
end on the list. If its executor accepts it, the list never answers it. If all attempts are
rejected it is answered that the server is busy, as soon as the thread has put it out of its hand;
if its executor is closed, or the list is closed while it is parked, it is answered that the server
stops. Each task that was parked is taken into the hand once, when the delay is over, or is parked
still, or was found by the closing; tasks are offered in the order in which they are taken, and
while the clock does not go back they are taken in the order in which they were parked. -/
theorem delayed_within_budget (h : Reached config d) {t : Task} (ht : t ∈ d.given) :
    let left := config.maxAttempts - t.attempts
    let offers := d.offersOf t.serial
    let ends := d.endsOf t.serial
    (offers.length ≤ left ∧ ends.length ≤ 1 ∧
      (.accepted ∈ offers → ends = []) ∧
      (offers = List.replicate left .rejected →
        (∀ u i, d.server.delayed.hand ≠ .refused u i) →
          ends = [some (busyFault config.maxAttempts)]) ∧
      (.closed ∈ offers → ends = [some stoppingFault]) ∧
      (.found ∈ d.dealings t.serial → d.sweep = .returned → ends = [some stoppingFault])) ∧
      (∀ p nowMs, (p, nowMs) ∈ d.parkings → p.wakeMs = nowMs + config.delayMs) ∧
      (∀ p nowMs, .woken p nowMs ∈ d.log → p.wakeMs ≤ nowMs) ∧
      (d.parkings.map Prod.fst).Perm (d.wakings ++ d.server.delayed.parked ++ d.swept) ∧
      d.offerings <+: d.wakings ∧
      (d.Steady → d.offerings <+: d.parkings.map Prod.fst) := by
  intro left offers ends
  have hordered := h.ordered
  have hprefix : d.offerings <+: d.wakings := by
    rw [hordered.offered]
    exact List.prefix_append _ _
  refine ⟨?_, hordered.delay, hordered.due, hordered.perm, hprefix,
    fun hsteady => hprefix.trans ?_⟩
  · rcases h.sound.course ht with ⟨k, hk, hunderway⟩ | hover
    · obtain ⟨hlength, hends, hrejected, hlast, hfound⟩ := hunderway.outcome
      have hnone : ends = [] := hends
      refine ⟨hlength, by simp [hnone], fun _ => hnone, fun hall hhand => ?_, fun hclosed => ?_,
        fun hswept hreturned => ?_⟩
      · obtain ⟨u, i, hrefused⟩ := hand_of_place hk (hlast hall)
        exact absurd hrefused (hhand u i)
      · simpa using hrejected _ hclosed
      · exact absurd (by rw [hreturned, Sweep.left]) (left_of_place hk (hfound hswept))
    · obtain ⟨hlength, hone, haccepted, hlast, hclosed, hfound⟩ := hover.outcome
      exact ⟨hlength, hone, haccepted, fun hall _ => hlast hall, hclosed,
        fun hswept _ => hfound hswept⟩
  · rw [hordered.fifo hsteady, List.append_assoc]
    exact List.prefix_append _ _

/-- A request with this number, which comes on the first connection. -/
def delayedRequest (n : Nat) : Task :=
  (Task.new ⟨1, 1, 1, .empty⟩ (.ofSignature 1 1 (.ofName "echo") (some .echo) .standard) .empty
    1).numbered n

/-- A delay list with this configuration beside a queue for one task, which is full. -/
def besideFullQueue (config : DelayConfig) : Delaying :=
  start ((Server.new Activity.narrowRegistry config [.new 1 (.v4 0 0) .standard]).submit 0
    (delayedRequest 0)).2

/-- A task with one attempt is parked. -/
def parkedOnce : Delaying :=
  (besideFullQueue ⟨100, 1⟩).step (.add (delayedRequest 1) 0)

/-- The task waits for its time, is rejected once more, and is given up. -/
def wornOut : Delaying :=
  (((parkedOnce.step (.other { parkedOnce.server with nowMs := 100 })).step
    (.thread .wake)).step (.thread .resubmit)).step (.thread .repark)

theorem delayed_within_budget_once :
    Reached ⟨100, 1⟩ wornOut ∧ delayedRequest 1 ∈ wornOut.given ∧
      wornOut.offersOf 1 = [.rejected] ∧ wornOut.endsOf 1 = [some (busyFault 1)] := by
  have hparked : Reached ⟨100, 1⟩ parkedOnce :=
    (Reached.start rfl).step (m := .add (delayedRequest 1) 0) ⟨by decide, by rintro _ ⟨⟩⟩
  have hreached : Reached ⟨100, 1⟩ wornOut :=
    (((hparked.step (m := .other { parkedOnce.server with nowMs := 100 }) ⟨rfl, rfl⟩).step
      (m := .thread .wake) trivial).step (m := .thread .resubmit) trivial).step
      (m := .thread .repark) trivial
  have hgiven : delayedRequest 1 ∈ wornOut.given := List.mem_singleton.mpr rfl
  have hoffers : wornOut.offersOf 1 = [.rejected] := rfl
  have hhand : wornOut.server.delayed.hand = .empty := rfl
  obtain ⟨⟨-, -, -, hbusy, -⟩, -⟩ := delayed_within_budget hreached hgiven
  exact ⟨hreached, hgiven, hoffers, hbusy hoffers (by simp [hhand])⟩

end Delaying

end RemoteCall.Server
