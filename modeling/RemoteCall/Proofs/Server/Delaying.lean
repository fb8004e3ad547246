import RemoteCall.Proofs.Server.Activity

/-!
# The delay list at work

Readers give the delay list the tasks that full queues have refused, its thread offers them to their
executors again, and somebody may close it, all at the same time. The moves of these three follow
each other in any order; the thread is interrupted with a task in its hand, and a closing between
any two tasks that it answers. In between, the rest of the server does what it likes: time passes,
queues fill, drain and close, so executors answer in any way.

A log says what the list has done, and what has become of a task is read off it.

## Main definitions

* `DelayEvent`, `Dealing` : what is taken down, and what of it is about one task.
* `Delaying`, `Delaying.step`, `Delaying.Reached` : the states, the moves and the runs.
* `Delaying.held` : the tasks that are somewhere in the delay list.

## Main results

* `Delaying.advance_delay_cases`, `Delaying.wake_cases`, `Delaying.resubmit_cases`,
  `Delaying.repark_cases`, `Delaying.close_cases` : what each move can do.
-/

namespace RemoteCall.Server

/-! ### What is taken down -/

/-- How an executor answers when it is offered a task. -/
inductive Verdict where
  | accepted
  | rejected
  | closed
  deriving DecidableEq, Repr

/-- The answer without the task that comes back. -/
def Offer.verdict : Offer → Verdict
  | accepted => .accepted
  | rejected _ => .rejected
  | closed _ => .closed

/-- The fault with which a task was refused; `none` if it was run. -/
def TaskEnd.fault? : TaskEnd → Option Fault
  | ran _ => none
  | refused _ fault => some fault

/-- Something that the delay list does. -/
inductive DelayEvent where
  /-- A task is parked, at this time. -/
  | parked (p : Parked) (nowMs : Nat)
  /-- The thread takes a task into its hand, at this time. -/
  | woken (p : Parked) (nowMs : Nat)
  /-- The task in the hand is offered to its executor. -/
  | offered (p : Parked) (v : Verdict)
  /-- The list is closed while these tasks are parked. -/
  | closed (found : List Parked)
  | ended (e : TaskEnd)

/-- What the delay list does to one task. -/
inductive Dealing where
  | parked
  | offered (v : Verdict)
  /-- The list is closed while the task is parked. -/
  | found
  | ended (fault : Option Fault)
  deriving DecidableEq

/-- What an event does to the task of this number. -/
def DelayEvent.dealings (n : Nat) : DelayEvent → List Dealing
  | parked p _ => if p.task.serial = n then [.parked] else []
  | woken _ _ => []
  | offered p v => if p.task.serial = n then [.offered v] else []
  | closed found => if ∃ p ∈ found, p.task.serial = n then [.found] else []
  | ended e => if e.task.serial = n then [.ended e.fault?] else []

namespace DelayEvent

variable (n : Nat) (p : Parked) (nowMs : Nat) (v : Verdict)

@[simp] theorem dealings_parked :
    (parked p nowMs).dealings n = if p.task.serial = n then [.parked] else [] := rfl

@[simp] theorem dealings_woken : (woken p nowMs).dealings n = [] := rfl

@[simp] theorem dealings_offered :
    (offered p v).dealings n = if p.task.serial = n then [.offered v] else [] := rfl

@[simp] theorem dealings_closed (found : List Parked) :
    (closed found).dealings n = if ∃ p ∈ found, p.task.serial = n then [.found] else [] := rfl

@[simp] theorem dealings_refused (t : Task) (fault : Fault) :
    (ended (.refused t fault)).dealings n =
      if t.serial = n then [.ended (some fault)] else [] := rfl

end DelayEvent

/-- The task as it is parked at this time. -/
def DelayList.parking (d : DelayList) (nowMs : Nat) (t : Task) (i : ExecutorIndex) : Parked where
  wakeMs := nowMs + d.config.delayMs
  task := { t with attempts := t.attempts + 1 }
  executor := i

/-- What is taken down when a task is delayed, beside its end. -/
def delayEvents (s : Server) (t : Task) (i : ExecutorIndex) : List DelayEvent :=
  match (s.delayed.add s.nowMs t i).1 with
  | .parked => [.parked (s.delayed.parking s.nowMs t i) s.nowMs]
  | .givenUp | .closed => []

/-- What is taken down at a step of the thread, beside the end of a task. -/
def threadEvents (s : Server) : DelayStep → List DelayEvent
  | .wake =>
    match s.delayed.hand, s.wake.delayed.hand with
    | .empty, .due p => [.woken p s.nowMs]
    | _, _ => []
  | .resubmit =>
    match s.delayed.hand with
    | .due p =>
      match (s.emptyHand.submit p.executor p.task).1 with
      | some offer => [.offered p offer.verdict]
      | none => []
    | _ => []
  | .repark =>
    match s.delayed.hand with
    | .refused t i => { s with delayed.hand := .empty }.delayEvents t i
    | _ => []

/-! ### Closing the list -/

/-- How far the closing of the delay list has come. -/
inductive Sweep where
  | notBegun
  /-- The list is closed; these tasks were parked and are not answered yet. -/
  | answering (left : List Parked)
  | returned

/-- The next step of a closing. What was parked is answered when the thread of the list has emptied
its hand and ended. -/
def Sweep.next (s : Server) : Sweep → Sweep × Server
  | notBegun =>
    let (found, s) := s.takeDelayed
    (answering found, s)
  | answering left =>
    match s.delayed.hand, left with
    | .empty, p :: left => (answering left, s.refuseParked p)
    | .empty, [] => (returned, s)
    | _, _ => (answering left, s)
  | returned => (returned, s)

/-- What is taken down at the next step of a closing, beside the end of a task. -/
def Sweep.events (s : Server) : Sweep → List DelayEvent
  | notBegun => [.closed s.takeDelayed.1]
  | answering _ | returned => []

/-- The tasks that were parked and are not answered yet. -/
def Sweep.left : Sweep → List Parked
  | answering left => left
  | notBegun | returned => []

/-! ### States and moves -/

/-- A server whose delay list is at work. -/
structure Delaying where
  server : Server
  sweep : Sweep
  /-- The tasks that were given to the list, in order. -/
  given : List Task
  log : List DelayEvent

/-- What happens to a delay list. -/
inductive DelayMove where
  /-- A reader gives it a task that this executor has refused. -/
  | add (t : Task) (i : ExecutorIndex)
  | thread (step : DelayStep)
  /-- The closing goes on. -/
  | close
  /-- The rest of the server does something. -/
  | other (s : Server)

namespace Delaying

/-- A server whose delay list has nothing to do. -/
def start (s : Server) : Delaying :=
  { server := s, sweep := .notBegun, given := [], log := [] }

/-- The server becomes another one; events and the tasks that have ended are taken down. -/
def advance (d : Delaying) (s : Server) (events : List DelayEvent) : Delaying :=
  { d with
    server := s
    log := d.log ++ events ++ (s.endings.drop d.server.endings.length).map .ended }

/-- Makes a move. -/
def step (d : Delaying) : DelayMove → Delaying
  | .add t i =>
    { d with given := d.given ++ [t] }.advance (d.server.delay t i) (d.server.delayEvents t i)
  | .thread step => d.advance (d.server.delayThread step) (d.server.threadEvents step)
  | .close =>
    let (sweep, server) := d.sweep.next d.server
    { d with sweep }.advance server (d.sweep.events d.server)
  | .other s => { d with server := s }

/-- The list is closed, and what is parked is found there. -/
def beginClosing (d : Delaying) : Delaying :=
  { d with
    sweep := .answering d.server.delayed.parked
    server := { d.server with delayed.parked := [], delayed.closed := true }
    log := d.log ++ [.closed d.server.delayed.parked] }

/-- The moves that can be made. A task is given to the list once, and the executor that refused it
stays; nobody else changes the list. -/
def Allows (d : Delaying) : DelayMove → Prop
  | .add t i => i < d.server.executors.length ∧ ∀ u ∈ d.given, u.serial ≠ t.serial
  | .thread _ | .close => True
  | .other s =>
    s.delayed = d.server.delayed ∧ s.executors.length = d.server.executors.length

/-- The states of a delay list that starts with this configuration. -/
inductive Reached (config : DelayConfig) : Delaying → Prop
  | start {s : Server} (hs : s.delayed = .new config) : Reached config (start s)
  | step {d : Delaying} (h : Reached config d) {m : DelayMove} (hm : d.Allows m) :
      Reached config (d.step m)

/-- What the list has done to the task of this number. -/
def dealings (d : Delaying) (n : Nat) : List Dealing :=
  d.log.flatMap (DelayEvent.dealings n)

/-! ### Where tasks are -/

end Delaying

/-- Where a task is that the delay list has. -/
inductive Place where
  /-- Parked, or in the hand of the thread and not offered yet. -/
  | waiting
  /-- In the hand of the thread, refused once more. -/
  | refused
  /-- Found parked when the list was closed, and not answered yet. -/
  | found
  deriving DecidableEq, Repr

/-- A task that the delay list has. -/
structure Held where
  place : Place
  task : Task
  executor : ExecutorIndex

/-- A parked task at a place. -/
def Parked.heldAt (place : Place) (p : Parked) : Held :=
  ⟨place, p.task, p.executor⟩

/-- The task in the hand of the thread. -/
def Hand.held : Hand → List Held
  | empty => []
  | due p => [p.heldAt .waiting]
  | refused t i => [⟨.refused, t, i⟩]

namespace Delaying

/-- The tasks that the list has. -/
def held (d : Delaying) : List Held :=
  d.server.delayed.parked.map (Parked.heldAt .waiting) ++ d.server.delayed.hand.held ++
    d.sweep.left.map (Parked.heldAt .found)

/-- The tasks that the list has beside that in the hand of its thread. -/
def besideHand (d : Delaying) : List Held :=
  d.server.delayed.parked.map (Parked.heldAt .waiting) ++ d.sweep.left.map (Parked.heldAt .found)

theorem held_perm (d : Delaying) : d.held.Perm (d.server.delayed.hand.held ++ d.besideHand) := by
  simp only [held, besideHand, List.append_assoc]
  exact List.perm_append_comm_assoc _ _ _

theorem held_of_due {d : Delaying} {p : Parked} (hhand : d.server.delayed.hand = .due p) :
    d.held.Perm (p.heldAt .waiting :: d.besideHand) := by
  simpa [hhand, Hand.held] using d.held_perm

theorem held_of_refused {d : Delaying} {t : Task} {i : ExecutorIndex}
    (hhand : d.server.delayed.hand = .refused t i) :
    d.held.Perm (⟨.refused, t, i⟩ :: d.besideHand) := by
  simpa [hhand, Hand.held] using d.held_perm

/-- An empty hand has nothing beside what is parked or left to be answered. -/
theorem held_of_empty {d : Delaying} (hhand : d.server.delayed.hand = .empty) :
    d.held.Perm d.besideHand := by
  simpa [hhand, Hand.held] using d.held_perm

theorem held_of_answering {d : Delaying} {p : Parked} {left : List Parked}
    (hhand : d.server.delayed.hand = .empty) (hsweep : d.sweep = .answering (p :: left)) :
    d.held.Perm (p.heldAt .found ::
      (d.server.delayed.parked.map (Parked.heldAt .waiting) ++
        left.map (Parked.heldAt .found))) := by
  refine (held_of_empty hhand).trans ?_
  rw [besideHand, hsweep, Sweep.left, List.map_cons]
  exact List.perm_middle

theorem held_of_notBegun {d : Delaying} (hsweep : d.sweep = .notBegun) :
    d.held =
      d.server.delayed.parked.map (Parked.heldAt .waiting) ++ d.server.delayed.hand.held := by
  simp [held, hsweep, Sweep.left]

theorem held_beginClosing (d : Delaying) :
    d.beginClosing.held =
      d.server.delayed.hand.held ++ d.server.delayed.parked.map (Parked.heldAt .found) := by
  simp [beginClosing, held, Sweep.left]

/-- A closing that has answered all tasks returns with none. -/
theorem held_returned {d : Delaying} (hsweep : d.sweep = .answering []) :
    Delaying.held { d with sweep := .returned } = d.held := by
  simp [held, hsweep, Sweep.left]

/-! ### What moves do -/

@[simp] theorem delayed_pause (s : Server) (c : ConnectionId) :
    (s.pause c).delayed = s.delayed := rfl

variable (d : Delaying)

theorem advance_eq {s : Server} (ends : List TaskEnd)
    (h : s.endings = d.server.endings ++ ends) (events : List DelayEvent) :
    d.advance s events =
      { d with server := s, log := d.log ++ events ++ ends.map .ended } := by
  rw [advance, h, List.drop_left]

/-- No task has ended. -/
theorem advance_of_endings {s : Server} (h : s.endings = d.server.endings)
    (events : List DelayEvent) :
    d.advance s events = { d with server := s, log := d.log ++ events } := by
  simp [advance, h]

theorem advance_self : d.advance d.server [] = d := by
  simp [advance]

/-- A task that is delayed is given up, comes too late, or is parked. -/
theorem advance_delay_cases (t : Task) (i : ExecutorIndex) :
    (d.server.delayed.config.maxAttempts ≤ t.attempts ∧
        d.advance (d.server.delay t i) (d.server.delayEvents t i) =
          { d with
            server := (d.server.refuse t
              (busyFault d.server.delayed.config.maxAttempts)).resume t.connection
            log := d.log ++
              [.ended (.refused t (busyFault d.server.delayed.config.maxAttempts))] }) ∨
      (t.attempts < d.server.delayed.config.maxAttempts ∧ d.server.delayed.closed = true ∧
        d.advance (d.server.delay t i) (d.server.delayEvents t i) =
          { d with
            server := d.server.refuse t stoppingFault
            log := d.log ++ [.ended (.refused t stoppingFault)] }) ∨
      (t.attempts < d.server.delayed.config.maxAttempts ∧ d.server.delayed.closed = false ∧
        d.advance (d.server.delay t i) (d.server.delayEvents t i) =
          { d with
            server := { d.server with
              delayed.parked := DelayList.insertParked
                (d.server.delayed.parking d.server.nowMs t i)
                d.server.delayed.parked }.pause t.connection
            log := d.log ++
              [.parked (d.server.delayed.parking d.server.nowMs t i) d.server.nowMs] }) := by
  rcases d.server.delay_cases t i with ⟨hmax, h⟩ | ⟨hlt, hclosed, h⟩ | ⟨hlt, hopen, h⟩
  · have hevents : d.server.delayEvents t i = [] := by simp [delayEvents, DelayList.add, hmax]
    refine Or.inl ⟨hmax, ?_⟩
    rw [h, hevents, d.advance_eq [.refused t _] rfl]
    simp
  · have hnot : ¬d.server.delayed.config.maxAttempts ≤ t.attempts := by omega
    have hevents : d.server.delayEvents t i = [] := by
      simp [delayEvents, DelayList.add, hnot, hclosed]
    refine Or.inr (Or.inl ⟨hlt, hclosed, ?_⟩)
    rw [h, hevents, d.advance_eq [.refused t _] rfl]
    simp
  · have hnot : ¬d.server.delayed.config.maxAttempts ≤ t.attempts := by omega
    have hevents : d.server.delayEvents t i =
        [.parked (d.server.delayed.parking d.server.nowMs t i) d.server.nowMs] := by
      simp [delayEvents, DelayList.add, hnot, hopen]
    refine Or.inr (Or.inr ⟨hlt, hopen, ?_⟩)
    rw [h, hevents, advance_of_endings]
    · rfl
    · rfl

/-- The thread takes the first task into its hand when it is due, or does nothing. -/
theorem wake_cases :
    d.step (.thread .wake) = d ∨ ∃ p rest, d.server.delayed.hand = .empty ∧
      d.server.delayed.parked = p :: rest ∧ d.server.delayed.closed = false ∧
      p.wakeMs ≤ d.server.nowMs ∧
      d.step (.thread .wake) =
        { d with
          server := { d.server with delayed.parked := rest, delayed.hand := .due p }
          log := d.log ++ [.woken p d.server.nowMs] } := by
  rcases d.server.wake_cases with h | ⟨p, rest, hhand, hparked, hopen, h⟩
  · refine Or.inl ?_
    have hevents : d.server.threadEvents .wake = [] := by
      rcases hhand : d.server.delayed.hand with - | p | ⟨t, i⟩ <;> simp [threadEvents, h, hhand]
    have hthread : d.server.delayThread .wake = d.server := h
    rw [step, hthread, hevents, advance_self]
  · refine Or.inr ⟨p, rest, hhand, hparked, hopen, ?_, ?_⟩
    · refine Nat.le_of_not_lt fun hlate => ?_
      have hpop : d.server.wake = d.server := by
        have hnot : ¬p.wakeMs ≤ d.server.nowMs := by omega
        simp [wake, DelayList.pop, hhand, hparked, hnot]
      have hsame := hhand
      rw [← hpop, h] at hsame
      simp at hsame
    · simp [step, advance, delayThread, threadEvents, h, hhand]

/-- What the offering of a due task can do. -/
inductive Resubmitted (p : Parked) : Delaying → Prop
  | closed :
      Resubmitted p
        { d with
          server :=
            (d.server.emptyHand.refuse p.task stoppingFault).resume p.task.connection
          log := d.log ++ [.offered p .closed, .ended (.refused p.task stoppingFault)] }
  | rejected :
      Resubmitted p
        { d with
          server := { d.server.emptyHand with delayed.hand := .refused p.task p.executor }
          log := d.log ++ [.offered p .rejected] }
  | accepted {e : Executor} {policy : OverflowPolicy} {signals : List GateSignal}
      (he : d.server.executors[p.executor]? = some e) (hopen : e.queue.closed = false)
      (henqueue : e.queue.policy.onEnqueue e.queue.size p.task.connection =
        (.accept, policy, signals)) :
      Resubmitted p
        { d with
          server :=
            ((d.server.emptyHand.setExecutor p.executor { e with
              queue := { e.queue with tasks := e.queue.tasks ++ [p.task], policy } }.grow).signalAll
              signals).resume p.task.connection
          log := d.log ++ [.offered p .accepted] }

variable {d}

/-- The thread offers the task in its hand if it is due, or does nothing. -/
theorem resubmit_cases
    (hbound : ∀ p, d.server.delayed.hand = .due p → p.executor < d.server.executors.length) :
    d.step (.thread .resubmit) = d ∨
      ∃ p, d.server.delayed.hand = .due p ∧ d.Resubmitted p (d.step (.thread .resubmit)) := by
  rcases hhand : d.server.delayed.hand with - | p | ⟨t, i⟩
  · exact Or.inl (by simp [step, delayThread, threadEvents, resubmit, hhand, advance_self])
  · refine Or.inr ⟨p, rfl, ?_⟩
    have hi := hbound p hhand
    have he : d.server.emptyHand.executors[p.executor]? = some d.server.executors[p.executor] :=
      List.getElem?_eq_getElem hi
    have hadvance : d.step (.thread .resubmit) = d.advance (d.server.emptyHand.offerAgain p)
        (d.server.threadEvents .resubmit) := by
      simp only [step, delayThread, resubmit, hhand]
    rw [hadvance]
    rcases submit_cases he p.task with ⟨-, h⟩ | ⟨-, -, h⟩ | ⟨policy, signals, hopen, henqueue, h⟩
    · have hevents : d.server.threadEvents .resubmit = [.offered p .closed] := by
        simp only [threadEvents, hhand, h, Offer.verdict]
      have hagain : d.server.emptyHand.offerAgain p =
          (d.server.emptyHand.refuse p.task stoppingFault).resume p.task.connection := by
        simp only [offerAgain, h]
      rw [hagain, hevents, d.advance_eq [.refused p.task stoppingFault] rfl,
        List.append_assoc]
      exact .closed
    · have hevents : d.server.threadEvents .resubmit = [.offered p .rejected] := by
        simp only [threadEvents, hhand, h, Offer.verdict]
      have hagain : d.server.emptyHand.offerAgain p =
          { d.server.emptyHand with delayed.hand := .refused p.task p.executor } := by
        simp only [offerAgain, h]
      rw [hagain, hevents, advance_of_endings]
      · exact .rejected
      · rfl
    · have hevents : d.server.threadEvents .resubmit = [.offered p .accepted] := by
        simp only [threadEvents, hhand, h, Offer.verdict]
      simp only [offerAgain, h]
      rw [hevents, advance_of_endings]
      · exact .accepted he hopen henqueue
      · rfl
  · exact Or.inl (by simp [step, delayThread, threadEvents, resubmit, hhand, advance_self])

/-- The thread delays the task in its hand if it was refused, or does nothing. -/
theorem repark_cases (d : Delaying) :
    d.step (.thread .repark) = d ∨
      ∃ t i, d.server.delayed.hand = .refused t i ∧
        let emptied : Delaying := { d with server.delayed.hand := .empty }
        d.step (.thread .repark) =
          emptied.advance (emptied.server.delay t i) (emptied.server.delayEvents t i) := by
  rcases hhand : d.server.delayed.hand with - | p | ⟨t, i⟩
  · exact Or.inl (by simp [step, delayThread, threadEvents, repark, hhand, advance_self])
  · exact Or.inl (by simp [step, delayThread, threadEvents, repark, hhand, advance_self])
  · exact Or.inr ⟨t, i, rfl,
      by simp [step, advance, delayThread, threadEvents, repark, hhand]⟩

/-- A closing takes what is parked, answers what it has taken one by one while the thread has
nothing in its hand, and returns. -/
theorem close_cases (hbegun : d.sweep = .notBegun → d.server.delayed.closed = false) :
    d.step .close = d ∨
      (d.sweep = .notBegun ∧ d.step .close = d.beginClosing) ∨
      (∃ p left, d.sweep = .answering (p :: left) ∧ d.server.delayed.hand = .empty ∧
        d.step .close =
          { d with
            sweep := .answering left
            server := (d.server.resume p.task.connection).refuse p.task stoppingFault
            log := d.log ++ [.ended (.refused p.task stoppingFault)] }) ∨
      (d.sweep = .answering [] ∧ d.server.delayed.hand = .empty ∧
        d.step .close = { d with sweep := .returned }) := by
  obtain ⟨s, sweep, given, log⟩ := d
  rcases sweep with - | left | -
  · have hopen : s.delayed.closed = false := hbegun rfl
    refine Or.inr (Or.inl ⟨rfl, ?_⟩)
    simp [step, advance, Sweep.next, Sweep.events, takeDelayed, DelayList.close, beginClosing,
      hopen]
  · rcases hhand : s.delayed.hand with - | p | ⟨t, i⟩
    · rcases left with - | ⟨p, left⟩
      · refine Or.inr (Or.inr (Or.inr ⟨rfl, rfl, ?_⟩))
        simp [step, advance, hhand, Sweep.next, Sweep.events]
      · refine Or.inr (Or.inr (Or.inl ⟨p, left, rfl, rfl, ?_⟩))
        simp only [step, hhand, Sweep.next, Sweep.events, refuseParked]
        rw [advance_eq _ [.refused p.task stoppingFault] rfl, List.append_nil]
        rfl
    · exact Or.inl (by simp [step, advance, hhand, Sweep.next, Sweep.events])
    · exact Or.inl (by simp [step, advance, hhand, Sweep.next, Sweep.events])
  · exact Or.inl (by simp [step, advance, Sweep.next, Sweep.events])

end Delaying

end RemoteCall.Server
