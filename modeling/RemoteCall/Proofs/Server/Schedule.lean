import RemoteCall.Proofs.Server.Activity

/-!
# One of the runs

`Server.settle`, `Server.wakeNext` and `Server.shutdown` let a server work in one order of its
steps. Each of them is a run of the server at work, so what holds after every run holds of the
servers that they give.

## Main results

* `Activity.reaches_settle`, `Activity.reaches_wakeNext` : the threads alone.
* `Activity.reaches_shutdown` : a whole shutdown.
-/

namespace RemoteCall.Server

variable {s s' : Server}

/-! ### Threads that work -/

/-- Whatever a thread does without waiting is one of its steps. -/
theorem advance?_eq_some {i : ExecutorIndex} {e : Executor} {w : Nat}
    (h : s.advance? i e w = some s') : ∃ step, s.thread i w step = s' := by
  unfold advance? at h
  split at h
  · split at h
    · cases h
    · exact ⟨.take, Option.some.inj h⟩
  · exact ⟨.begin, Option.some.inj h⟩
  · split at h
    · exact ⟨.finish, Option.some.inj h⟩
    · cases h
  · exact ⟨.rest, Option.some.inj h⟩
  · exact ⟨.leave, Option.some.inj h⟩
  · cases h

theorem advanceFirst?_eq_some (h : s.advanceFirst? = some s') :
    ∃ i w step, s.thread i w step = s' := by
  obtain ⟨⟨e, i⟩, -, hfirst⟩ := List.exists_of_findSome?_eq_some h
  obtain ⟨w, -, hworker⟩ := List.exists_of_findSome?_eq_some hfirst
  exact ⟨i, w, advance?_eq_some hworker⟩

namespace Activity

variable {a : Activity} {p p' : Shutdown}

/-- Some moves bring the shutdown and the server to these states and change nothing else. -/
def Reaches (a : Activity) (shutdown : Shutdown) (server : Server) : Prop :=
  ∃ moves, a.run moves = { a with shutdown, server }

theorem Reaches.refl (a : Activity) : a.Reaches a.shutdown a.server := ⟨[], rfl⟩

theorem Reaches.trans (h : a.Reaches p s)
    (h' : { a with shutdown := p, server := s }.Reaches p' s') : a.Reaches p' s' := by
  obtain ⟨moves, h⟩ := h
  obtain ⟨moves', h'⟩ := h'
  refine ⟨moves ++ moves', ?_⟩
  rw [run_append, h, h']

theorem reaches_settleUpTo (a : Activity) (fuel : Nat) :
    a.Reaches a.shutdown (a.server.settleUpTo fuel) := by
  induction fuel generalizing a with
  | zero => exact .refl a
  | succ fuel ih =>
    unfold settleUpTo
    split
    · exact .refl a
    · rename_i s hfirst
      obtain ⟨i, w, step, rfl⟩ := advanceFirst?_eq_some hfirst
      have hstep : a.Reaches a.shutdown (a.server.thread i w step) := ⟨[.thread i w step], rfl⟩
      exact hstep.trans (ih _)

/-- Letting the threads do all they can without waiting is a run. -/
theorem reaches_settle (a : Activity) : a.Reaches a.shutdown a.server.settle :=
  a.reaches_settleUpTo _

/-- Letting time pass until a delayed task is due is a run. -/
theorem reaches_wakeNext (a : Activity) : a.Reaches a.shutdown a.server.wakeNext := by
  unfold wakeNext
  split
  · exact .refl a
  · rename_i wakeMs _
    have hlater : a.Reaches a.shutdown
        { a.server with nowMs := max a.server.nowMs wakeMs }.wake.resubmit.repark := by
      refine ⟨[.elapse (wakeMs - a.server.nowMs), .delayThread .wake, .delayThread .resubmit,
        .delayThread .repark], ?_⟩
      have hnow : a.server.nowMs + (wakeMs - a.server.nowMs) = max a.server.nowMs wakeMs := by
        omega
      simp only [run, List.foldl_cons, List.foldl_nil, step, delayThread, hnow]
    exact hlater.trans (reaches_settle _)

/-! ### A shutdown -/

/-- One step of the shutdown. -/
theorem reaches_next (a : Activity) :
    a.Reaches (a.shutdown.next a.server).1 (a.shutdown.next a.server).2 :=
  ⟨[.shutdown], rfl⟩

/-- Answering what was parked. -/
theorem reaches_refuseParked {parked : List Parked} (ha : a.shutdown = .answering parked)
    (hhand : a.server.delayed.hand = .empty) :
    a.Reaches (.answering []) (parked.foldl refuseParked a.server) := by
  induction parked generalizing a with
  | nil =>
    have hrefl := Reaches.refl a
    rw [ha] at hrefl
    exact hrefl
  | cons q parked ih =>
    have hnext := a.reaches_next
    simp only [ha, Shutdown.next, hhand] at hnext
    exact hnext.trans (ih rfl hhand)

theorem length_drain (s : Server) (i : ExecutorIndex) :
    (s.drain i).2.executors.length = s.executors.length := by
  unfold drain
  split
  · rfl
  · exact List.length_set

/-- Taking what is left off the queues, one after another. -/
theorem reaches_drainFirst (ha : a.shutdown = .draining 0 []) {n : Nat}
    (hn : n ≤ a.server.executors.length) :
    a.Reaches (.draining n (a.server.drainFirst n).1) (a.server.drainFirst n).2 ∧
      (a.server.drainFirst n).2.executors.length = a.server.executors.length := by
  induction n with
  | zero =>
    have hrefl := Reaches.refl a
    rw [ha] at hrefl
    exact ⟨hrefl, rfl⟩
  | succ n ih =>
    obtain ⟨hreaches, hlength⟩ := ih (Nat.le_of_succ_le hn)
    have hnext := reaches_next
      { a with
        shutdown := .draining n (a.server.drainFirst n).1
        server := (a.server.drainFirst n).2 }
    have hlt : n < (a.server.drainFirst n).2.executors.length := by omega
    simp only [Shutdown.next, if_pos hlt] at hnext
    exact ⟨hreaches.trans hnext, (length_drain _ n).trans hlength⟩

/-- Answering what was left. -/
theorem reaches_refuseAll {left : List Task} (ha : a.shutdown = .refusing left) :
    a.Reaches (.refusing []) (a.server.refuseAll left) := by
  induction left generalizing a with
  | nil =>
    have hrefl := Reaches.refl a
    rw [ha] at hrefl
    exact hrefl
  | cons t left ih =>
    have hnext := a.reaches_next
    simp only [ha, Shutdown.next] at hnext
    exact hnext.trans (ih rfl)

/-- Neither closing the delay list nor answering what was parked puts a task into the hand of the
thread of the list. -/
theorem hand_closeDelayed (hhand : s.delayed.hand = .empty) :
    s.takeDelayed.2.delayed.hand = .empty ∧ s.closeDelayed.delayed.hand = .empty := by
  have htake : s.takeDelayed.2.delayed.hand = .empty := by
    show s.delayed.close.2.hand = .empty
    rw [DelayList.close]
    split <;> exact hhand
  refine ⟨htake, ?_⟩
  have hrefuse (parked : List Parked) (r : Server) :
      (parked.foldl refuseParked r).delayed = r.delayed := by
    induction parked generalizing r with
    | nil => rfl
    | cons q parked ih => exact ih _
  show (List.foldl refuseParked s.takeDelayed.2 s.takeDelayed.1).delayed.hand = .empty
  rw [hrefuse, htake]

/-- A whole shutdown is a run that ends when the shutdown has returned. -/
theorem reaches_shutdown (ha : a.shutdown = .notBegun) (hserving : a.server.stopping = false)
    (hhand : a.server.delayed.hand = .empty) : a.Reaches .returned a.server.shutdown.2 := by
  obtain ⟨htaken, hclosed⟩ := hand_closeDelayed (s := a.server.stop) hhand
  have hstop : a.Reaches .begun a.server.stop := by
    have hnext := a.reaches_next
    simpa only [ha, Shutdown.next] using hnext
  have hlist : a.Reaches (.answering []) a.server.stop.closeDelayed :=
    (hstop.trans (reaches_next _)).trans (reaches_refuseParked rfl htaken)
  have hexecutors : a.Reaches (.draining 0 []) a.server.stop.closeDelayed.closeExecutors := by
    have hnext := reaches_next
      { a with shutdown := .answering [], server := a.server.stop.closeDelayed }
    simp only [Shutdown.next, hclosed] at hnext
    exact hlist.trans hnext
  have hsettled := hexecutors.trans (reaches_settle _)
  have hshutdown (r : Server) (hr : a.server.stop.closeDelayed.closeExecutors.settle = r) :
      a.server.shutdown.2 = (r.drainAll.2.refuseAll r.drainAll.1).settle := by
    rw [Server.shutdown, if_neg (by simp [hserving]), hr]
  generalize hs : a.server.stop.closeDelayed.closeExecutors.settle = s at hsettled
  rw [hshutdown s hs]
  obtain ⟨hdrained, hlength⟩ := reaches_drainFirst (n := s.executors.length)
    (a := { a with shutdown := .draining 0 [], server := s }) rfl (Nat.le_refl _)
  have hrefusing : a.Reaches (.refusing s.drainAll.1) s.drainAll.2 := by
    have hnext := reaches_next { a with
      shutdown := .draining s.executors.length s.drainAll.1, server := s.drainAll.2 }
    have hdone : ¬s.executors.length < s.drainAll.2.executors.length := by
      rw [drainAll, hlength]
      exact Nat.lt_irrefl _
    simp only [Shutdown.next, if_neg hdone] at hnext
    exact (hsettled.trans hdrained).trans hnext
  have hrefused := hrefusing.trans (reaches_refuseAll rfl)
  exact (hrefused.trans (reaches_next _)).trans (reaches_settle _)

end Activity

end RemoteCall.Server
