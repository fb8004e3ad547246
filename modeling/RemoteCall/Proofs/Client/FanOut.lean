import RemoteCall.Proofs.Client.Places
import RemoteCall.Proofs.Counting

/-!
# How many connections a pool has

A pool at an address begins with one connection and opens the others when it knows the weight of its
service. There are two reasons for it to do so: the service is known when the first connection is
there, or a description of the service arrives. Each of them makes the pool open its further
connections at most once, as the start of a pool is one task and a description that arrives settles
the number of connections. But nothing keeps the two apart: a pool that has opened its connections
at the start does so once more when a server describes itself.

## Main definitions

* `Activity.slotsOf`, `Activity.fanOutsOf` : the slots and fan-outs that were begun for a pool.
* `Activity.Provided` : what is known about them.
-/

namespace RemoteCall.Client

/-! ### Attaches and fan-outs of a pool -/

/-- The slot that a task for the pool connects. -/
def Job.slot? (p : PoolId) : Job → Option Slot
  | attach q slot => if q = p then some slot else none
  | _ => none

/-- The fan-out of the pool that a task is for. -/
def Job.fanOut? (p : PoolId) : Job → Option FanOut
  | fanOut f => if f.pool = p then some f else none
  | _ => none

/-- The task begins at most the planning of reconnects. -/
def Job.isQuiet : Job → Bool
  | connect _ _ | describe _ => false
  | _ => true

namespace Activity

/-- The slots that were to be connected for the pool so far, in order. -/
def slotsOf (a : Activity) (p : PoolId) : List Slot :=
  a.tasks.filterMap fun t => t.job.slot? p

/-- The fan-outs of the pool so far, in order. -/
def fanOutsOf (a : Activity) (p : PoolId) : List FanOut :=
  a.tasks.filterMap fun t => t.job.fanOut? p

variable {a : Activity} {c : Client} {t : Task} {k : TaskId} {e : Effect} {p : PoolId}
  {address : SocketAddress}

/-- Tasks are added, and the others stay what they are for. -/
theorem filterMap_job_perform {β : Type} (g : Job → Option β) (ht : a.tasks[k]? = some t)
    (hjob : e.task.job = t.job) :
    (a.perform k e).tasks.filterMap (fun t => g t.job) =
      (a.tasks.filterMap fun t => g t.job) ++ e.begun.filterMap fun t => g t.job := by
  have hset : (a.tasks.set k e.task).map Task.job = a.tasks.map Task.job := by
    rw [List.map_set, hjob]
    refine List.ext_getElem? fun i => ?_
    by_cases hik : k = i
    · subst hik
      have hk : k < (a.tasks.map Task.job).length := by
        rw [List.length_map]
        exact (List.getElem?_eq_some_iff.mp ht).1
      rw [List.getElem?_set_self hk, List.getElem?_map, ht]
      rfl
    · rw [List.getElem?_set_ne hik]
  have hmap (ts : List Task) : ts.filterMap (fun t => g t.job) = (ts.map Task.job).filterMap g :=
    (List.filterMap_map ..).symm
  rw [perform, List.filterMap_append, hmap, hset, ← hmap]

theorem slotsOf_perform (ht : a.tasks[k]? = some t) (hjob : e.task.job = t.job) (p : PoolId) :
    (a.perform k e).slotsOf p = a.slotsOf p ++ e.begun.filterMap fun t => t.job.slot? p :=
  filterMap_job_perform (Job.slot? p) ht hjob

theorem fanOutsOf_perform (ht : a.tasks[k]? = some t) (hjob : e.task.job = t.job) (p : PoolId) :
    (a.perform k e).fanOutsOf p = a.fanOutsOf p ++ e.begun.filterMap fun t => t.job.fanOut? p :=
  filterMap_job_perform (Job.fanOut? p) ht hjob

theorem filterMap_slot?_attaches (p : PoolId) (slots : List Slot) :
    (attaches p slots).filterMap (fun t => t.job.slot? p) = slots := by
  induction slots with
  | nil => rfl
  | cons slot slots ih =>
    have hself : (Task.attach p slot .connecting).job.slot? p = some slot := if_pos rfl
    rw [attaches, List.map_cons, List.filterMap_cons, hself]
    exact congrArg (slot :: ·) ih

theorem filterMap_fanOut?_attaches (p q : PoolId) (slots : List Slot) :
    (attaches q slots).filterMap (fun t => t.job.fanOut? p) = [] := by
  simp [attaches, Task.job, Job.fanOut?]

theorem mem_slotsOf {slot : Slot} {s : Attaching} (h : .attach p slot s ∈ a.tasks) :
    slot ∈ a.slotsOf p :=
  List.mem_filterMap.mpr ⟨_, h, if_pos rfl⟩

theorem mem_fanOutsOf {f : FanOut} :
    f ∈ a.fanOutsOf p ↔ f.pool = p ∧ ∃ ks ended, .fanOut f ks ended ∈ a.tasks := by
  rw [fanOutsOf, List.mem_filterMap]
  constructor
  · rintro ⟨t, ht, hf⟩
    cases t with
    | fanOut f' ks ended =>
      rw [Task.job, Job.fanOut?] at hf
      split at hf
      · rename_i hpool
        cases hf
        exact ⟨hpool, ks, ended, ht⟩
      · cases hf
    | _ => cases hf
  · rintro ⟨rfl, ks, ended, ht⟩
    exact ⟨_, ht, if_pos rfl⟩

/-- A step of a task changes a count of tasks by the task itself and by those that it begins. -/
theorem countP_perform (P : Task → Bool) (ht : a.tasks[k]? = some t) :
    (a.perform k e).tasks.countP P + (P t).toNat =
      a.tasks.countP P + (P e.task).toNat + e.begun.countP P := by
  have hset := countP_flatMap_set P (fun u => [u]) e.task ht
  have hone (u : Task) : [u].countP P = (P u).toNat := by
    rw [List.countP_singleton]
    cases P u <;> rfl
  rw [List.flatMap_singleton', List.flatMap_singleton', hone, hone] at hset
  rw [perform, List.countP_append]
  omega

/-- Of two tasks that count at most once together only one is there. -/
theorem eq_of_countP_le_one {α : Type} {P : α → Bool} {xs : List α} {x y : α}
    (h : xs.countP P ≤ 1) (hx : x ∈ xs) (hy : y ∈ xs) (hPx : P x = true) (hPy : P y = true) :
    x = y := by
  rw [List.countP_eq_length_filter] at h
  have hx' : x ∈ xs.filter P := List.mem_filter.mpr ⟨hx, hPx⟩
  have hy' : y ∈ xs.filter P := List.mem_filter.mpr ⟨hy, hPy⟩
  match hfilter : xs.filter P with
  | [] =>
    rw [hfilter] at hx'
    cases hx'
  | [z] =>
    rw [hfilter] at hx' hy'
    rw [List.mem_singleton.mp hx', List.mem_singleton.mp hy']
  | z :: w :: zs =>
    rw [hfilter] at h
    simp at h

end Activity

/-- The task is the start of the pool, or the fan-out that the start has begun. -/
def Task.starts (p : PoolId) : Task → Bool
  | connect _ _ s => s.starting? == some p
  | fanOut f _ _ => f.pool == p && f.cause == .start
  | _ => false

namespace Activity

/-- The slots of a pool at an address are the first one and those of its fan-outs. The pool is
started once, and fans out at most once because of a description. -/
structure Provided (a : Activity) (p : PoolId) (address : SocketAddress) : Prop where
  slots : a.slotsOf p = [] ∧ a.fanOutsOf p = [] ∨
    a.slotsOf p = ⟨address, 0, false, []⟩ ::
      (a.fanOutsOf p).flatMap fun f => furtherSlots address f.weight
  start : a.tasks.countP (Task.starts p) ≤ 1
  described : (a.fanOutsOf p).countP (fun f => f.cause == .description) ≤ 1
  settled : ∀ f ∈ a.fanOutsOf p, f.cause = .description → a.client.isFannedOut p = true
  registered : ∀ service location, .connect service location (.registered p) ∈ a.tasks →
    a.slotsOf p = []
  attaching : ∀ service location ks, .connect service location (.attaching p ks) ∈ a.tasks →
    a.slotsOf p ≠ []
  /-- Connections come from attaches. -/
  homes : ∀ home ∈ a.homes, home.pool = p → a.slotsOf p ≠ []
  understood : ∀ address weight, .describe p (.understood address weight) ∈ a.tasks →
    a.slotsOf p ≠ []

variable {a : Activity} {t : Task} {k : TaskId} {e : Effect} {p : PoolId}
  {address : SocketAddress}

namespace Provided

/-- The slots of the pool have its address, come from no directory and know no positions. -/
theorem mem_slotsOf (h : a.Provided p address) {slot : Slot} (hslot : slot ∈ a.slotsOf p) :
    slot.address = address ∧ slot.discovered = false ∧ slot.positions = [] := by
  rcases h.slots with ⟨hnone, -⟩ | hslots
  · rw [hnone] at hslot
    cases hslot
  · rw [hslots] at hslot
    rcases List.mem_cons.mp hslot with rfl | hslot
    · exact ⟨rfl, rfl, rfl⟩
    · obtain ⟨f, -, hslot⟩ := List.mem_flatMap.mp hslot
      obtain ⟨i, -, rfl⟩ := List.mem_map.mp hslot
      exact ⟨rfl, rfl, rfl⟩

/-- The pool fans out at most once because of its start. -/
theorem countP_start_le_one (h : a.Provided p address) :
    (a.fanOutsOf p).countP (fun f => f.cause == .start) ≤ 1 := by
  refine Nat.le_trans ?_ h.start
  rw [fanOutsOf, List.countP_filterMap]
  refine List.countP_mono_left fun t _ hstart => ?_
  cases t with
  | fanOut f ks ended =>
    rw [Task.job, Job.fanOut?] at hstart
    by_cases hpool : f.pool = p
    · simpa [hpool, Task.starts] using hstart
    · simp [hpool] at hstart
  | _ => cases hstart

section Unknown

variable (h : a.Placed) (hp : a.client.location? p = none)

include h hp

theorem slotsOf_of_unknown : a.slotsOf p = [] := by
  refine List.filterMap_eq_nil_iff.mpr fun t ht => ?_
  cases t with
  | attach q slot s =>
    refine if_neg ?_
    rintro rfl
    have hsome := (h.placed _ ht).1.isSome
    rw [hp] at hsome
    cases hsome
  | _ => rfl

theorem countP_starts_of_unknown : a.tasks.countP (Task.starts p) = 0 := by
  refine List.countP_eq_zero.mpr fun t ht hstarts => ?_
  have hsome : (a.client.location? p).isSome = true := by
    cases t with
    | connect service location s => exact h.placed _ ht p (by simpa [Task.starts] using hstarts)
    | fanOut f ks ended =>
      simp only [Task.starts, Bool.and_eq_true, beq_iff_eq] at hstarts
      exact hstarts.1 ▸ (h.placed _ ht).1
    | _ => cases hstarts
  rw [hp] at hsome
  cases hsome

/-- Nothing has happened for a pool that is not there. -/
theorem of_unknown (address : SocketAddress) : a.Provided p address := by
  have hunknown : ¬(a.client.location? p).isSome = true := by simp [hp]
  have hslots := slotsOf_of_unknown h hp
  have hfanOuts : a.fanOutsOf p = [] := by
    refine List.eq_nil_iff_forall_not_mem.mpr fun f hf => ?_
    obtain ⟨rfl, ks, ended, ht⟩ := mem_fanOutsOf.mp hf
    exact hunknown (h.placed _ ht).1
  refine ⟨Or.inl ⟨hslots, hfanOuts⟩, (countP_starts_of_unknown h hp).trans_le (Nat.zero_le 1),
    ?_, ?_, ?_, ?_, ?_, ?_⟩
  · rw [hfanOuts]
    exact Nat.zero_le 1
  · rw [hfanOuts]
    exact List.forall_mem_nil _
  · exact fun _ _ _ => hslots
  · exact fun _ _ _ ht => (hunknown (h.placed _ ht p rfl)).elim
  · rintro home hhome rfl
    obtain ⟨l, hl⟩ := List.mem_iff_getElem?.mp hhome
    obtain ⟨slot, hslot⟩ := exists_slot? (h.lt_of_home hl)
    exact (hunknown (h.suits l home slot hl hslot).isSome).elim
  · exact fun _ _ ht => (hunknown (h.placed _ ht).1.isSome).elim

end Unknown

end Provided

/-- What a step of a task adds to the slots and fan-outs of a pool at an address. -/
inductive Adds (a : Activity) (p : PoolId) (address : SocketAddress) (e : Effect) :
    List Slot → List FanOut → Prop
  | nothing : Adds a p address e [] []
  /-- The pool is started. -/
  | first {service location : String} {ks : List TaskId} (hnone : a.slotsOf p = [])
    (htask : e.task = .connect service location (.attaching p ks)) :
    Adds a p address e [⟨address, 0, false, []⟩] []
  | fanOut {f : FanOut} (hsome : a.slotsOf p ≠ [])
    (hsettled : f.cause = .description →
      a.client.isFannedOut p = false ∧ e.client.isFannedOut p = true) :
    Adds a p address e (furtherSlots address f.weight) [f]

namespace Adds

variable {slots : List Slot} {fanOuts : List FanOut}

theorem slots_eq (hadds : a.Adds p address e slots fanOuts) (h : a.Provided p address) :
    a.slotsOf p ++ slots = [] ∧ a.fanOutsOf p ++ fanOuts = [] ∨
      a.slotsOf p ++ slots = ⟨address, 0, false, []⟩ ::
        (a.fanOutsOf p ++ fanOuts).flatMap fun f => furtherSlots address f.weight := by
  cases hadds with
  | nothing =>
    rw [List.append_nil, List.append_nil]
    exact h.slots
  | first hnone =>
    rcases h.slots with ⟨-, hfanOuts⟩ | hslots
    · rw [hnone, hfanOuts]
      exact Or.inr rfl
    · rw [hnone] at hslots
      cases hslots
  | fanOut hsome =>
    rcases h.slots with ⟨hnone, -⟩ | hslots
    · exact (hsome hnone).elim
    · rw [hslots, List.flatMap_append, List.flatMap_singleton]
      exact Or.inr rfl

/-- A description settles the number of connections once. -/
theorem countP_description_le_one (hadds : a.Adds p address e slots fanOuts)
    (h : a.Provided p address) :
    (a.fanOutsOf p ++ fanOuts).countP (fun f => f.cause == .description) ≤ 1 := by
  rw [List.countP_append]
  cases hadds with
  | nothing => exact h.described
  | first => exact h.described
  | @fanOut f hsome hsettled =>
    by_cases hcause : f.cause = .description
    · have hnone : (a.fanOutsOf p).countP (fun f => f.cause == .description) = 0 := by
        refine List.countP_eq_zero.mpr fun g hg hgcause => ?_
        have hset := h.settled g hg (by simpa using hgcause)
        exact Bool.false_ne_true ((hsettled hcause).1.symm.trans hset)
      rw [hnone, List.countP_singleton, if_pos (by simpa using hcause)]
    · rw [List.countP_singleton, if_neg (by simpa using hcause)]
      exact h.described

theorem isFannedOut (hadds : a.Adds p address e slots fanOuts) (h : a.Provided p address)
    (hsteady : Steady a.client e.client) :
    ∀ f ∈ a.fanOutsOf p ++ fanOuts, f.cause = .description → e.client.isFannedOut p = true := by
  intro f hf hcause
  rcases List.mem_append.mp hf with hf | hf
  · exact hsteady.isFannedOut p (h.settled f hf hcause)
  · cases hadds with
    | nothing => cases hf
    | first => cases hf
    | fanOut hsome hsettled =>
      obtain rfl := List.mem_singleton.mp hf
      exact (hsettled hcause).2

/-- A start that is only registered has no slots, since no other one goes on. -/
theorem slots_of_registered (hadds : a.Adds p address e slots fanOuts) (h : a.Provided p address)
    (ht : a.tasks[k]? = some t)
    (hcount : (a.perform k e).tasks.countP (Task.starts p) ≤ 1) {service location : String}
    (hold : .connect service location (.registered p) ∈ a.tasks)
    (hu : .connect service location (.registered p) ∈ (a.perform k e).tasks) :
    a.slotsOf p ++ slots = [] := by
  have hnone := h.registered service location hold
  cases hadds with
  | nothing => rw [hnone, List.append_nil]
  | first _ htask =>
    -- this start and the one that goes on would be two
    have hsame := eq_of_countP_le_one hcount hu (task_mem_perform ht)
      (by simp [Task.starts, Connecting.starting?])
      (by rw [htask]; simp [Task.starts, Connecting.starting?])
    rw [htask] at hsame
    cases hsame
  | fanOut hsome => exact (hsome hnone).elim

end Adds

namespace Provided

/-- A task makes a step, and the slots and fan-outs of the pool become more or stay. -/
theorem perform (h : a.Provided p address) (ht : a.tasks[k]? = some t)
    (hsteady : Steady a.client e.client) {slots : List Slot} {fanOuts : List FanOut}
    (hslotsOf : (a.perform k e).slotsOf p = a.slotsOf p ++ slots)
    (hfanOutsOf : (a.perform k e).fanOutsOf p = a.fanOutsOf p ++ fanOuts)
    (hadds : a.Adds p address e slots fanOuts)
    (hcount : (a.perform k e).tasks.countP (Task.starts p) ≤ 1)
    (hconnect : ∀ service location s, e.task = .connect service location s →
      s.starting? = some p → e.task ∈ a.tasks ∨
        (∃ ks, s = .attaching p ks) ∧ (a.perform k e).slotsOf p ≠ [] ∨
        s = .registered p ∧ (a.perform k e).slotsOf p = [])
    (hhomes : ∀ home ∈ e.homes, home.pool = p → a.slotsOf p ≠ [])
    (hunderstood : ∀ address weight, e.task = .describe p (.understood address weight) →
      a.slotsOf p ≠ [])
    (hbegun : ∀ u ∈ e.begun, IsFresh u) : (a.perform k e).Provided p address := by
  have hgrows (hne : a.slotsOf p ≠ []) : (a.perform k e).slotsOf p ≠ [] := by
    rw [hslotsOf]
    exact List.append_ne_nil_of_left_ne_nil hne slots
  have hmem {u : Task} (hu : u ∈ (a.perform k e).tasks) (hfresh : ¬IsFresh u) :
      u ∈ a.tasks ∨ u = e.task := by
    rcases mem_perform hu with hu | hu | hu
    · exact Or.inl hu
    · exact Or.inr hu
    · exact (hfresh (hbegun u hu)).elim
  refine ⟨?_, hcount, ?_, ?_, ?_, ?_, ?_, ?_⟩
  · rw [hslotsOf, hfanOutsOf]
    exact hadds.slots_eq h
  · rw [hfanOutsOf]
    exact hadds.countP_description_le_one h
  · rw [hfanOutsOf]
    exact hadds.isFannedOut h hsteady
  · intro service location hu
    have hregistered (hold : .connect service location (.registered p) ∈ a.tasks) :
        (a.perform k e).slotsOf p = [] :=
      hslotsOf.trans (hadds.slots_of_registered h ht hcount hold hu)
    rcases hmem hu id with hold | hself
    · exact hregistered hold
    · rcases hconnect service location _ hself.symm rfl with hold | ⟨⟨ks, hks⟩, -⟩ | ⟨-, hnone⟩
      · exact hregistered (hself ▸ hold)
      · cases hks
      · exact hnone
  · intro service location ks hu
    rcases hmem hu id with hold | hself
    · exact hgrows (h.attaching service location ks hold)
    · rcases hconnect service location _ hself.symm rfl with hold | ⟨-, hsome⟩ | ⟨hstage, -⟩
      · exact hgrows (h.attaching service location ks (hself ▸ hold))
      · exact hsome
      · cases hstage
  · intro home hhome hpool
    rcases List.mem_append.mp hhome with hhome | hhome
    · exact hgrows (h.homes home hhome hpool)
    · exact hgrows (hhomes home hhome hpool)
  · intro address weight hu
    rcases hmem hu id with hold | hself
    · exact hgrows (h.understood address weight hold)
    · exact hgrows (hunderstood address weight hself.symm)

/-- The pool is started by one task as before. -/
theorem countP_le_one (h : a.Provided p address) (ht : a.tasks[k]? = some t)
    (hstarts : (e.task.starts p).toNat + e.begun.countP (Task.starts p) ≤ (t.starts p).toNat) :
    (a.perform k e).tasks.countP (Task.starts p) ≤ 1 := by
  have hperform := countP_perform (Task.starts p) ht (e := e)
  have hold := h.start
  omega

/-- A task makes a step that begins nothing for the pool. -/
theorem quiet (h : a.Provided p address) (ht : a.tasks[k]? = some t)
    (hsteady : Steady a.client e.client) (hjob : e.task.job = t.job)
    (hstarting : ∀ service location s, e.task = .connect service location s →
      s.starting? = some p → e.task = t)
    (hhomes : ∀ home ∈ e.homes, home.pool = p → a.slotsOf p ≠ [])
    (hunderstood : ∀ address weight, e.task = .describe p (.understood address weight) →
      a.slotsOf p ≠ [])
    (hbegun : ∀ u ∈ e.begun, IsFresh u ∧ u.job.slot? p = none ∧ u.job.fanOut? p = none) :
    (a.perform k e).Provided p address := by
  have hslots : e.begun.filterMap (fun u => u.job.slot? p) = [] :=
    List.filterMap_eq_nil_iff.mpr fun u hu => (hbegun u hu).2.1
  have hfanOuts : e.begun.filterMap (fun u => u.job.fanOut? p) = [] :=
    List.filterMap_eq_nil_iff.mpr fun u hu => (hbegun u hu).2.2
  have hnone : e.begun.countP (Task.starts p) = 0 := by
    refine List.countP_eq_zero.mpr fun u hu hstarts => ?_
    obtain ⟨hfresh, -, hfanOut⟩ := hbegun u hu
    cases u with
    | fanOut f ks ended =>
      simp only [Task.starts, Bool.and_eq_true, beq_iff_eq] at hstarts
      simp [Task.job, Job.fanOut?, hstarts.1] at hfanOut
    | connect service location s => exact hfresh
    | _ => cases hstarts
  have hkept : (e.task.starts p).toNat ≤ (t.starts p).toNat := by
    cases hstarts : e.task.starts p with
    | false => exact Nat.zero_le _
    | true =>
      have hstarts' : t.starts p = true := by
        generalize hnext : e.task = u at hstarts hjob
        cases u with
        | connect service location s =>
          rw [← hstarting service location s hnext (by simpa [Task.starts] using hstarts), hnext]
          exact hstarts
        | fanOut f ks ended =>
          cases t with
          | fanOut f' ks' ended' =>
            cases hjob
            exact hstarts
          | _ => cases hjob
        | _ => cases hstarts
      rw [hstarts']
  have hslotsOf : (a.perform k e).slotsOf p = a.slotsOf p ++ [] := by
    rw [slotsOf_perform ht hjob, hslots]
  have hfanOutsOf : (a.perform k e).fanOutsOf p = a.fanOutsOf p ++ [] := by
    rw [fanOutsOf_perform ht hjob, hfanOuts]
  refine h.perform ht hsteady hslotsOf hfanOutsOf .nothing ?_ ?_ hhomes hunderstood
    fun u hu => (hbegun u hu).1
  · exact h.countP_le_one ht (by rw [hnone]; exact hkept)
  · intro service location s hnext hs
    rw [hstarting service location s hnext hs]
    exact Or.inl (List.mem_of_getElem? ht)

/-! ### Each step of a task -/

theorem slotsOf_ne_nil {slot : Slot} {s : Attaching} (h : .attach p slot s ∈ a.tasks) :
    a.slotsOf p ≠ [] :=
  List.ne_nil_of_mem (Activity.mem_slotsOf h)

/-- The pool of a connection has slots. -/
theorem slotsOf_ne_nil_of_home (h : a.Provided p address) {l : LinkId}
    (hl : a.homes[l]?.map Home.pool = some p) : a.slotsOf p ≠ [] := by
  obtain ⟨home, hhome, hpool⟩ := Option.map_eq_some_iff.mp hl
  exact h.homes home (List.mem_of_getElem? hhome) hpool

/-- Further connections are begun, of this pool or of another one. -/
theorem fanOut {f : FanOut} {address' : SocketAddress} {m : TaskId} (h : a.Provided p address)
    (ht : a.tasks[k]? = some t) (hsteady : Steady a.client e.client) (hjob : e.task.job = t.job)
    (hbegun : e.begun = Activity.fanOut f address' m) (hhomes : e.homes = [])
    (hnext : e.task.starts p = false)
    (hunderstood : ∀ address weight, e.task ≠ .describe p (.understood address weight))
    (hpool : f.pool = p → address' = address ∧ a.slotsOf p ≠ [] ∧
      (f.cause = .start → t.starts p = true) ∧
      (f.cause = .description →
        a.client.isFannedOut p = false ∧ e.client.isFannedOut p = true)) :
    (a.perform k e).Provided p address := by
  have hstarting {service location : String} {s : Connecting}
      (hs : e.task = .connect service location s) : s.starting? ≠ some p := by
    intro hstarting
    simp [hs, Task.starts, hstarting] at hnext
  have hnohomes : ∀ home ∈ e.homes, home.pool = p → a.slotsOf p ≠ [] := by
    rw [hhomes]
    exact List.forall_mem_nil _
  by_cases hf : f.pool = p
  · obtain ⟨rfl, hsome, hstart, hdescription⟩ := hpool hf
    have hslotsOf : (a.perform k e).slotsOf p =
        a.slotsOf p ++ furtherSlots address' f.weight := by
      rw [slotsOf_perform ht hjob, hbegun, Activity.fanOut, hf]
      exact congrArg (a.slotsOf p ++ ·) (filterMap_slot?_attaches p _)
    have hfanOutsOf : (a.perform k e).fanOutsOf p = a.fanOutsOf p ++ [f] := by
      have hself : (Task.fanOut f (List.range' (m + 1) (furtherSlots address' f.weight).length)
          false).job.fanOut? p = some f := if_pos hf
      rw [fanOutsOf_perform ht hjob, hbegun, Activity.fanOut, List.filterMap_cons, hself,
        filterMap_fanOut?_attaches]
    have hcount : e.begun.countP (Task.starts p) ≤ (t.starts p).toNat := by
      have hattaches : (attaches f.pool (furtherSlots address' f.weight)).countP (Task.starts p) =
          0 := by
        refine List.countP_eq_zero.mpr fun u hu => ?_
        obtain ⟨slot, -, rfl⟩ := List.mem_map.mp hu
        exact Bool.false_ne_true
      rw [hbegun, Activity.fanOut, List.countP_cons, hattaches]
      by_cases hcause : f.cause = .start
      · rw [hstart hcause]
        split <;> decide
      · rw [if_neg (by simp [Task.starts, hcause])]
        exact Nat.zero_le _
    refine h.perform ht hsteady hslotsOf hfanOutsOf
      (.fanOut hsome hdescription) ?_ ?_ hnohomes ?_ ?_
    · refine h.countP_le_one ht ?_
      rw [hnext]
      exact (Nat.zero_add _).trans_le hcount
    · exact fun service location s hs hs' => (hstarting hs hs').elim
    · exact fun address weight hu => (hunderstood address weight hu).elim
    · rw [hbegun]
      exact isFresh_fanOut f address' m
  · refine h.quiet ht hsteady hjob (fun service location s hs hs' => (hstarting hs hs').elim)
      hnohomes (fun address weight hu => (hunderstood address weight hu).elim) fun u hu => ?_
    rw [hbegun] at hu
    refine ⟨isFresh_fanOut f address' m u hu, ?_⟩
    rcases List.mem_cons.mp hu with rfl | hu
    · exact ⟨rfl, if_neg hf⟩
    · obtain ⟨slot, -, rfl⟩ := List.mem_map.mp hu
      exact ⟨if_neg hf, rfl⟩

/-- A description settles the number of connections only when it was not settled. -/
theorem isFannedOut_of_settleNumber {c c' : Client} {q : PoolId}
    (h : c.settleNumber q = (true, c')) (hq : (c.location? q).isSome = true) :
    c.isFannedOut q = false ∧ c'.isFannedOut q = true := by
  rw [settleNumber] at h
  split at h
  · cases h
  · rename_i hfannedOut
    cases h
    refine ⟨Bool.eq_false_iff.mpr hfannedOut, ?_⟩
    rw [location?, Option.isSome_map] at hq
    obtain ⟨pool, hpool⟩ := Option.isSome_iff_exists.mp hq
    rw [isFannedOut, pool?_onPool, hpool]
    simp

theorem describe {q : PoolId} {s : Describing} (h : a.Provided p address) (hplaced : a.Placed)
    (ht : a.tasks[k]? = some (.describe q s))
    (hlocation : (a.describeNext q s).client.location? p = some (.address address)) :
    (a.perform k (a.describeNext q s)).Provided p address := by
  have hmem := List.mem_of_getElem? ht
  have hsteady := (a.calm_describeNext q s).toSteady
  have hquiet {s' : Describing} {client : Client}
      (he : a.describeNext q s = { task := .describe q s', client })
      (hunderstood : ∀ address weight, s' = .understood address weight → q = p →
        a.slotsOf p ≠ []) : (a.perform k (a.describeNext q s)).Provided p address := by
    rw [he] at hsteady ⊢
    refine h.quiet ht hsteady rfl (by rintro _ _ _ ⟨⟩) (List.forall_mem_nil _)
      (fun address weight hnext => ?_)
      (List.forall_mem_nil _)
    cases hnext
    exact hunderstood address weight rfl rfl
  cases s with
  | arrived l body =>
    rcases hunderstand : a.client.understand q l body with ⟨_ | ⟨address', weight⟩, client⟩
    · have he : a.describeNext q (.arrived l body) = { task := .describe q .ended, client } := by
        rw [describeNext, hunderstand]
      exact hquiet he (by rintro _ _ ⟨⟩)
    · have he : a.describeNext q (.arrived l body) =
          { task := .describe q (.understood address' weight), client } := by
        rw [describeNext, hunderstand]
      refine hquiet he fun _ _ _ hq => ?_
      subst hq
      exact h.slotsOf_ne_nil_of_home (hplaced.placed _ hmem)
  | understood address' weight =>
    rcases hsettle : a.client.settleNumber q with ⟨_ | _, client⟩
    · have he : a.describeNext q (.understood address' weight) =
          { task := .describe q .ended, client } := by
        rw [describeNext, hsettle]
      exact hquiet he (by rintro _ _ ⟨⟩)
    · have he : a.describeNext q (.understood address' weight) =
          { task := .describe q .ended, client,
            begun := Activity.fanOut ⟨q, .description, weight⟩ address' a.tasks.length } := by
        rw [describeNext, hsettle]
      rw [he] at hsteady hlocation ⊢
      refine h.fanOut ht hsteady rfl rfl rfl rfl (by rintro _ _ ⟨⟩) ?_
      rintro rfl
      obtain ⟨place, hplace, haddress⟩ := (hplaced.placed _ hmem).1
      have hsome : (a.client.location? q).isSome = true := by rw [hplace]; rfl
      refine ⟨?_, h.understood address' weight hmem, by rintro ⟨⟩, fun _ =>
        isFannedOut_of_settleNumber hsettle hsome⟩
      exact (haddress address (Option.some.inj
        ((hsteady.location? q place hplace).symm.trans hlocation))).1
  | ended => exact hquiet rfl (by rintro _ _ ⟨⟩)

section Connect

variable {service location : String} {s s' : Connecting} {client : Client} {begun : List Task}

/-- The request for a service makes a step that does not start the pool. -/
theorem connect_quiet (h : a.Provided p address)
    (ht : a.tasks[k]? = some (.connect service location s)) (hsteady : Steady a.client client)
    (hs : s'.starting? = some p → s' = s)
    (hbegun : ∀ u ∈ begun, IsFresh u ∧ u.job.slot? p = none ∧ u.job.fanOut? p = none) :
    (a.perform k { task := .connect service location s', client, begun }).Provided p address := by
  refine h.quiet ht hsteady rfl (fun service' location' s'' hnext hs'' => ?_)
    (List.forall_mem_nil _) (by rintro _ _ ⟨⟩) hbegun
  cases hnext
  rw [hs hs'']

/-- The pool is registered. -/
theorem connect_registered (h : a.Provided p address) (hplaced : a.Placed)
    (ht : a.tasks[k]? = some (.connect service location s)) (hsteady : Steady a.client e.client)
    (hs : s.starting? = none) (hp : a.client.location? p = none)
    (htask : e.task = .connect service location (.registered p)) (hbegun : e.begun = [])
    (hhomes : e.homes = []) : (a.perform k e).Provided p address := by
  have hjob : e.task.job = (Task.connect service location s).job := by rw [htask]; rfl
  have hslots := slotsOf_of_unknown hplaced hp
  have hslotsOf : (a.perform k e).slotsOf p = a.slotsOf p ++ [] := by
    rw [slotsOf_perform ht hjob, hbegun, List.filterMap_nil]
  have hfanOutsOf : (a.perform k e).fanOutsOf p = a.fanOutsOf p ++ [] := by
    rw [fanOutsOf_perform ht hjob, hbegun, List.filterMap_nil]
  refine h.perform ht hsteady hslotsOf hfanOutsOf .nothing ?_ ?_ ?_ ?_ ?_
  · have hperform := countP_perform (Task.starts p) ht (e := e)
    have hold : Task.starts p (.connect service location s) = false := by
      simp [Task.starts, hs]
    have hnew : Task.starts p e.task = true := by
      rw [htask]
      simp [Task.starts, Connecting.starting?]
    rw [countP_starts_of_unknown hplaced hp, hold, hnew, hbegun] at hperform
    exact Nat.le_of_eq hperform
  · intro service' location' s' hnext hs'
    cases htask.symm.trans hnext
    exact Or.inr (Or.inr ⟨rfl, by rw [hslotsOf, hslots]; rfl⟩)
  · rw [hhomes]
    exact List.forall_mem_nil _
  · rw [htask]
    rintro _ _ ⟨⟩
  · rw [hbegun]
    exact List.forall_mem_nil _

/-- The first connection of the pool is begun. -/
theorem connect_attaching (h : a.Provided p address)
    (ht : a.tasks[k]? = some (.connect service location (.registered p)))
    (hsteady : Steady a.client e.client) {ks : List TaskId}
    (htask : e.task = .connect service location (.attaching p ks))
    (hbegun : e.begun = attaches p [⟨address, 0, false, []⟩]) (hhomes : e.homes = []) :
    (a.perform k e).Provided p address := by
  have hjob : e.task.job = (Task.connect service location (.registered p)).job := by
    rw [htask]
    rfl
  have hnone := h.registered service location (List.mem_of_getElem? ht)
  have hslotsOf : (a.perform k e).slotsOf p = a.slotsOf p ++ [⟨address, 0, false, []⟩] := by
    rw [slotsOf_perform ht hjob, hbegun, filterMap_slot?_attaches]
  have hfanOutsOf : (a.perform k e).fanOutsOf p = a.fanOutsOf p ++ [] := by
    rw [fanOutsOf_perform ht hjob, hbegun, filterMap_fanOut?_attaches]
  refine h.perform ht hsteady hslotsOf hfanOutsOf
    (.first hnone htask) ?_ ?_ ?_ ?_ ?_
  · refine h.countP_le_one ht ?_
    rw [htask, hbegun]
    simp [Task.starts, Connecting.starting?, attaches]
  · intro service' location' s' hnext hs'
    cases htask.symm.trans hnext
    exact Or.inr (Or.inl ⟨⟨ks, rfl⟩, by rw [hslotsOf]; simp⟩)
  · rw [hhomes]
    exact List.forall_mem_nil _
  · rw [htask]
    rintro _ _ ⟨⟩
  · rw [hbegun]
    exact isFresh_attaches p _

theorem connect {timedOut : Bool} (h : a.Provided p address) (hplaced : a.Placed)
    (ht : a.tasks[k]? = some (.connect service location s))
    (hnext : a.connectNext service location timedOut s = (s', client, begun))
    (hsteady : Steady a.client client) (hlocation : client.location? p = some (.address address)) :
    (a.perform k { task := .connect service location s', client, begun }).Provided p address := by
  have hquiet (hs : s'.starting? = some p → s' = s) (hbegun : begun = []) :
      (a.perform k { task := .connect service location s', client, begun }).Provided p
        address := by
    subst hbegun
    exact h.connect_quiet ht hsteady hs (List.forall_mem_nil _)
  cases a.connects hnext with
  | stays => exact hquiet (fun _ => rfl) rfl
  | registered service' place =>
    by_cases hp : p = a.client.pools.length
    · subst hp
      refine h.connect_registered hplaced ht hsteady rfl ?_ rfl rfl rfl
      rw [location?, pool?, List.getElem?_eq_none (Nat.le_refl _)]
      rfl
    · exact hquiet (fun hs => (hp (Option.some.inj hs).symm).elim) rfl
  | @attaching q pool slots _ hpool hslots =>
    by_cases hqp : q = p
    · subst hqp
      have hplace : a.client.location? q = some pool.location := by rw [location?, hpool]; rfl
      have hat : pool.location = .address address :=
        Option.some.inj ((hsteady.location? q _ hplace).symm.trans hlocation)
      rw [firstSlots, hat] at hslots
      cases hslots
      exact h.connect_attaching ht hsteady rfl rfl rfl
    · refine h.connect_quiet ht hsteady (fun hs => (hqp (Option.some.inj hs)).elim)
        fun u hu => ⟨isFresh_attaches q slots u hu, ?_⟩
      obtain ⟨slot, -, rfl⟩ := List.mem_map.mp hu
      exact ⟨if_neg hqp, rfl⟩
  | @fanningOut q ks pool address' s hpool haddress =>
    refine h.fanOut ht hsteady rfl rfl rfl rfl (by rintro _ _ ⟨⟩) ?_
    rintro rfl
    have hplace : a.client.location? q = some (.address address') := by
      rw [location?, hpool, ← haddress]
      rfl
    have hat := Option.some.inj ((hsteady.location? q _ hplace).symm.trans hlocation)
    have hstarts : Task.starts q (.connect service location (.attaching q ks)) = true := by
      simp [Task.starts, Connecting.starting?]
    exact ⟨Location.address.inj hat,
      h.attaching service location ks (List.mem_of_getElem? ht), fun _ => hstarts, by rintro ⟨⟩⟩
  | _ => exact hquiet (by rintro ⟨⟩) rfl

end Connect

/-- Every step of a task leaves the pool provided. -/
theorem act (h : a.Provided p address) (hplaced : a.Placed) (ht : a.tasks[k]? = some t)
    (luck : Bool) (hlocation : (a.act luck t).client.location? p = some (.address address)) :
    (a.perform k (a.act luck t)).Provided p address := by
  have hsteady := a.steady_act luck t
  have hjob := a.job_act luck t
  have hmem := List.mem_of_getElem? ht
  -- what only plans reconnects begins nothing for a pool
  have hquiet (hother : t.job.isQuiet = true)
      (hhomes : ∀ home ∈ (a.act luck t).homes, home.pool = p → a.slotsOf p ≠ [])
      (hbegun : ∀ u ∈ (a.act luck t).begun, ∃ q l, u = .plan q l .asking) :
      (a.perform k (a.act luck t)).Provided p address := by
    refine h.quiet ht hsteady hjob (fun service location s hnext _ => ?_) hhomes
      (fun address weight hnext => ?_) fun u hu => ?_
    · rw [← hjob, hnext] at hother
      cases hother
    · rw [← hjob, hnext] at hother
      cases hother
    · obtain ⟨q, l, rfl⟩ := hbegun u hu
      exact ⟨trivial, rfl, rfl⟩
  cases t with
  | attach q slot s =>
    refine hquiet rfl (fun home hhome hpool => ?_) fun u hu => ?_
    · cases a.linking_act luck (.attach q slot s) with
      | kept hhomes =>
        rw [hhomes] at hhome
        cases hhome
      | attached htask hnext hslot hclient hhomes =>
        cases htask
        rw [hhomes] at hhome
        obtain rfl := List.mem_singleton.mp hhome
        obtain rfl : q = p := hpool
        exact slotsOf_ne_nil hmem
      | reopened htask => cases htask
    · obtain ⟨l, -, rfl⟩ := a.begun_attachNext q slot luck s u hu
      exact ⟨q, l, rfl⟩
  | plan q l s => cases s <;> exact hquiet rfl (List.forall_mem_nil _) (List.forall_mem_nil _)
  | reopen r s =>
    refine hquiet rfl (fun home hhome hpool => ?_) fun u hu => ?_
    · cases a.linking_act luck (.reopen r s) with
      | kept hhomes =>
        rw [hhomes] at hhome
        cases hhome
      | attached htask => cases htask
      | reopened htask hnext hold hslot hclient hhomes =>
        cases htask
        rw [hhomes] at hhome
        obtain rfl := List.mem_singleton.mp hhome
        obtain rfl : r.pool = p := hpool
        exact h.slotsOf_ne_nil_of_home (hplaced.placed _ hmem).1
    · rw [Activity.act, begun_reopenNext] at hu
      cases hu
  | describe q s => exact h.describe hplaced ht hlocation
  | fanOut f ks ended =>
    refine hquiet rfl ?_ ?_ <;> rw [Activity.act, fanOutNext] <;> split <;>
      exact List.forall_mem_nil _
  | closePool q s => exact hquiet rfl (List.forall_mem_nil _) (List.forall_mem_nil _)
  | connect service location s => exact h.connect hplaced ht rfl hsteady hlocation
  | invoke q m parameter s => exact hquiet rfl (List.forall_mem_nil _) (List.forall_mem_nil _)
  | shutdown s => exact hquiet rfl (List.forall_mem_nil _) (List.forall_mem_nil _)

/-- What happens from outside begins nothing for the pool. -/
theorem outside {c : Client} {begun : List Task} (h : a.Provided p address)
    (hcalm : Calm a.client c) (hbegun : ∀ u ∈ begun, a.IsNew u) :
    Provided { a with client := c, tasks := a.tasks ++ begun } p address := by
  have hnew {u : Task} (hu : u ∈ begun) : u.job.slot? p = none ∧ u.job.fanOut? p = none ∧
      u.starts p = false := by
    have hnew := hbegun u hu
    unfold IsNew at hnew
    split at hnew <;> first | exact ⟨rfl, rfl, rfl⟩ | exact hnew.elim
  have hslots : Activity.slotsOf { a with client := c, tasks := a.tasks ++ begun } p =
      a.slotsOf p := by
    rw [slotsOf, List.filterMap_append, List.filterMap_eq_nil_iff.mpr fun u hu => (hnew hu).1,
      List.append_nil]
    rfl
  have hfanOuts : Activity.fanOutsOf { a with client := c, tasks := a.tasks ++ begun } p =
      a.fanOutsOf p := by
    rw [fanOutsOf, List.filterMap_append, List.filterMap_eq_nil_iff.mpr fun u hu => (hnew hu).2.1,
      List.append_nil]
    rfl
  refine ⟨?_, ?_, ?_, ?_, ?_, ?_, ?_, ?_⟩
  · rw [hslots, hfanOuts]
    exact h.slots
  · have hnone : begun.countP (Task.starts p) = 0 :=
      List.countP_eq_zero.mpr fun u hu => Bool.eq_false_iff.mp (hnew hu).2.2
    rw [List.countP_append, hnone]
    exact h.start
  · rw [hfanOuts]
    exact h.described
  · rw [hfanOuts]
    exact fun f hf hcause => hcalm.isFannedOut p (h.settled f hf hcause)
  · rw [hslots]
    intro service location hu
    rcases List.mem_append.mp hu with hu | hu
    · exact h.registered service location hu
    · exact (hbegun _ hu).elim
  · rw [hslots]
    intro service location ks hu
    rcases List.mem_append.mp hu with hu | hu
    · exact h.attaching service location ks hu
    · exact (hbegun _ hu).elim
  · rw [hslots]
    exact h.homes
  · rw [hslots]
    intro address weight hu
    rcases List.mem_append.mp hu with hu | hu
    · exact h.understood address weight hu
    · exact (hbegun _ hu).elim

/-- Every move leaves a pool provided. -/
theorem stepped {b : Activity} (h : a.Provided p address) (hs : Stepped a b) (hplaced : a.Placed)
    (hlocation : b.client.location? p = some (.address address)) : b.Provided p address := by
  cases hs with
  | task ht luck => exact h.act hplaced ht luck hlocation
  | abort ht hshutdown =>
    exact h.quiet ht (Calm.refl _).toSteady rfl (by rintro _ _ _ ⟨⟩) (List.forall_mem_nil _)
      (by rintro _ _ ⟨⟩) (List.forall_mem_nil _)
  | outside hcalm hbegun => exact h.outside hcalm hbegun

end Provided

end Activity

end RemoteCall.Client
