import RemoteCall.Proofs.Server.Custody
import RemoteCall.Proofs.Server.Gates
import RemoteCall.Proofs.Server.Posting

/-!
# Every frame is answered

A frame that a server reads is answered at once or becomes a task, which is answered when it ends;
a failure to read a frame that belongs to a request is answered as well. So what the server has
posted and what its tasks still owe make up what has come in, request by request.

A post is not always a message: an answer that does not fit the bound of its connection is dropped.
A result falls back to a fault, but a description, a fault and what a handler that broke off has
left do not, and the peer hears nothing.

## Main definitions

* `answerAtOnce?` : the frame with which an arriving frame is answered at once.
* `Ledger`, `Ledger.step`, `Ledger.run` : a server at work, what has come in and what was posted.

## Main results

* `Ledger.frames_answered_once` : what comes in is answered once, and how answers are queued.
* `Ledger.description_dropped` : an answer that is dropped.
-/

namespace RemoteCall.Server

/-! ### Frames that are answered at once -/

/-- The fault with which a request is answered when it arrives; `none` if it becomes a task. -/
def refusal? (s : Server) (c : ConnectionId) (frame : Frame) : Option Fault :=
  if s.stopping then some stoppingFault
  else
    match s.taskOf c frame with
    | .ok _ => none
    | .error fault => some fault

/-- The frame with which a frame is answered when it arrives; `none` if it becomes a task. -/
def answerAtOnce? (s : Server) (c : ConnectionId) (frame : Frame) : Option Frame :=
  match frame.header.type with
  | .heartbeat => some (.empty frame.header)
  | .metadata =>
    match s.registry.service? frame.header.service with
    | none => some (.fault frame.header (unknownServiceFault frame.header.service))
    | some service => some ⟨frame.header.withType .metadata, service.info.encode⟩
  | .object | .empty => (s.refusal? c frame).map (.fault frame.header)
  | .normal | .abnormal => some (.fault frame.header (unsupportedFault frame.header.type))

/-- The answer belongs to the request of the frame. -/
theorem call_answerAtOnce {s : Server} {c : ConnectionId} {frame f : Frame}
    (h : s.answerAtOnce? c frame = some f) : f.header.call = frame.header.call := by
  have hrefusal (h : (s.refusal? c frame).map (.fault frame.header) = some f) :
      f.header.call = frame.header.call := by
    obtain ⟨fault, -, rfl⟩ := Option.map_eq_some_iff.mp h
    rfl
  unfold answerAtOnce? at h
  split at h
  · cases h; rfl
  · split at h <;> cases h <;> rfl
  · exact hrefusal h
  · exact hrefusal h
  · cases h; rfl
  · cases h; rfl

theorem header_of_taskOf {s : Server} {c : ConnectionId} {frame : Frame} {i : ExecutorIndex}
    {t : Task} (h : s.taskOf c frame = .ok (i, t)) : t.header = frame.header := by
  unfold taskOf at h
  dsimp only at h
  split at h
  · split at h
    · cases h
      rfl
    · cases h
  · cases h

/-- What the arrival of a frame can do: the frame is answered at once, or becomes a task. -/
inductive Received (s : Server) (c : ConnectionId) (frame : Frame) :
    Option Frame → Option Handing × Server → Prop
  | answered (f : Frame) :
      Received s c frame (some f) (none, s.onConnection c fun k => k.post f)
  | taken {i : ExecutorIndex} {t : Task} (hconnection : t.connection = c)
      (hheader : t.header = frame.header) :
      Received s c frame none (some (.offered t i), { s with taken := s.taken + 1 })

theorem received_request (s : Server) (c : ConnectionId) (frame : Frame) :
    Received s c frame ((s.refusal? c frame).map (.fault frame.header)) (s.request c frame) := by
  unfold refusal? request
  split
  · exact .answered _
  · rcases htask : s.taskOf c frame with fault | ⟨i, t⟩
    · exact .answered _
    · obtain ⟨-, -, hconnection, -⟩ := taskOf_eq_ok htask
      exact .taken hconnection (header_of_taskOf htask)

/-- A frame is answered when it arrives, or it becomes a task. -/
theorem received (s : Server) (c : ConnectionId) (frame : Frame) :
    Received s c frame (s.answerAtOnce? c frame) (s.receive c frame) := by
  rcases htype : frame.header.type <;> simp only [answerAtOnce?, receive, htype]
  case metadata =>
    rcases hservice : s.registry.service? frame.header.service with - | service <;>
      simp only [describe, hservice] <;> exact .answered _
  case empty | object => exact s.received_request c frame
  case normal | abnormal | heartbeat => exact .answered _

/-- A failure to read a frame is answered if it belongs to a request. -/
def failurePost? (c : ConnectionId) (e : Error) : Option Post :=
  e.call?.map fun r => .ofFrame c (.fault ⟨r.service, r.request, r.method, .abnormal⟩ e.toFault)

theorem queues_readFailure (s : Server) (c : ConnectionId) (e : Error) :
    Queues s (s.readFailure c e).2 (failurePost? c e).toList := by
  unfold readFailure failurePost?
  split
  · rename_i r hr
    rw [hr]
    exact Queues.post s (.ofFrame c _)
  · rename_i hnone
    rw [hnone]
    exact .of_connections rfl

/-! ### Ledgers -/

/-- The connection of a post and the request that it answers. -/
def Post.key (p : Post) : ConnectionId × CallRef :=
  (p.connection, p.call)

/-- The connection of a task and its request. -/
def Task.key (t : Task) : ConnectionId × CallRef :=
  (t.connection, t.header.call)

@[simp] theorem TaskEnd.key_post (e : TaskEnd) : e.post.key = e.task.key := by
  cases e <;> rfl

/-- The tasks of a server at work that have not ended. -/
def Activity.underway (a : Activity) : List Task :=
  a.server.queued ++ a.server.running ++ a.server.parked ++ a.server.delayed.hand.tasks ++
    a.readers.map Handing.task ++ a.shutdown.tasks

/-- Something that happens to a server. -/
inductive Occurrence where
  | move (m : Move)
  /-- A reader fails to read a frame. -/
  | failure (c : ConnectionId) (e : Error)

namespace Occurrence

/-- The connection and the request of what comes in. -/
def inbound : Occurrence → List (ConnectionId × CallRef)
  | move (.receive c frame) => [(c, frame.header.call)]
  | move _ => []
  | failure c e => e.call?.toList.map fun r => (c, r)

/-- The server itself does something; its connections are not changed from outside. -/
def isWork : Occurrence → Bool
  | move (.connection _ _) | move (.connect _) => false
  | _ => true

end Occurrence

/-- A server at work, the requests that have come in, and the answers that were posted. -/
structure Ledger where
  activity : Activity
  inbound : List (ConnectionId × CallRef)
  posted : List Post

namespace Ledger

/-- A server that has nothing to do. -/
def start (registry : Registry) (config : DelayConfig) (connections : Connections) : Ledger :=
  { activity := .start registry config connections, inbound := [], posted := [] }

/-- The server after something has happened. -/
def next (l : Ledger) : Occurrence → Activity
  | .move m => l.activity.step m
  | .failure c e => { l.activity with server := (l.activity.server.readFailure c e).2 }

/-- What is posted at once when something comes in. -/
def atOnce (l : Ledger) : Occurrence → List Post
  | .move (.receive c frame) => (l.activity.server.answerAtOnce? c frame).toList.map (.ofFrame c)
  | .move _ => []
  | .failure c e => (failurePost? c e).toList

/-- The answers that are posted when something happens: those at once, and those of the tasks that
end. -/
def posts (l : Ledger) (o : Occurrence) : List Post :=
  l.atOnce o ++
    ((l.next o).server.endings.drop l.activity.server.endings.length).map TaskEnd.post

/-- Something happens, and what comes in and what is posted are taken down. -/
def step (l : Ledger) (o : Occurrence) : Ledger :=
  { activity := l.next o, inbound := l.inbound ++ o.inbound, posted := l.posted ++ l.posts o }

/-- Things happen one after another. -/
def run (l : Ledger) (occurrences : List Occurrence) : Ledger :=
  occurrences.foldl step l

/-- What happens makes these tasks end and those arrive: they account for what comes in and for what
is posted. -/
structure Accounts (l : Ledger) (o : Occurrence) (ends : List TaskEnd) (arrived : List Task) :
    Prop where
  endings_eq : (l.next o).server.endings = l.activity.server.endings ++ ends
  arrivals_eq : (l.next o).arrivals = l.activity.arrivals ++ arrived
  inbound_eq : (l.atOnce o).map Post.key ++ arrived.map Task.key = o.inbound
  queues : o.isWork = true →
    Queues l.activity.server (l.next o).server (l.atOnce o ++ ends.map TaskEnd.post)

/-- An operation on the tasks of the server. -/
theorem accounts_of_ends {l : Ledger} {o : Occurrence}
    (h : Ends l.activity.server (l.next o).server)
    (harrivals : (l.next o).arrivals = l.activity.arrivals) (honce : l.atOnce o = [])
    (hinbound : o.inbound = []) : ∃ ends arrived, l.Accounts o ends arrived := by
  obtain ⟨ends, hendings, hqueues⟩ := h
  refine ⟨ends, [], hendings, by rw [harrivals, List.append_nil], ?_, fun _ => ?_⟩
  · rw [honce, hinbound]
    rfl
  · rw [honce]
    exact hqueues

/-- A change of connections from outside. -/
theorem accounts_of_outside {l : Ledger} {o : Occurrence}
    (hendings : (l.next o).server.endings = l.activity.server.endings)
    (harrivals : (l.next o).arrivals = l.activity.arrivals) (honce : l.atOnce o = [])
    (hinbound : o.inbound = []) (hwork : o.isWork = false) :
    ∃ ends arrived, l.Accounts o ends arrived := by
  refine ⟨[], [], by rw [hendings, List.append_nil], by rw [harrivals, List.append_nil], ?_, ?_⟩
  · rw [honce, hinbound]
    rfl
  · simp [hwork]

theorem accounts_receive (l : Ledger) (c : ConnectionId) (frame : Frame) :
    ∃ ends arrived, l.Accounts (.move (.receive c frame)) ends arrived := by
  have hreceived := l.activity.server.received c frame
  rcases hanswer : l.activity.server.answerAtOnce? c frame with - | f
  all_goals
    rw [hanswer] at hreceived
    rcases hreceive : l.activity.server.receive c frame with ⟨handing, s⟩
    rw [hreceive] at hreceived
    cases hreceived
  · rename_i i t hconnection hheader
    have hnext : l.next (.move (.receive c frame)) =
        { l.activity with
          server := { l.activity.server with taken := l.activity.server.taken + 1 }
          readers := l.activity.readers ++ [.offered t i]
          arrivals := l.activity.arrivals ++ [t] } := by
      simp only [next, Activity.step, hreceive, Handing.task]
    refine ⟨[], [t], ?_, ?_, ?_, fun _ => ?_⟩
    · rw [hnext, List.append_nil]
    · rw [hnext]
    · simp [atOnce, hanswer, Occurrence.inbound, Task.key, hconnection, hheader]
    · rw [hnext, atOnce, hanswer]
      exact .of_connections rfl
  · have hcall := call_answerAtOnce hanswer
    have hnext : l.next (.move (.receive c frame)) =
        { l.activity with
          server := l.activity.server.onConnection c fun k => k.post f } := by
      simp only [next, Activity.step, hreceive]
    refine ⟨[], [], ?_, ?_, ?_, fun _ => ?_⟩
    · rw [hnext, List.append_nil]
      rfl
    · rw [hnext, List.append_nil]
    · simp [atOnce, hanswer, Occurrence.inbound, Post.key, Post.ofFrame, hcall]
    · rw [hnext, atOnce, hanswer]
      exact Queues.post l.activity.server (.ofFrame c f)

theorem accounts_failure (l : Ledger) (c : ConnectionId) (e : Error) :
    ∃ ends arrived, l.Accounts (.failure c e) ends arrived := by
  have hendings : (l.activity.server.readFailure c e).2.endings = l.activity.server.endings := by
    unfold readFailure
    split <;> rfl
  refine ⟨[], [], ?_, (List.append_nil _).symm, ?_, fun _ => ?_⟩
  · rw [List.append_nil]
    exact hendings
  · rcases hcall : e.call? with - | r <;>
      simp only [atOnce, failurePost?, Occurrence.inbound, hcall] <;> rfl
  · rw [List.map_nil, List.append_nil]
    exact l.activity.server.queues_readFailure c e

theorem accounts_handOver (l : Ledger) (k : Nat) :
    ∃ ends arrived, l.Accounts (.move (.handOver k)) ends arrived := by
  rcases hreader : l.activity.readers[k]? with - | h
  · have hnext : l.next (.move (.handOver k)) = l.activity := by
      simp only [next, Activity.step, hreader]
    exact accounts_of_ends (by rw [hnext]; exact .refl _) (by rw [hnext]) rfl rfl
  · have hends := ends_handOver l.activity.server h
    rcases hover : l.activity.server.handOver h with ⟨- | h', s⟩
    all_goals
      rw [hover] at hends
      refine accounts_of_ends ?_ ?_ rfl rfl
    all_goals simp only [next, Activity.step, hreader, hover]
    all_goals exact hends

/-- Whatever happens is accounted for. -/
theorem accounts (l : Ledger) (o : Occurrence) : ∃ ends arrived, l.Accounts o ends arrived := by
  rcases o with ⟨⟨c, frame⟩ | k | ⟨i, w, step⟩ | step | - | ms | - | ⟨c, change⟩ | k⟩ | ⟨c, e⟩
  · exact l.accounts_receive c frame
  · exact l.accounts_handOver k
  · exact accounts_of_ends (threadStepped _ i w step).ends rfl rfl rfl
  · exact accounts_of_ends (ends_delayThread _ step) rfl rfl rfl
  · exact accounts_of_ends (Shutdown.ends_next _ _) rfl rfl rfl
  · exact accounts_of_ends (.of_queues rfl (.of_connections rfl)) rfl rfl rfl
  · exact accounts_of_ends (.of_queues rfl (.of_connections rfl)) rfl rfl rfl
  · exact accounts_of_outside rfl rfl rfl rfl rfl
  · exact accounts_of_outside rfl rfl rfl rfl rfl
  · exact l.accounts_failure c e

/-! ### Every run -/

/-- The server is sound; each answer that was posted, and each task that has not ended, is for one
request that has come in. -/
structure Sound (l : Ledger) : Prop where
  activity : l.activity.Sound
  balance : (l.posted.map Post.key ++ l.activity.arrivals.map Task.key).Perm
    (l.inbound ++ l.activity.server.ended.map Task.key)

variable {l : Ledger}

theorem Accounts.posts_eq {o : Occurrence} {ends : List TaskEnd} {arrived : List Task}
    (h : l.Accounts o ends arrived) : l.posts o = l.atOnce o ++ ends.map TaskEnd.post := by
  rw [posts, h.endings_eq, List.drop_left]

/-- An occurrence makes a task of each request that it brings in, or posts an answer to it, and
posts an answer for each task that ends in it. -/
theorem Accounts.balance_step {o : Occurrence} {ends : List TaskEnd} {arrived : List Task}
    (h : l.Accounts o ends arrived)
    (hbalance : (l.posted.map Post.key ++ l.activity.arrivals.map Task.key).Perm
      (l.inbound ++ l.activity.server.ended.map Task.key)) :
    ((l.step o).posted.map Post.key ++ (l.step o).activity.arrivals.map Task.key).Perm
      ((l.step o).inbound ++ (l.step o).activity.server.ended.map Task.key) := by
  have hends : ends.map (Post.key ∘ TaskEnd.post) = ends.map (Task.key ∘ TaskEnd.task) :=
    List.map_congr_left fun e _ => e.key_post
  refine List.perm_iff_count.mpr fun key => ?_
  have hcount := hbalance.count_eq key
  simp only [step, h.posts_eq, h.arrivals_eq, ← h.inbound_eq, ended, h.endings_eq, List.map_append,
    List.map_map, hends, List.count_append] at hcount ⊢
  omega

theorem activity_next (h : l.activity.Sound) (o : Occurrence) : (l.next o).Sound := by
  cases o with
  | move m => exact Activity.sound_step h m
  | failure c e =>
    refine h.server ?_
    unfold readFailure
    split
    · exact .onConnection _ c _
    · exact .refl _

/-- Whatever happens, the ledger stays sound. -/
theorem Sound.step (h : l.Sound) (o : Occurrence) : (l.step o).Sound := by
  obtain ⟨ends, arrived, haccounts⟩ := l.accounts o
  exact ⟨activity_next h.activity o, haccounts.balance_step h.balance⟩

theorem sound_start (registry : Registry) (config : DelayConfig) (connections : Connections) :
    (start registry config connections).Sound :=
  ⟨Activity.sound_start registry config connections, .refl _⟩

theorem Sound.run (h : l.Sound) (occurrences : List Occurrence) : (l.run occurrences).Sound := by
  induction occurrences generalizing l with
  | nil => exact h
  | cons o occurrences ih => exact ih (h.step o)

theorem tasks_perm (a : Activity) : a.tasks.Perm (a.underway ++ a.server.ended) := by
  classical
  refine List.perm_iff_count.mpr fun t => ?_
  simp only [Activity.tasks, Server.tasks, Activity.underway, List.count_append]
  omega

/-- Every request that has come in is answered or has a task, and only one of both. -/
theorem Sound.perm (h : l.Sound) :
    (l.posted.map Post.key ++ l.activity.underway.map Task.key).Perm l.inbound := by
  have hkeys : (l.activity.tasks.map Task.key).Perm (l.activity.arrivals.map Task.key) := by
    have hmap := h.activity.perm.map Task.key
    rw [List.map_map] at hmap
    exact hmap
  have htasks := (tasks_perm l.activity).map Task.key
  rw [List.map_append] at htasks
  have hbalance := ((htasks.symm.trans hkeys).append_left (l.posted.map Post.key)).trans h.balance
  rw [← List.append_assoc] at hbalance
  exact (List.perm_append_right_iff _).mp hbalance

/-- While nothing changes the connections from outside, they queue what is posted. -/
theorem queues_run (l : Ledger) {occurrences : List Occurrence}
    (hwork : ∀ o ∈ occurrences, o.isWork = true) :
    ∃ posts, (l.run occurrences).posted = l.posted ++ posts ∧
      Queues l.activity.server (l.run occurrences).activity.server posts := by
  induction occurrences generalizing l with
  | nil => exact ⟨[], (List.append_nil _).symm, .of_connections rfl⟩
  | cons o occurrences ih =>
    obtain ⟨ends, arrived, haccounts⟩ := l.accounts o
    have hfirst : Queues l.activity.server (l.step o).activity.server (l.posts o) := by
      rw [haccounts.posts_eq]
      exact haccounts.queues (hwork o List.mem_cons_self)
    obtain ⟨posts, hposted, hqueues⟩ :=
      ih (l.step o) fun o' ho' => hwork o' (List.mem_cons_of_mem o ho')
    refine ⟨l.posts o ++ posts, ?_, hfirst.trans hqueues⟩
    rw [← List.append_assoc]
    exact hposted

/-- What a server reads is answered once. After every run, the answers that were posted and the
tasks that have not ended make up the requests that have come in, each on its connection and each
once. While the run goes on and nobody outside touches the connections, each of them queues of the
answers for it those whose frames fit its bound, in the order in which they are posted, and nothing
else; if it is open and all of them fit, it queues one frame for each. -/
theorem frames_answered_once (registry : Registry) (config : DelayConfig)
    (connections : Connections) (occurrences : List Occurrence) :
    let l := (start registry config connections).run occurrences
    (l.posted.map Post.key ++ l.activity.underway.map Task.key).Perm l.inbound ∧
      ∀ more : List Occurrence, (∀ o ∈ more, o.isWork = true) →
        ∃ posts, (l.run more).posted = l.posted ++ posts ∧
          Queues l.activity.server (l.run more).activity.server posts ∧
          ∀ d k, l.activity.server.connections.get? d = some k → k.IsOpen →
            (∀ p ∈ posts, p.connection = d → k.codec.Fits (p.answer k.codec)) →
            ∃ k', (l.run more).activity.server.connections.get? d = some k' ∧
              k'.outbox = k.outbox ++
                (posts.filter fun p => p.connection == d).map fun p =>
                  .frame (p.answer k.codec).bytes := by
  intro l
  have h : l.Sound := (sound_start registry config connections).run occurrences
  refine ⟨h.perm, fun more hwork => ?_⟩
  obtain ⟨posts, hposted, hqueues⟩ := queues_run l hwork
  refine ⟨posts, hposted, hqueues, fun d k hk hopen hfits => ?_⟩
  obtain ⟨gate, hk'⟩ := hqueues d k hk
  have hposts : ∀ p ∈ posts.filter fun p => p.connection == d,
      k.codec.Fits (p.answer k.codec) := by
    intro p hp
    obtain ⟨hmem, hconnection⟩ := List.mem_filter.mp hp
    exact hfits p hmem (by simpa using hconnection)
  refine ⟨_, hk', ?_⟩
  rw [← Connection.messages_of_fits hopen hposts]

/-- A connection for small frames, on which the description of the service is asked for. -/
def narrowConnection : Connection :=
  .new 1 (.v4 0 0) (.ofLimit 32)

/-- The question for a description. -/
def probe : Frame :=
  .empty ⟨1, 7, 0, .metadata⟩

/-- A server does not answer every question for a description: one that does not fit the bound of
its connection is dropped, and no fault is sent in its place. -/
theorem description_dropped :
    ¬∀ (registry : Registry) (config : DelayConfig) (k : Connection) (frame : Frame),
      k.IsOpen → frame.header.type = .metadata →
      (registry.service? frame.header.service).isSome →
      ∃ k' : Connection, ∃ f : Frame, ((start registry config [k]).next
          (.move (.receive k.id frame))).server.connections.get? k.id = some k' ∧
        k'.outbox = k.outbox ++ [.frame f.bytes] ∧ f.header.call = frame.header.call := by
  intro hall
  obtain ⟨k', f, hk', houtbox, -⟩ := hall Activity.narrowRegistry ⟨100, 3⟩ narrowConnection probe
    ⟨rfl, rfl⟩ rfl rfl
  have hdropped : (((start Activity.narrowRegistry ⟨100, 3⟩ [narrowConnection]).next
      (.move (.receive 1 probe))).server.connections.get? 1).map Connection.outbox = some [] := by
    decide +kernel
  have hid : narrowConnection.id = 1 := rfl
  rw [hid] at hk'
  rw [hk', Option.map_some, houtbox] at hdropped
  simp [narrowConnection, Connection.new] at hdropped

end Ledger

end RemoteCall.Server
