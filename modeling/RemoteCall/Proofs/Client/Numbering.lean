import RemoteCall.Proofs.Client.Moves
import RemoteCall.Proofs.RequestIds

/-!
# The numbers of requests

A client numbers its requests from its issuer of ids and its clock. Besides the passing of time only
one step touches these: a call that looks for a connection draws an id. The ids that are drawn
increase as long as the clock stays within its bits.

## Main definitions

* `Client.numbering` : what the numbers of requests are made from, and the settings.
* `Numbering.Issued` : these ids were issued, and later ones will be greater.

## Main results

* `Activity.numbering_act`, `Activity.numbering_step` : what leaves the numbering alone.
* `Numbering.Issued.nextId` : an id that is drawn is greater than all before it.
-/

namespace RemoteCall.Client

variable {c c' : Client} {p : PoolId} {l : LinkId}

/-- What the numbers of requests are made from, and the settings. -/
structure Numbering where
  config : ClientConfig
  ids : RequestId.Generator
  nowMs : Nat

/-- What the numbers of requests are made from, and the settings. -/
def numbering (c : Client) : Numbering :=
  ⟨c.config, c.ids, c.nowMs⟩

/-! ### Steps that leave the numbering alone -/

theorem numbering_opened (c : Client) (p : PoolId) (slot : Slot) :
    (c.opened p slot).2.numbering = c.numbering := by
  obtain ⟨link, -, h⟩ := c.opened_eq p slot
  rw [h]
  rfl

theorem numbering_putOnRing (c : Client) (p : PoolId) (l : LinkId) :
    (c.putOnRing p l).numbering = c.numbering := by
  rw [putOnRing]
  split <;> rfl

theorem numbering_recheck (c : Client) (p : PoolId) (l : LinkId) :
    (c.recheck p l).numbering = c.numbering := by
  rw [recheck]
  split <;> rfl

theorem numbering_replaced (c : Client) (r : Reconnect) (l : LinkId) :
    (c.replaced r l).numbering = c.numbering := by
  rw [replaced]
  split <;> rfl

theorem numbering_notReplaced (c : Client) (r : Reconnect) :
    (c.notReplaced r).numbering = c.numbering := by
  rcases c.notReplaced_cases r with ⟨old, -, -, h⟩ | ⟨later, -, h⟩ <;> rw [h] <;> rfl

theorem numbering_withPositions (a : Activity) (l : LinkId) :
    (a.withPositions l).numbering = a.client.numbering := by
  rw [Activity.withPositions]
  split <;> rfl

theorem numbering_cutOff (c : Client) (l : LinkId) : (c.cutOff l).2.numbering = c.numbering := by
  rw [cutOff]
  split
  · rfl
  · split <;> rfl

theorem numbering_install {info : ServiceInfo} {address : SocketAddress}
    (h : c.install p info address = .ok c') : c'.numbering = c.numbering := by
  rw [install] at h
  split at h
  · cases h
    rfl
  split at h
  · cases h
  split at h <;> cases h
  rfl

theorem numbering_understand (c : Client) (p : PoolId) (l : LinkId) (body : Bytes) :
    (c.understand p l body).2.numbering = c.numbering := by
  rw [understand]
  split
  · rfl
  · rfl
  · split
    · rfl
    · rename_i hinstall
      exact numbering_install hinstall

theorem numbering_settleNumber (c : Client) (p : PoolId) :
    (c.settleNumber p).2.numbering = c.numbering := by
  rw [settleNumber]
  split <;> rfl

theorem numbering_readyIfKnown (c : Client) (p : PoolId) (service : ServiceId) :
    (c.readyIfKnown p service).numbering = c.numbering := by
  rw [readyIfKnown]
  split <;> rfl

theorem numbering_resolve {pool : Pool} {endpoint service : String} {slots : List Slot}
    (h : c.resolve p pool endpoint service = .ok (slots, c')) : c'.numbering = c.numbering := by
  rw [resolve] at h
  split at h
  · cases h
  split at h
  · cases h
  split at h
  · cases h
    rfl
  · dsimp only [bind, Except.bind] at h
    split at h
    · cases h
    · rename_i hinstall
      cases h
      exact (numbering_install hinstall).trans rfl

theorem numbering_firstSlots {pool : Pool} {slots : List Slot}
    (h : c.firstSlots p pool = .ok (slots, c')) : c'.numbering = c.numbering := by
  rw [firstSlots] at h
  split at h
  · exact numbering_resolve h
  · cases h
    rfl

theorem numbering_receive (c : Client) (p : PoolId) (l : LinkId) {frame : Frame}
    (h : frame.header.type ≠ .metadata) : (c.receive p l frame).2.numbering = c.numbering := by
  rw [receive]
  cases htype : frame.header.type with
  | abnormal =>
    dsimp only
    split <;> rfl
  | metadata => exact (h htype).elim
  | _ => rfl

theorem numbering_readFailure (c : Client) (e : Error) :
    (c.readFailure e).2.numbering = c.numbering := by
  cases e with
  | rpc fault call => cases call <;> rfl
  | _ => rfl

theorem numbering_finish (c : Client) (s : Sent) (how : Waited) :
    (c.finish s how).2.numbering = c.numbering := by
  cases how with
  | answered result => cases result <;> rfl
  | dropped => rfl
  | timedOut => rfl

theorem Closing.numbering_next (c : Client) (p : PoolId) (s : Closing) :
    (s.next c p).2.numbering = c.numbering := by
  cases s with
  | asking =>
    rw [Closing.next]
    split <;> rfl
  | sweeping left => cases left <;> rfl
  | _ => rfl

theorem Stopping.numbering_next (c : Client) (s : Stopping) :
    (s.next c).2.numbering = c.numbering := by
  cases s with
  | asking =>
    rw [Stopping.next]
    split <;> rfl
  | closing p total s =>
    rw [Stopping.next]
    split
    · rfl
    · split
      · rfl
      · exact s.numbering_next c p
  | failing total left => cases left <;> rfl
  | _ => rfl

/-- The next step of the call draws an id. -/
def Invoking.draws : Invoking → Bool
  | allowed _ => true
  | _ => false

/-- A call draws an id when it looks for a connection, and leaves the numbering alone otherwise. -/
theorem Invoking.numbering_next (c : Client) (p : PoolId) (m : Method) (parameter : Value)
    (timedOut : Bool) (s : Invoking) :
    (s.next c p m parameter timedOut).2.numbering =
      if s.draws then c.nextId.2.numbering else c.numbering := by
  cases s with
  | asking progress => rfl
  | allowed progress =>
    rw [Invoking.next]
    dsimp only
    split
    · rfl
    · split <;> rfl
  | picked progress request l frame => rfl
  | registered progress s frame => rfl
  | tracked progress s frame =>
    rw [Invoking.next]
    split
    · rfl
    · exact c.numbering_finish s .timedOut
  | waiting progress s =>
    rw [Invoking.next]
    split
    · exact c.numbering_finish s .timedOut
    · split
      · rfl
      · exact c.numbering_finish s _
      · exact c.numbering_finish s .dropped
      · exact c.numbering_finish s .dropped
  | returned result => rfl

/-- The id that the next step of the call draws. -/
def Invoking.drawn? (c : Client) (s : Invoking) : Option RequestId :=
  if s.draws then some c.nextId.1 else none

/-- The id that the next step of the task draws. -/
def Task.drawn? (c : Client) : Task → Option RequestId
  | invoke _ _ _ s => s.drawn? c
  | _ => none

namespace Activity

variable (a : Activity)

/-- The steps of tasks that draw no id leave the numbering alone. -/
theorem numbering_act (luck : Bool) {t : Task} (h : t.drawn? a.client = none) :
    (a.act luck t).client.numbering = a.client.numbering := by
  cases t with
  | attach p slot s =>
    cases s with
    | connecting =>
      rw [act, attachNext]
      split
      · exact a.client.numbering_opened p slot
      · split <;> rfl
    | opened l => exact a.client.numbering_putOnRing p l
    | refused l => exact a.client.numbering_putOnRing p l
    | rechecking l => exact a.client.numbering_recheck p l
    | ended l => rfl
  | plan p l s => cases s <;> rfl
  | reopen r s =>
    cases s with
    | connecting =>
      rw [act, reopenNext]
      split
      · split
        · exact a.client.numbering_opened r.pool _
        · rfl
      · exact (numbering_notReplaced _ r).trans (numbering_withPositions a r.old)
    | opened l => exact (numbering_replaced _ r l).trans (numbering_withPositions a r.old)
    | rechecking l => exact a.client.numbering_recheck r.pool l
    | ended => rfl
  | describe p s =>
    cases s with
    | arrived l body =>
      have hsame := a.client.numbering_understand p l body
      rw [act, describeNext]
      rcases hnext : a.client.understand p l body with ⟨_ | ⟨address, weight⟩, client⟩ <;>
        rwa [hnext] at hsame
    | understood address weight =>
      have hsame := a.client.numbering_settleNumber p
      rw [act, describeNext]
      rcases hnext : a.client.settleNumber p with ⟨_ | _, client⟩ <;> rwa [hnext] at hsame
    | ended => rfl
  | fanOut f ks ended =>
    rw [act, fanOutNext]
    split <;> rfl
  | closePool p s => exact s.numbering_next a.client p
  | connect service location s =>
    rcases hnext : a.connectNext service location (!luck) s with ⟨s', client, begun⟩
    have hclient : (a.act luck (.connect service location s)).client = client := by
      rw [act, hnext]
    rw [hclient]
    cases a.connects hnext with
    | attaching hpool hslots => exact numbering_firstSlots hslots
    | listed => exact a.client.numbering_readyIfKnown _ _
    | closing => exact Closing.numbering_next a.client _ _
    | _ => rfl
  | invoke p m parameter s =>
    have hdraws : ¬s.draws = true := fun hdraws =>
      Option.some_ne_none _ ((if_pos hdraws).symm.trans h)
    exact (s.numbering_next a.client p m parameter (!luck)).trans (if_neg hdraws)
  | shutdown s => exact s.numbering_next a.client

/-- The id that a move draws, and the task that draws it. -/
def drawn? : Move → Option (TaskId × RequestId)
  | .task k _ => (a.tasks[k]?.bind fun t => t.drawn? a.client).map fun id => (k, id)
  | _ => none

/-- A move draws an id, or at most time passes. -/
theorem numbering_step (m : Move) :
    (∃ k, a.drawn? m = some (k, a.client.nextId.1) ∧
        (a.step m).client.numbering = a.client.nextId.2.numbering) ∨
      a.drawn? m = none ∧ ∃ ms, (a.step m).client.numbering =
        { a.client.numbering with nowMs := a.client.nowMs + ms } := by
  have hkept {b : Activity} (h : b.client.numbering = a.client.numbering) :
      ∃ ms, b.client.numbering = { a.client.numbering with nowMs := a.client.nowMs + ms } :=
    ⟨0, h⟩
  cases m with
  | task k luck =>
    rw [step, drawn?]
    cases a.tasks[k]? with
    | none => exact Or.inr ⟨rfl, hkept rfl⟩
    | some t =>
      rw [Option.bind_some]
      cases hdrawn : t.drawn? a.client with
      | none => exact Or.inr ⟨rfl, hkept (a.numbering_act luck hdrawn)⟩
      | some id =>
        cases t with
        | invoke p m parameter s =>
          rw [Task.drawn?, Invoking.drawn?] at hdrawn
          obtain ⟨hdraws, hid⟩ := Option.ite_none_right_eq_some.1 hdrawn
          obtain rfl := Option.some.inj hid
          exact Or.inl ⟨k, rfl,
            (s.numbering_next a.client p m parameter (!luck)).trans (if_pos hdraws)⟩
        | _ => cases hdrawn
  | frame l frame =>
    refine Or.inr ⟨rfl, hkept ?_⟩
    rw [step, receive]
    split
    · rfl
    · split
      · rfl
      · rename_i htype
        exact a.client.numbering_receive _ l htype
  | unreadable l e => exact Or.inr ⟨rfl, hkept (a.client.numbering_readFailure e)⟩
  | lose l =>
    refine Or.inr ⟨rfl, hkept ?_⟩
    rw [step, lose]
    split
    · rename_i hcut
      have hsame := a.client.numbering_cutOff l
      rwa [hcut] at hsame
    · rfl
  | wake i =>
    refine Or.inr ⟨rfl, hkept ?_⟩
    rw [step, wake]
    split
    · rfl
    · dsimp only
      split <;> rfl
  | abort k =>
    refine Or.inr ⟨rfl, hkept ?_⟩
    rw [step, Activity.abort]
    split
    · split <;> rfl
    · rfl
  | elapse ms => exact Or.inr ⟨rfl, ms, rfl⟩
  | _ => exact Or.inr ⟨rfl, hkept rfl⟩

end Activity

/-! ### Ids that are drawn -/

/-- These ids were issued, the last one first, and the clock is not behind the last of them. -/
structure Numbering.Issued (n : Numbering) (drawn : List RequestId) : Prop where
  worker_lt : n.ids.worker.toNat < 2 ^ 12
  sequence_lt : n.ids.sequence.toNat < 2 ^ 10
  last_le : n.ids.last.toNat ≤ n.nowMs
  decreasing : drawn.Pairwise (· > ·)
  le_latest : ∀ id ∈ drawn, id ≤ n.ids.latest

namespace Numbering.Issued

variable {n : Numbering} {drawn : List RequestId}

theorem elapse (h : n.Issued drawn) (ms : Nat) : Issued { n with nowMs := n.nowMs + ms } drawn :=
  { h with last_le := Nat.le_add_right_of_le h.last_le }

/-- The issuer of a client is ready for the milliseconds that are ahead. -/
theorem ready (h : c.numbering.Issued drawn) (hbound : c.nowMs + 1 < 2 ^ 42) :
    c.ids.Ready [UInt64.ofNat c.nowMs, UInt64.ofNat (c.nowMs + 1)] ∧
      c.ids.last < UInt64.ofNat (c.nowMs + 1) := by
  have hlast : c.ids.last.toNat ≤ c.nowMs := h.last_le
  have hsize : UInt64.size = 2 ^ 64 := rfl
  have hnow : (UInt64.ofNat c.nowMs).toNat = c.nowMs := UInt64.toNat_ofNat_of_lt' (by omega)
  have hlater : (UInt64.ofNat (c.nowMs + 1)).toNat = c.nowMs + 1 :=
    UInt64.toNat_ofNat_of_lt' (by omega)
  have hle : c.ids.last ≤ UInt64.ofNat c.nowMs := by
    rwa [UInt64.le_iff_toNat_le, hnow]
  have hlt : UInt64.ofNat c.nowMs < UInt64.ofNat (c.nowMs + 1) := by
    rw [UInt64.lt_iff_toNat_lt, hnow, hlater]
    exact Nat.lt_succ_self _
  generalize UInt64.ofNat c.nowMs = now at hnow hle hlt ⊢
  generalize UInt64.ofNat (c.nowMs + 1) = later at hlater hlt ⊢
  have hlast_lt : c.ids.last < later := UInt64.lt_of_le_of_lt hle hlt
  refine ⟨⟨h.worker_lt, h.sequence_lt, ?_, ?_⟩, hlast_lt⟩
  · simp only [List.pairwise_cons, List.mem_cons, List.not_mem_nil, or_false, forall_eq_or_imp,
      forall_eq, List.Pairwise.nil, and_true, false_imp_iff, implies_true]
    exact ⟨⟨hle, UInt64.le_of_lt hlast_lt⟩, UInt64.le_of_lt hlt⟩
  · simp only [List.mem_cons, List.not_mem_nil, or_false, forall_eq_or_imp, forall_eq, hnow, hlater]
    omega

/-- An id that is drawn is greater than all before it. -/
theorem nextId (h : c.numbering.Issued drawn) (hbound : c.nowMs + 1 < 2 ^ 42) :
    c.nextId.2.numbering.Issued (c.nextId.1 :: drawn) := by
  obtain ⟨hready, hlater⟩ := h.ready hbound
  obtain ⟨⟨id, ids, rest⟩, hnext⟩ := Option.isSome_iff_exists.1
    (RequestId.Generator.isSome_next ⟨_, List.mem_cons_of_mem _ List.mem_cons_self, hlater⟩)
  obtain ⟨hready', hworker, rfl, hlt⟩ := hready.next hnext
  have hc : c.nextId = (ids.latest, { c with ids, nowMs := max c.nowMs ids.last.toNat }) := by
    rw [Client.nextId, hnext]
  have hgreater : ∀ id ∈ drawn, id < ids.latest := fun id hid =>
    UInt64.lt_of_le_of_lt (h.le_latest id hid) hlt
  rw [hc]
  exact
    { worker_lt := hready'.worker_lt
      sequence_lt := hready'.sequence_lt
      last_le := Nat.le_max_right _ _
      decreasing := List.pairwise_cons.2 ⟨hgreater, h.decreasing⟩
      le_latest := List.forall_mem_cons.2
        ⟨UInt64.le_refl _, fun id hid => UInt64.le_of_lt (hgreater id hid)⟩ }

end Numbering.Issued

theorem nowMs_le_nextId (c : Client) : c.nowMs ≤ c.nextId.2.nowMs := by
  rw [nextId]
  split
  · exact Nat.le_max_left _ _
  · exact Nat.le_refl _

theorem config_nextId (c : Client) : c.nextId.2.config = c.config := by
  rw [nextId]
  split <;> rfl

end RemoteCall.Client
