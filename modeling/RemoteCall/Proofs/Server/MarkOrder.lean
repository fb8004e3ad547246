import RemoteCall.Proofs.Server.WaterMarks

/-!
# How far a queue falls before it resumes

The low mark of a queue is below its high mark for every capacity but two, where rounding makes both
of them one. So a connection that was paused is resumed at a length below the one that paused it,
and with a capacity of two it may be resumed at that very length. The marks of a capacity fit 64
bits when the larger of the two products does.

## Main definitions

* `WaterMarks.PausedAt` : a length of the queue that pauses a connection.

## Main results

* `WaterMarks.ofCapacity_order` : the order of the marks of a capacity.
* `Reservoir.Level.resumed` : when a connection is resumed.
* `Reservoir.resumed_when_shorter` : the lengths at which connections are paused and resumed.
-/

namespace RemoteCall.Server

namespace WaterMarks

/-! ### The order of the marks -/

variable {capacity low high : UInt64}

theorem product?_eq_none_iff {a b : UInt64} :
    product? a b = none ↔ UInt64.size ≤ a.toNat * b.toNat := by
  rw [product?]
  split
  · rename_i hlt
    simp [Nat.not_le.mpr hlt]
  · rename_i hge
    simp [Nat.not_lt.mp hge]

/-- The marks cannot be computed when the capacity is too large for the product of the high mark,
which is the larger one. -/
theorem ofCapacity?_eq_none_iff :
    ofCapacity? capacity = none ↔ UInt64.size ≤ highPercent * capacity.toNat := by
  have hproducts : ofCapacity? capacity = none ↔
      product? (max capacity 1) (UInt64.ofNat lowPercent) = none ∨
        product? (max capacity 1) (UInt64.ofNat highPercent) = none := by
    cases hlow : product? (max capacity 1) (UInt64.ofNat lowPercent) <;>
      cases hhigh : product? (max capacity 1) (UInt64.ofNat highPercent) <;>
      simp [ofCapacity?, hlow, hhigh]
  have hlow : (UInt64.ofNat lowPercent).toNat = 55 := rfl
  have hhigh : (UInt64.ofNat highPercent).toNat = 99 := rfl
  have hone : (1 : UInt64).toNat = 1 := rfl
  rw [hproducts, product?_eq_none_iff, product?_eq_none_iff, toNat_max, hlow, hhigh, hone,
    highPercent, UInt64.size]
  omega

/-- The low mark is below the high mark for every capacity but two. -/
theorem ofCapacity_order (capacity : Nat) :
    (ofCapacity capacity).low ≤ (ofCapacity capacity).high ∧
      (ofCapacity capacity).high ≤ max 1 capacity ∧
      ((ofCapacity capacity).low < (ofCapacity capacity).high ↔ capacity ≠ 2) := by
  simp only [ofCapacity, lowPercent, highPercent]
  omega

/-! ### Lengths that pause -/

/-- A task of the connection has brought the queue to this length, which reaches the high mark, and
no taking has left no more than the low mark since. -/
def PausedAt (marks : WaterMarks) (c : ConnectionId) (length : Nat) (history : List LevelChange) :
    Prop :=
  ∃ before after, history = before ++ .rise c length :: after ∧ marks.high ≤ length ∧
    ∀ left, LevelChange.fall left ∈ after → marks.low < left

/-- A connection is paused when some length has paused it. -/
theorem pauses_iff_pausedAt {marks : WaterMarks} {c : ConnectionId} {history : List LevelChange} :
    marks.Pauses c history ↔ ∃ length, marks.PausedAt c length history := by
  constructor
  · rintro ⟨before, length, after, h⟩
    exact ⟨length, before, after, h⟩
  · rintro ⟨length, before, after, h⟩
    exact ⟨before, length, after, h⟩

end WaterMarks

/-! ### Resuming -/

namespace Reservoir

variable {marks : WaterMarks} {denied : List ConnectionId} {r : Reservoir} {m : QueueMove}
  {k k' : Connection}

/-- What a move adds to the history tells the length that it leaves. -/
theorem history_step (r : Reservoir) (m : QueueMove) :
    (r.step m).history = r.history ∨
      (∃ c, (r.step m).history = r.history ++ [.rise c (r.step m).queue.size]) ∨
      (r.step m).history = r.history ++ [.fall (r.step m).queue.size] := by
  cases m with
  | offer t =>
    rcases hoffer : r.queue.offer t with ⟨result, queue, signals⟩
    cases result with
    | accepted => exact Or.inr (Or.inl ⟨t.connection, by simp only [step, hoffer]⟩)
    | _ => exact Or.inl (by simp only [step, hoffer])
  | take => exact Or.inr (Or.inr rfl)
  | drain => exact Or.inr (Or.inr rfl)
  | close => exact Or.inl rfl

/-- A connection that was paused is read again only when the queue has fallen to the low mark. -/
theorem Level.resumed (h : Level marks denied r) (hk : k ∈ r.connections)
    (hshut : k.gateOpen = false) (hk' : k' ∈ (r.step m).connections) (hid : k'.id = k.id)
    (hopen : k'.gateOpen = true) :
    marks.Pauses k.id r.history ∧
      (r.step m).history = r.history ++ [.fall (r.step m).queue.size] ∧
      (r.step m).queue.size ≤ marks.low := by
  obtain ⟨denied', h'⟩ := h.step m
  have hpaused : marks.Pauses k.id r.history := (h.denies k.id).mp ((h.gate k hk).mp hshut)
  have hresumed : ¬marks.Pauses k.id (r.step m).history := by
    intro hpauses
    have hdenied : k'.id ∈ denied' := hid ▸ (h'.denies k.id).mpr hpauses
    rw [(h'.gate k' hk').mpr hdenied] at hopen
    cases hopen
  rcases r.history_step m with hsame | ⟨c, hrise⟩ | hfall
  · exact absurd (hsame ▸ hpaused) hresumed
  · rw [hrise, marks.pauses_rise] at hresumed
    exact absurd (Or.inl hpaused) hresumed
  · rw [hfall, marks.pauses_fall] at hresumed
    exact ⟨hpaused, hfall, Nat.not_lt.mp fun hlow => hresumed ⟨hpaused, hlow⟩⟩

theorem level_ofMode {capacity low high : UInt64}
    (hmarks : WaterMarks.ofCapacity? capacity = some (low, high)) (queueCapacity : Nat)
    {connections : Connections} (hopen : ∀ k ∈ connections, k.gateOpen = true) :
    Level ⟨low.toNat, high.toNat⟩ []
      (start queueCapacity (.ofMode .waterMark capacity.toNat) connections) := by
  have hmode : OverflowPolicy.ofMode .waterMark capacity.toNat =
      .waterMark ⟨low.toNat, high.toNat⟩ [] := by
    rw [OverflowPolicy.ofMode, WaterMarks.ofCapacity_toNat hmarks]
  rw [hmode]
  exact level_start queueCapacity hopen

/-- The marks of a capacity can be computed in 64 bits unless the product of the high mark does not
fit. Then the low mark is at most the high mark, which is at most the capacity, or one; and it is
below the high mark unless the capacity is two. Whatever was offered to a queue with these marks,
taken off it and drained, in any order, from when all connections were read: when a move resumes a
connection that was paused, the queue has fallen to the low mark; there is a length that paused the
connection, and the queue is shorter than every such length, or not longer if the capacity is
two. -/
theorem resumed_when_shorter (capacity : UInt64) :
    (WaterMarks.ofCapacity? capacity = none ↔ UInt64.size ≤ highPercent * capacity.toNat) ∧
      ∀ low high, WaterMarks.ofCapacity? capacity = some (low, high) →
        low ≤ high ∧ high ≤ max 1 capacity ∧ (low < high ↔ capacity ≠ 2) ∧
          ∀ (queueCapacity : Nat) (connections : Connections) (moves : List QueueMove)
            (m : QueueMove), (∀ k ∈ connections, k.gateOpen = true) →
            let marks : WaterMarks := ⟨low.toNat, high.toNat⟩
            let r := (start queueCapacity (.ofMode .waterMark capacity.toNat) connections).run moves
            ∀ k ∈ r.connections, k.gateOpen = false →
              ∀ k' ∈ (r.step m).connections, k'.id = k.id → k'.gateOpen = true →
                (r.step m).history = r.history ++ [.fall (r.step m).queue.size] ∧
                  (r.step m).queue.size ≤ marks.low ∧
                  (∃ length, marks.PausedAt k.id length r.history) ∧
                  ∀ length, marks.PausedAt k.id length r.history →
                    (r.step m).queue.size ≤ length ∧
                      (capacity ≠ 2 → (r.step m).queue.size < length) := by
  refine ⟨WaterMarks.ofCapacity?_eq_none_iff, fun low high hmarks => ?_⟩
  obtain ⟨hle, hcapacity, hlt⟩ := WaterMarks.ofCapacity_order capacity.toNat
  rw [WaterMarks.ofCapacity_toNat hmarks] at hle hcapacity hlt
  have htwo : capacity.toNat ≠ 2 ↔ capacity ≠ 2 := not_congr (UInt64.toNat_inj (b := 2))
  have hone : (1 : UInt64).toNat = 1 := rfl
  refine ⟨UInt64.le_iff_toNat_le.mpr hle, ?_, ?_, ?_⟩
  · rwa [UInt64.le_iff_toNat_le, WaterMarks.toNat_max, hone]
  · rw [UInt64.lt_iff_toNat_lt, hlt, htwo]
  intro queueCapacity connections moves m hopen marks r k hk hshut k' hk' hid hread
  obtain ⟨denied, h⟩ := (level_ofMode hmarks queueCapacity hopen).run moves
  obtain ⟨hpauses, hfall, hlow⟩ := h.resumed hk hshut hk' hid hread
  refine ⟨hfall, hlow, WaterMarks.pauses_iff_pausedAt.mp hpauses, fun length hpaused => ?_⟩
  obtain ⟨before, after, -, hhigh, -⟩ := hpaused
  refine ⟨Nat.le_trans hlow (Nat.le_trans hle hhigh), fun hother => ?_⟩
  exact Nat.lt_of_le_of_lt hlow (Nat.lt_of_lt_of_le (hlt.mpr (htwo.mpr hother)) hhigh)

/-- Two connections that are read. -/
def twoRead : Connections :=
  [.new 1 (.v4 0 0) .standard, .new 2 (.v4 0 0) .standard]

theorem gateOpen_of_mem_twoRead : ∀ k ∈ twoRead, k.gateOpen = true := by
  simp [twoRead, Connection.new]

/-- A queue of four tasks that pauses a connection with the third one has two when it resumes it. -/
theorem resumed_when_shorter_four :
    let moves : List QueueMove :=
      [.offer (requestOn 2), .offer (requestOn 2), .offer (requestOn 1)]
    let r := (start 4 (.ofMode .waterMark 4) twoRead).run moves
    WaterMarks.ofCapacity? 4 = some (2, 3) ∧ WaterMarks.PausedAt ⟨2, 3⟩ 1 3 r.history ∧
      (r.step .take).connections.map Connection.gateOpen = [true, true] ∧
      (r.step .take).queue.size < 3 := by
  intro moves r
  have hmarks : WaterMarks.ofCapacity? 4 = some (2, 3) := by decide
  have hpaused : WaterMarks.PausedAt ⟨2, 3⟩ 1 3 r.history :=
    ⟨[.rise 2 1, .rise 2 2], [], rfl, Nat.le_refl 3, by simp⟩
  obtain ⟨-, hresumed⟩ := resumed_when_shorter 4
  obtain ⟨-, -, -, hshorter⟩ := hresumed 2 3 hmarks
  have hread : (r.step .take).connections.map Connection.gateOpen = [true, true] := rfl
  refine ⟨hmarks, hpaused, hread, ?_⟩
  obtain ⟨-, -, -, hlengths⟩ := hshorter 4 twoRead moves .take gateOpen_of_mem_twoRead
    (Connection.new 1 (.v4 0 0) .standard).pause (.head _) rfl
    (Connection.new 1 (.v4 0 0) .standard).pause.resume (.head _) rfl rfl
  exact (hlengths 3 hpaused).2 (by decide)

/-- A queue of two tasks has the marks one and one. It pauses the first connection when it has one
task, and resumes it when it has one task again. A capacity of `2 ^ 63` has no marks. -/
theorem resumed_at_same_length :
    let r := (start 2 (.ofMode .waterMark 2) twoRead).run
      [.offer (requestOn 1), .offer (requestOn 2)]
    WaterMarks.ofCapacity? 2 = some (1, 1) ∧ WaterMarks.PausedAt ⟨1, 1⟩ 1 1 r.history ∧
      r.connections.map Connection.gateOpen = [false, false] ∧
      (r.step .take).connections.map Connection.gateOpen = [true, true] ∧
      (r.step .take).queue.size = 1 ∧
      WaterMarks.ofCapacity? 9223372036854775808 = none := by
  refine ⟨by decide, ?_, rfl, rfl, rfl, by decide⟩
  exact ⟨[], [.rise 2 2], rfl, Nat.le_refl 1, by simp⟩

end Reservoir

end RemoteCall.Server
