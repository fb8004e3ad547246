import Mathlib.Algebra.Group.Nat.Defs
import Mathlib.Data.List.Nodup
import Mathlib.Data.List.TakeWhile
import Mathlib.Data.Set.Insert
import RemoteCall.Frame
import RemoteCall.RequestId

/-!
# Request ids do not repeat

The three parts of a request id stand in bits of their own, so ids are ordered by their millisecond
first and by their sequence number last, and the worker can be read off. An issuer only moves on: on
a clock that does not go back every id is greater than the one before it, across the milliseconds
whose sequence numbers are used up and the wait for the next one.

Any number of issuers work at the same time, each asked in any order. Each has a clock of its own,
which is the list of the readings that it still gives; an issuer that needs a later reading than
there is does not answer.

## Main definitions

* `RequestId.Fits` : the parts of an id are within their bits.
* `Generator.Ready` : an issuer and the clock ahead of it.
* `Issuing` : issuers at work, and the ids that they have issued.

## Main results

* `Generator.Ready.next` : the next id of an issuer is greater than all before it.
* `ids_never_repeat` : no two calls get the same id.
-/

namespace RemoteCall.RequestId

/-! ### The parts of an id -/

/-- The milliseconds, the worker and the sequence number are within their bits. -/
structure Fits (elapsed w sequence : UInt64) : Prop where
  elapsed_lt : elapsed.toNat < 2 ^ 42
  worker_lt : w.toNat < 2 ^ 12
  sequence_lt : sequence.toNat < 2 ^ 10

variable {elapsed elapsed' w sequence sequence' : UInt64}

/-- The parts of an id stand side by side. -/
theorem toNat_pack (h : Fits elapsed w sequence) :
    (pack elapsed w sequence).toNat =
      elapsed.toNat * 2 ^ 22 + (w.toNat * 2 ^ 10 + sequence.toNat) := by
  obtain ⟨helapsed, hworker, hsequence⟩ := h
  have hhigh : (elapsed <<< 22).toNat = elapsed.toNat <<< 22 := by
    rw [UInt64.toNat_shiftLeft, Nat.shiftLeft_eq, Nat.shiftLeft_eq]
    exact Nat.mod_eq_of_lt (by simp; omega)
  have hmiddle : (w <<< 10).toNat = w.toNat <<< 10 := by
    rw [UInt64.toNat_shiftLeft, Nat.shiftLeft_eq, Nat.shiftLeft_eq]
    exact Nat.mod_eq_of_lt (by simp; omega)
  have hlow : w.toNat <<< 10 ||| sequence.toNat = w.toNat * 2 ^ 10 + sequence.toNat := by
    rw [← Nat.shiftLeft_add_eq_or_of_lt hsequence, Nat.shiftLeft_eq]
  rw [pack, UInt64.toNat_or, UInt64.toNat_or, hhigh, hmiddle, Nat.or_assoc, hlow,
    ← Nat.shiftLeft_add_eq_or_of_lt (by omega), Nat.shiftLeft_eq]

/-- A worker number is cut to its bits. -/
theorem toNat_and_maxWorker (n : UInt64) : (n &&& maxWorker).toNat = n.toNat % 2 ^ 12 := by
  have hmask : maxWorker.toNat = 2 ^ 12 - 1 := rfl
  rw [UInt64.toNat_and, hmask, Nat.and_two_pow_sub_one_eq_mod]

theorem worker_pack (h : Fits elapsed w sequence) : worker (pack elapsed w sequence) = w := by
  apply UInt64.toNat_inj.1
  rw [worker, toNat_and_maxWorker, UInt64.toNat_shiftRight, toNat_pack h,
    Nat.shiftRight_eq_div_pow]
  obtain ⟨helapsed, hworker, hsequence⟩ := h
  simp
  omega

/-- Ids of one worker are ordered by millisecond and then by sequence number. -/
theorem pack_lt_pack (h : Fits elapsed w sequence) (h' : Fits elapsed' w sequence')
    (hlt : elapsed < elapsed' ∨ elapsed = elapsed' ∧ sequence < sequence') :
    pack elapsed w sequence < pack elapsed' w sequence' := by
  rw [UInt64.lt_iff_toNat_lt, toNat_pack h, toNat_pack h']
  have := h.worker_lt
  have := h.sequence_lt
  rcases hlt with hlt | ⟨rfl, hlt⟩
  · have := UInt64.lt_iff_toNat_lt.1 hlt
    omega
  · have := UInt64.lt_iff_toNat_lt.1 hlt
    omega

/-- An id of a worker other than the zeroth is beyond all numbers that fit into a byte. -/
theorem byte_lt_pack (h : Fits elapsed w sequence) (hworker : 1 ≤ w) (b : UInt8) :
    b.toUInt64 < pack elapsed w sequence := by
  have hbyte : b.toNat < 2 ^ 8 := b.toNat_lt
  have hone : 1 ≤ w.toNat := UInt64.le_iff_toNat_le.1 hworker
  rw [UInt64.lt_iff_toNat_lt, toNat_pack h, UInt8.toNat_toUInt64]
  omega

/-- The next sequence number is one more, or zero when there is none left. -/
theorem toNat_nextSequence (sequence : UInt64) :
    ((sequence + 1) &&& maxSequence).toNat = (sequence.toNat + 1) % 2 ^ 10 := by
  have hmask : maxSequence.toNat = 2 ^ 10 - 1 := rfl
  rw [UInt64.toNat_and, hmask, Nat.and_two_pow_sub_one_eq_mod, UInt64.toNat_add,
    UInt64.toNat_one]
  omega

/-! ### One issuer -/

namespace Generator

variable {g g' : Generator} {clock rest : List UInt64} {id : RequestId}

/-- The id that the issuer issued last. Before the first one it is the least id of its worker, which
is never issued. -/
def latest (g : Generator) : RequestId :=
  pack g.last g.worker g.sequence

/-- The parts of the latest id fit, and the clock ahead gives readings within bounds that go back
neither among themselves nor behind the latest id. -/
structure Ready (g : Generator) (clock : List UInt64) : Prop where
  worker_lt : g.worker.toNat < 2 ^ 12
  sequence_lt : g.sequence.toNat < 2 ^ 10
  steady : (g.last :: clock).Pairwise (· ≤ ·)
  bounded : ∀ now ∈ g.last :: clock, now.toNat < 2 ^ 42

/-- An id is issued for one of the readings ahead: with the next sequence number of the millisecond,
if there is one, or with the first one of another millisecond. -/
theorem next_cases (h : g.next clock = some (id, g', rest)) :
    ∃ now sequence, g.issue now sequence = (id, g') ∧ (now :: rest) <:+ clock ∧
      (now = g.last ∧ sequence = (g.sequence + 1) &&& maxSequence ∧ sequence ≠ 0 ∨
        now ≠ g.last ∧ sequence = 0) := by
  cases clock with
  | nil => cases h
  | cons now clock =>
    rw [next] at h
    split at h
    · rename_i hnow
      dsimp only at h
      split at h
      · -- The sequence numbers of this millisecond are used up.
        split at h
        · cases h
        · rename_i later left hlater
          cases h
          have hsuffix : (later :: rest) <:+ clock := hlater ▸ List.dropWhile_suffix _
          have hgreater : ¬later ≤ g.last := by
            have := List.head?_dropWhile_not (fun reading => decide (reading ≤ g.last)) clock
            rw [hlater] at this
            simpa using this
          refine ⟨later, 0, rfl, hsuffix.trans (List.suffix_cons _ _), Or.inr ⟨?_, rfl⟩⟩
          rintro rfl
          exact hgreater (UInt64.le_refl _)
      · rename_i hsequence
        cases h
        exact ⟨now, _, rfl, List.suffix_refl _, Or.inl ⟨hnow, rfl, hsequence⟩⟩
    · rename_i hnow
      cases h
      exact ⟨now, 0, rfl, List.suffix_refl _, Or.inr ⟨hnow, rfl⟩⟩

/-- An issuer answers when its clock comes to a later millisecond. -/
theorem isSome_next (h : ∃ now ∈ clock, g.last < now) : (g.next clock).isSome := by
  obtain ⟨later, hmem, hlater⟩ := h
  cases clock with
  | nil => cases hmem
  | cons now clock =>
    rw [next]
    split
    · rename_i hnow
      dsimp only
      split
      · have hrest : clock.dropWhile (· ≤ g.last) ≠ [] := by
          rw [ne_eq, List.dropWhile_eq_nil_iff]
          intro hall
          rcases List.mem_cons.1 hmem with rfl | hmem
          · exact absurd hnow (UInt64.ne_of_lt hlater).symm
          · exact UInt64.not_le.2 hlater (by simpa using hall later hmem)
        split
        · contradiction
        · rfl
      · rfl
    · rfl

/-- The last sequence number of a millisecond was issued. -/
example : Generator.next ⟨5, 7, 1023⟩ [7, 7, 8, 9] = some (pack 8 5 0, ⟨5, 8, 0⟩, [9]) := by
  decide

namespace Ready

theorem new (w : UInt64) (hsteady : clock.Pairwise (· ≤ ·))
    (hbounded : ∀ now ∈ clock, now.toNat < 2 ^ 42) : (Generator.new w).Ready clock where
  worker_lt := by
    rw [Generator.new, toNat_and_maxWorker]
    exact Nat.mod_lt _ (by decide)
  sequence_lt := Nat.two_pow_pos 10
  steady := List.pairwise_cons.2 ⟨fun _ _ => UInt64.zero_le, hsteady⟩
  bounded := List.forall_mem_cons.2 ⟨Nat.two_pow_pos 42, hbounded⟩

theorem fits (h : g.Ready clock) : Fits g.last g.worker g.sequence :=
  ⟨h.bounded _ List.mem_cons_self, h.worker_lt, h.sequence_lt⟩

/-- The next id is greater than the latest one, and it is the latest one afterwards. -/
theorem next (h : g.Ready clock) (hnext : g.next clock = some (id, g', rest)) :
    g'.Ready rest ∧ g'.worker = g.worker ∧ id = g'.latest ∧ g.latest < g'.latest := by
  obtain ⟨now, sequence, hissue, hsuffix, hparts⟩ := next_cases hnext
  obtain ⟨rfl, rfl⟩ : pack now g.worker sequence = id ∧
      { g with last := now, sequence } = g' := by simpa [issue] using hissue
  have hle : g.last ≤ now := List.rel_of_pairwise_cons h.steady (hsuffix.subset List.mem_cons_self)
  have hsequence : sequence.toNat < 2 ^ 10 := by
    rcases hparts with ⟨-, rfl, -⟩ | ⟨-, rfl⟩
    · rw [toNat_nextSequence]
      exact Nat.mod_lt _ (by decide)
    · decide
  have hready : Ready { g with last := now, sequence } rest := by
    refine ⟨h.worker_lt, hsequence, h.steady.of_cons.sublist hsuffix.sublist,
      fun reading hmem => ?_⟩
    exact h.bounded reading (List.mem_cons_of_mem _ (hsuffix.subset hmem))
  refine ⟨hready, rfl, rfl, pack_lt_pack h.fits hready.fits ?_⟩
  rcases hparts with ⟨rfl, rfl, hne⟩ | ⟨hne, -⟩
  · -- The sequence did not begin again, as the next number is not zero.
    refine Or.inr ⟨rfl, UInt64.lt_iff_toNat_lt.2 ?_⟩
    have hzero : ((g.sequence + 1) &&& maxSequence).toNat ≠ 0 := fun h =>
      hne (UInt64.toNat_inj.1 h)
    rw [toNat_nextSequence] at hzero ⊢
    have := h.sequence_lt
    omega
  · exact Or.inl (UInt64.lt_of_le_of_ne hle hne.symm)

end Ready

end Generator

/-! ### Issuers at work -/

/-- An issuer and the readings that its clock still gives. -/
structure Issuer where
  generator : Generator
  clock : List UInt64

/-- Asks an issuer for an id. -/
def Issuer.ask (x : Issuer) : Option (RequestId × Issuer) :=
  (x.generator.next x.clock).map fun (id, generator, clock) => (id, ⟨generator, clock⟩)

/-- Issuers at work. -/
structure Issuing (ι : Type*) where
  issuers : ι → Issuer
  /-- The ids so far in the order in which they were issued, each with its issuer. -/
  issued : List (ι × RequestId)

namespace Issuing

variable {ι : Type*} [DecidableEq ι]

/-- Issuers that were not asked yet. -/
def start (workers : ι → UInt64) (clocks : ι → List UInt64) : Issuing ι :=
  ⟨fun i => ⟨.new (workers i), clocks i⟩, []⟩

/-- Somebody asks an issuer. A call that gets no answer changes nothing, and neither do those that
wait behind it. -/
def step (s : Issuing ι) (i : ι) : Issuing ι :=
  match (s.issuers i).ask with
  | none => s
  | some (id, x) => ⟨Function.update s.issuers i x, s.issued ++ [(i, id)]⟩

/-- The issuers are asked one after another. -/
def run (s : Issuing ι) (calls : List ι) : Issuing ι :=
  calls.foldl step s

/-- All that a call changes. -/
theorem step_cases (s : Issuing ι) (i : ι) :
    s.step i = s ∨ ∃ id generator clock,
      (s.issuers i).generator.next (s.issuers i).clock = some (id, generator, clock) ∧
        (s.step i).issuers i = ⟨generator, clock⟩ ∧
        (∀ j, j ≠ i → (s.step i).issuers j = s.issuers j) ∧
        (s.step i).issued = s.issued ++ [(i, id)] := by
  rw [step, Issuer.ask]
  cases hnext : (s.issuers i).generator.next (s.issuers i).clock with
  | none => exact Or.inl rfl
  | some answer =>
    obtain ⟨id, generator, clock⟩ := answer
    exact Or.inr ⟨id, generator, clock, rfl, Function.update_self .., fun j hj =>
      Function.update_of_ne hj .., rfl⟩

end Issuing

/-- The issuer of a worker is ready for the clock ahead of it, and these ids are those that it has
issued so far. -/
structure Issuer.Follows (x : Issuer) (w : UInt64) (ids : Set RequestId) : Prop where
  ready : x.generator.Ready x.clock
  worker_eq : x.generator.worker = w
  le_latest : ∀ id ∈ ids, id ≤ x.generator.latest
  fits : ∀ id ∈ ids, ∃ elapsed sequence, Fits elapsed w sequence ∧ id = pack elapsed w sequence

/-- An id that was issued follows all those before it. -/
theorem Issuer.Follows.next {x : Issuer} {w : UInt64} {ids : Set RequestId} (h : x.Follows w ids)
    {id : RequestId} {generator : Generator} {clock : List UInt64}
    (hnext : x.generator.next x.clock = some (id, generator, clock)) :
    Follows ⟨generator, clock⟩ w (insert id ids) ∧ ∀ old ∈ ids, old < id := by
  obtain ⟨hready, hworker, rfl, hlt⟩ := h.ready.next hnext
  rw [h.worker_eq] at hworker
  have hgreater : ∀ old ∈ ids, old < generator.latest := fun old hold =>
    UInt64.lt_of_le_of_lt (h.le_latest old hold) hlt
  refine ⟨⟨hready, hworker, ?_, ?_⟩, hgreater⟩
  · rintro old (rfl | hold)
    · exact UInt64.le_refl _
    · exact UInt64.le_of_lt (hgreater old hold)
  · rintro old (rfl | hold)
    · exact ⟨_, _, hworker ▸ hready.fits, by rw [Generator.latest, hworker]⟩
    · exact h.fits old hold

namespace Issuing

variable {ι : Type*}

/-- The ids that an issuer has issued so far. -/
def idsOf (s : Issuing ι) (i : ι) : Set RequestId :=
  {id | (i, id) ∈ s.issued}

/-- The invariant of a run. -/
structure Sound (workers : ι → UInt64) (s : Issuing ι) : Prop where
  follows (i : ι) : (s.issuers i).Follows (workers i) (s.idsOf i)
  increasing : s.issued.Pairwise fun a b => a.1 = b.1 → a.2 < b.2

variable {workers : ι → UInt64} {clocks : ι → List UInt64} {s : Issuing ι}

theorem sound_start (hworkers : ∀ i, workers i ≤ maxWorker)
    (hsteady : ∀ i, (clocks i).Pairwise (· ≤ ·))
    (hbounded : ∀ i, ∀ now ∈ clocks i, now.toNat < 2 ^ 42) :
    Sound workers (start workers clocks) := by
  refine ⟨fun i => ⟨.new _ (hsteady i) (hbounded i), ?_, by simp [start, idsOf],
    by simp [start, idsOf]⟩, .nil⟩
  have hle : (workers i).toNat ≤ 2 ^ 12 - 1 := UInt64.le_iff_toNat_le.1 (hworkers i)
  apply UInt64.toNat_inj.1
  change (workers i &&& maxWorker).toNat = _
  rw [toNat_and_maxWorker]
  omega

/-- Ids of issuers with different workers differ, as their workers can be read off. -/
theorem Sound.ne_of_ne (h : Sound workers s) (hinjective : Function.Injective workers) {i j : ι}
    (hij : i ≠ j) {a b : RequestId} (ha : a ∈ s.idsOf i) (hb : b ∈ s.idsOf j) : a ≠ b := by
  rintro rfl
  obtain ⟨_, _, hi, rfl⟩ := (h.follows i).fits a ha
  obtain ⟨_, _, hj, heq⟩ := (h.follows j).fits _ hb
  refine hij (hinjective ?_)
  rw [← worker_pack hi, heq, worker_pack hj]

variable [DecidableEq ι]

/-- Every call keeps the invariant. -/
theorem Sound.step (h : Sound workers s) (i : ι) : Sound workers (s.step i) := by
  rcases s.step_cases i with hstep | ⟨id, generator, clock, hnext, hissuer, hothers, hissued⟩
  · rwa [hstep]
  obtain ⟨hfollows, hgreater⟩ := (h.follows i).next hnext
  refine ⟨fun j => ?_, ?_⟩
  · by_cases hj : j = i
    · subst hj
      have hids : (s.step j).idsOf j = insert id (s.idsOf j) := by
        ext old
        simp [idsOf, hissued, or_comm]
      rwa [hissuer, hids]
    · have hids : (s.step i).idsOf j = s.idsOf j := by
        ext old
        simp [idsOf, hissued, hj]
      rw [hothers j hj, hids]
      exact h.follows j
  · rw [hissued]
    refine List.pairwise_append.2 ⟨h.increasing, List.pairwise_singleton _ _, ?_⟩
    rintro ⟨j, old⟩ hold new hnew hj
    obtain rfl := List.mem_singleton.1 hnew
    obtain rfl : j = i := hj
    exact hgreater old hold

theorem Sound.run (h : Sound workers s) (calls : List ι) : Sound workers (s.run calls) := by
  induction calls generalizing s with
  | nil => exact h
  | cons i calls ih => exact ih (h.step i)

end Issuing

/-! ### Worker numbers -/

theorem toNat_nthWorker (n : UInt64) : (nthWorker n).toNat = n.toNat % 4095 + 1 := by
  have hmax : maxWorker.toNat = 4095 := rfl
  rw [nthWorker, UInt64.toNat_add, UInt64.toNat_mod, hmax, UInt64.toNat_one]
  omega

theorem one_le_nthWorker (n : UInt64) : 1 ≤ nthWorker n := by
  rw [UInt64.le_iff_toNat_le, toNat_nthWorker, UInt64.toNat_one]
  omega

theorem nthWorker_le (n : UInt64) : nthWorker n ≤ maxWorker := by
  have hmax : maxWorker.toNat = 4095 := rfl
  rw [UInt64.le_iff_toNat_le, toNat_nthWorker, hmax]
  omega

/-- Worker numbers handed out one after another differ until all were handed out. -/
theorem nodup_nthWorker {n : UInt64} (h : n.toNat + 4095 ≤ 2 ^ 64) :
    ((List.range 4095).map fun k => nthWorker (n + UInt64.ofNat k)).Nodup := by
  have hcount {k : Nat} (hk : k < 4095) : (n + UInt64.ofNat k).toNat = n.toNat + k := by
    have hsize : UInt64.size = 2 ^ 64 := rfl
    rw [UInt64.toNat_add, UInt64.toNat_ofNat_of_lt' (by omega), Nat.mod_eq_of_lt (by omega)]
  refine List.Nodup.map_on (fun a ha b hb hab => ?_) List.nodup_range
  have ha := List.mem_range.1 ha
  have hb := List.mem_range.1 hb
  have hab := congrArg UInt64.toNat hab
  rw [toNat_nthWorker, toNat_nthWorker, hcount ha, hcount hb] at hab
  omega

/-- Issuers with workers of their own never issue an id twice, in whatever order they are asked, on
clocks that do not go back and stay within their bits. Whenever the clock of an issuer comes to a
later millisecond, a call gets its id; the ids of one issuer increase and tell its worker, those of
workers that were handed out are never one of the reserved requests, and of the workers handed out
no two among 4095 in a row are the same. -/
theorem ids_never_repeat {ι : Type*} [DecidableEq ι] {workers : ι → UInt64}
    {clocks : ι → List UInt64} (hworkers : ∀ i, workers i ≤ maxWorker)
    (hinjective : Function.Injective workers) (hsteady : ∀ i, (clocks i).Pairwise (· ≤ ·))
    (hbounded : ∀ i, ∀ now ∈ clocks i, now.toNat < 2 ^ 42) (calls : List ι) :
    let s := (Issuing.start workers clocks).run calls
    (∀ i, (∃ now ∈ (s.issuers i).clock, (s.issuers i).generator.last < now) →
        (s.issuers i).ask.isSome) ∧
      (s.issued.Pairwise fun a b => a.1 = b.1 → a.2 < b.2) ∧
      (∀ i id, (i, id) ∈ s.issued → worker id = workers i) ∧
      (s.issued.map Prod.snd).Nodup ∧
      (∀ i id, (i, id) ∈ s.issued → (∃ n, workers i = nthWorker n) → ∀ service,
        id ≠ (Header.metadataProbe service).request ∧ id ≠ (Header.heartbeat service).request) ∧
      ∀ n : UInt64, n.toNat + 4095 ≤ 2 ^ 64 →
        ((List.range 4095).map fun k => nthWorker (n + UInt64.ofNat k)).Nodup ∧
          ∀ k, 1 ≤ nthWorker (n + k) ∧ nthWorker (n + k) ≤ maxWorker := by
  intro s
  have hsound : s.Sound workers := (Issuing.sound_start hworkers hsteady hbounded).run calls
  refine ⟨fun i hlater => ?_, hsound.increasing, fun i id hid => ?_, ?_, fun i id hid hn service => ?_,
    fun n hn => ⟨nodup_nthWorker hn, fun k => ⟨one_le_nthWorker _, nthWorker_le _⟩⟩⟩
  · rw [Issuer.ask, Option.isSome_map]
    exact Generator.isSome_next hlater
  · obtain ⟨_, _, hfits, rfl⟩ := (hsound.follows i).fits id hid
    exact worker_pack hfits
  · -- Ids of one issuer increase, and those of different issuers have different workers.
    rw [List.Nodup, List.pairwise_map]
    refine hsound.increasing.imp_of_mem fun {a b} ha hb hlt => ?_
    by_cases hab : a.1 = b.1
    · exact UInt64.ne_of_lt (hlt hab)
    · exact hsound.ne_of_ne hinjective hab ha hb
  · obtain ⟨_, _, hfits, rfl⟩ := (hsound.follows i).fits id hid
    obtain ⟨n, hn⟩ := hn
    have hlt := byte_lt_pack hfits (hn ▸ one_le_nthWorker n)
    exact ⟨(UInt64.ne_of_lt (hlt Header.probeId)).symm, (UInt64.ne_of_lt (hlt Header.heartbeatId)).symm⟩

/-- The first two workers handed out, on clocks that stand still for three readings. -/
def twoIssuers : Issuing Bool :=
  .start (fun b => nthWorker (if b then 0 else 1)) fun _ => [7, 7, 7, 8]

/-- Two issuers are asked in turn while the clock stands still, and once more after it: the ids
differ, and there is one for every call but the last. -/
theorem ids_never_repeat_in_turn :
    (∀ b : Bool, nthWorker (if b then 0 else 1) ≤ maxWorker) ∧
      Function.Injective (fun b : Bool => nthWorker (if b then 0 else 1)) ∧
      [7, 7, 7, 8].Pairwise (· ≤ · : UInt64 → UInt64 → Prop) ∧
      (∀ now ∈ [7, 7, 7, 8], (now : UInt64).toNat < 2 ^ 42) ∧
      (twoIssuers.run [true, false, true, false, true, true, true]).issued =
        [(true, pack 7 1 0), (false, pack 7 2 0), (true, pack 7 1 1), (false, pack 7 2 1),
          (true, pack 7 1 2), (true, pack 8 1 0)] ∧
      ((twoIssuers.run [true, false, true, false, true, true, true]).issued.map Prod.snd).Nodup :=
  have hworkers : ∀ b : Bool, nthWorker (if b then 0 else 1) ≤ maxWorker := fun _ => nthWorker_le _
  have hinjective : Function.Injective (fun b : Bool => nthWorker (if b then 0 else 1)) := by
    unfold Function.Injective
    decide
  have hsteady : [7, 7, 7, 8].Pairwise (· ≤ · : UInt64 → UInt64 → Prop) := by decide
  have hbounded : ∀ now ∈ [7, 7, 7, 8], (now : UInt64).toNat < 2 ^ 42 := by simp
  ⟨hworkers, hinjective, hsteady, hbounded, by decide,
    (ids_never_repeat hworkers hinjective (fun _ => hsteady) (fun _ => hbounded) _).2.2.2.1⟩

end RemoteCall.RequestId
