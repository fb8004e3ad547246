import Mathlib.Data.List.TakeWhile
import Mathlib.Tactic.NormNum
import RemoteCall.Proofs.Net.Numbers

/-!
# Reading an IPv6 address

The text of an IPv6 address is its eight groups, of which the first longest run of zeros may be left
out. What is left of the groups stands before and behind a double colon; the reader takes as many
groups as it can on either side and puts zeros for those that are missing.

## Main definitions

* `IsZeroRun` : where zeros stand among the groups.
* `joined` : the characters of groups, with or without a colon before the first.
* `Follows`, `Ends` : what may follow a group, and the last one.

## Main results

* `longestZeroRun_spec` : what is left out are zeros.
* `takeGroups_joined` : groups are read back.
* `takeIpv6?_ipv6Text` : an IPv6 address is read back.
-/

namespace RemoteCall.SocketAddress

variable {rest : List Char} {gs : List Nat} {start run g : Nat}

/-! ### Groups -/

theorem length_groups (ip : BitVec 128) : (groups ip).length = 8 := rfl

theorem lt_of_mem_groups {ip : BitVec 128} (hg : g ∈ groups ip) : g < 0x10000 := by
  obtain ⟨i, -, rfl⟩ := List.mem_map.mp hg
  exact Nat.mod_lt _ (by decide)

/-- An address consists of its groups. -/
theorem ofGroups_groups (ip : BitVec 128) : ofGroups (groups ip) = ip := by
  have hfold : (groups ip).foldl (fun n g => n * 0x10000 + g) 0 = ip.toNat := by
    have hlt := ip.isLt
    simp only [groups, List.range_succ, List.range_zero, List.map_cons, List.map_nil,
      List.nil_append, List.cons_append, List.foldl_cons, List.foldl_nil]
    norm_num at hlt ⊢
    omega
  rw [ofGroups, hfold, BitVec.ofNat_toNat, BitVec.setWidth_eq]

/-! ### Runs of zeros -/

/-- From `start` on there are `run` zeros. -/
def IsZeroRun (gs : List Nat) (start run : Nat) : Prop :=
  gs = gs.take start ++ List.replicate run 0 ++ gs.drop (start + run)

theorem isZeroRun_zeroRun (gs : List Nat) (start : Nat) :
    IsZeroRun gs start (zeroRun (gs.drop start)) := by
  have hzeros : List.replicate (zeroRun (gs.drop start)) 0 =
      (gs.drop start).takeWhile (· == 0) := by
    refine (List.eq_replicate_iff.mpr ⟨rfl, fun g hg => ?_⟩).symm
    exact eq_of_beq (List.mem_takeWhile_imp (p := (· == 0)) hg)
  have hrest : gs.drop (start + zeroRun (gs.drop start)) = (gs.drop start).dropWhile (· == 0) := by
    calc
      gs.drop (start + zeroRun (gs.drop start)) =
          (gs.drop start).drop (zeroRun (gs.drop start)) := List.drop_drop.symm
      _ = ((gs.drop start).takeWhile (· == 0) ++ (gs.drop start).dropWhile (· == 0)).drop
          (zeroRun (gs.drop start)) := by rw [List.takeWhile_append_dropWhile]
      _ = (gs.drop start).dropWhile (· == 0) := List.drop_left
  rw [IsZeroRun, hzeros, hrest, List.append_assoc, List.takeWhile_append_dropWhile,
    List.take_append_drop]

/-- What is left out are zeros. -/
theorem longestZeroRun_spec (gs : List Nat) :
    IsZeroRun gs (longestZeroRun gs).1 (longestZeroRun gs).2 := by
  have hnone : IsZeroRun gs 0 0 := by simp [IsZeroRun]
  refine List.foldlRecOn (motive := fun best : Nat × Nat => IsZeroRun gs best.1 best.2)
    (List.range gs.length) _ hnone fun best hbest i _ => ?_
  simp only
  split
  · exact isZeroRun_zeroRun gs i
  · exact hbest

/-- Zeros stand within the groups. -/
theorem IsZeroRun.add_le (h : IsZeroRun gs start run) (hrun : 0 < run) :
    start + run ≤ gs.length := by
  have hlength := congrArg List.length h
  simp only [List.length_append, List.length_take, List.length_replicate, List.length_drop]
    at hlength
  omega

/-! ### Reading groups -/

/-- The characters of groups; a colon stands before each but the first, or before each. -/
def joined : (first : Bool) → List Nat → List Char
  | _, [] => []
  | true, g :: gs => Nat.toDigits 16 g ++ joined false gs
  | false, g :: gs => ':' :: (Nat.toDigits 16 g ++ joined false gs)

theorem toList_colonGroups (gs : List Nat) : (colonGroups gs).toList = joined true gs := by
  induction gs with
  | nil => rfl
  | cons g gs ih =>
    cases gs with
    | nil => simp [colonGroups, joined]
    | cons h gs =>
      rw [colonGroups, String.toList_intercalate, List.map_map, List.map_cons, List.map_cons,
        List.intercalate_cons_cons]
      rw [colonGroups, String.toList_intercalate, List.map_map, List.map_cons] at ih
      rw [ih]
      simp [joined]

/-- What may follow a group: the next one, the end of the address or its scope. -/
def Follows (rest : List Char) : Prop :=
  ∀ c ∈ rest.head?, c = ':' ∨ c = ']' ∨ c = '%'

/-- What may follow the last group before a double colon, or of all. -/
def Ends (rest : List Char) : Prop :=
  Follows rest ∧ ∀ inner, takeChar? ':' rest = some inner → Follows inner

theorem Follows.stops (h : Follows rest) : Stops 16 rest := by
  intro c hc
  rcases h c hc with rfl | rfl | rfl <;> decide

theorem Follows.noDigit (h : Follows rest) : ∀ c ∈ rest.head?, digit? 10 c = none ∧ c ≠ '.' := by
  intro c hc
  rcases h c hc with rfl | rfl | rfl <;> decide

theorem follows_joined (gs : List Nat) (h : Follows rest) : Follows (joined false gs ++ rest) := by
  cases gs with
  | nil => exact h
  | cons g gs =>
    intro c hc
    simp only [joined, List.cons_append, List.head?_cons, Option.mem_def, Option.some.injEq] at hc
    exact Or.inl hc.symm

theorem dot_notMem_toDigits (g : Nat) : '.' ∉ Nat.toDigits 16 g := by
  induction g using Nat.base_induction 16 (by decide) with
  | single d hd => simp [Nat.toDigits_of_lt_base hd]
  | digit m d hd hm ih =>
    rw [← Nat.toDigits_append_toDigits (by decide) hm hd, Nat.toDigits_of_lt_base hd]
    simp [ih]

/-- The reader finds no group. -/
theorem takeGroups_nil (room : Nat) (first : Bool) (h : Ends rest) :
    takeGroups room first rest = ([], false, rest) := by
  cases room with
  | zero => rfl
  | succ room =>
    have hnone {inner : List Char} (hinner : Follows inner) :
        (if 0 < room then takeDotted? inner else none) = none ∧
          takeBounded? 16 0x10000 4 inner = none := by
      refine ⟨?_, takeBounded?_of_stops hinner.stops _ _⟩
      have hdotted : takeDotted? inner = none :=
        takeDotted?_of_noDot List.not_mem_nil hinner.noDigit
      rw [hdotted, ite_self]
    cases first with
    | true =>
      obtain ⟨hdotted, hgroup⟩ := hnone h.1
      simp only [takeGroups, if_true, hdotted, hgroup]
    | false =>
      cases hcolon : takeChar? ':' rest with
      | none => simp [takeGroups, hcolon]
      | some inner =>
        obtain ⟨hdotted, hgroup⟩ := hnone (h.2 inner hcolon)
        simp [takeGroups, hcolon, hdotted, hgroup]

/-- The reader takes one group. -/
theorem takeGroups_cons (room : Nat) (first : Bool) (hg : g < 0x10000) (h : Follows rest) :
    takeGroups (room + 1) first (joined first [g] ++ rest) =
      (g :: (takeGroups room false rest).1, (takeGroups room false rest).2) := by
  have hlength : (Nat.toDigits 16 g).length ≤ 4 :=
    (Nat.length_toDigits_le_iff (by decide) (by decide)).mpr (by omega)
  have hdotted : (if 0 < room then takeDotted? (Nat.toDigits 16 g ++ rest) else none) = none := by
    rw [takeDotted?_of_noDot (dot_notMem_toDigits g) h.noDigit, ite_self]
  have hgroup : takeBounded? 16 0x10000 4 (Nat.toDigits 16 g ++ rest) = some (g, rest) :=
    takeBounded?_toDigits (by decide) (by decide) hg hlength h.stops
  cases first <;> simp [takeGroups, joined, takeChar?_self, hdotted, hgroup]

/-- Groups are read back, as far as there is room for them. -/
theorem takeGroups_joined (first : Bool) {room : Nat} (hroom : gs.length ≤ room)
    (hgs : ∀ g ∈ gs, g < 0x10000) (h : Ends rest) :
    takeGroups room first (joined first gs ++ rest) = (gs, false, rest) := by
  induction gs generalizing first room with
  | nil => exact takeGroups_nil room first h
  | cons g gs ih =>
    obtain ⟨room, rfl⟩ := Nat.exists_eq_add_of_le' (Nat.le_trans (Nat.succ_pos _) hroom)
    have hsplit : joined first (g :: gs) ++ rest =
        joined first [g] ++ (joined false gs ++ rest) := by
      cases first <;> simp [joined]
    rw [hsplit, takeGroups_cons room first (hgs g List.mem_cons_self) (follows_joined gs h.1),
      ih false (Nat.le_of_succ_le_succ hroom) fun g' hg' => hgs g' (List.mem_cons_of_mem g hg')]

/-- The last two groups may be read from a dotted address. -/
theorem takeGroups_dotted (room : Nat) {ip : Nat} (h : ip < 0x100000000) (hrest : Stops 10 rest) :
    takeGroups (room + 2) false (':' :: ((dotted ip).toList ++ rest)) =
      ([ip / 0x10000, ip % 0x10000], true, rest) := by
  simp [takeGroups, takeChar?_self, takeDotted?_dotted h hrest]

/-! ### Reading an address -/

/-- What may follow an address: the end of it or its scope. -/
def Closes (rest : List Char) : Prop :=
  ∀ c ∈ rest.head?, c = ']' ∨ c = '%'

theorem Closes.stops (h : Closes rest) : Stops 10 rest := by
  intro c hc
  rcases h c hc with rfl | rfl <;> decide

theorem Closes.ends (h : Closes rest) : Ends rest := by
  refine ⟨fun c hc => Or.inr (h c hc), fun inner hinner => ?_⟩
  have hcolon : rest.head? ≠ some ':' := by
    intro hhead
    have hcase := h ':' hhead
    revert hcase
    decide
  rw [takeChar?_of_head? hcolon] at hinner
  cases hinner

/-- A double colon ends the groups before it. -/
theorem ends_doubleColon (rest : List Char) : Ends (':' :: ':' :: rest) := by
  refine ⟨fun c hc => Or.inl (Option.some.inj hc).symm, fun inner hinner => ?_⟩
  rw [takeChar?_self] at hinner
  obtain rfl := Option.some.inj hinner
  exact fun c hc => Or.inl (Option.some.inj hc).symm

/-- The groups of an address that stands for an IPv4 address. -/
theorem groups_of_mapped {ip : BitVec 128} (h : (groups ip).take 6 = [0, 0, 0, 0, 0, 0xffff]) :
    groups ip = List.replicate 5 0 ++ [0xffff, ip.toNat % 0x100000000 / 0x10000,
      ip.toNat % 0x100000000 % 0x10000] := by
  have hlast : (groups ip).drop 6 =
      [ip.toNat / Nat.pow 0x10000 1 % 0x10000, ip.toNat / Nat.pow 0x10000 0 % 0x10000] := rfl
  have hhigh : ip.toNat / Nat.pow 0x10000 1 % 0x10000 = ip.toNat % 0x100000000 / 0x10000 := by
    norm_num
    omega
  have hlow : ip.toNat / Nat.pow 0x10000 0 % 0x10000 = ip.toNat % 0x100000000 % 0x10000 := by
    norm_num
  rw [← List.take_append_drop 6 (groups ip), h, hlast, hhigh, hlow]
  rfl

/-- All groups of an address are there. -/
theorem takeIpv6?_of_eight {cs : List Char} {dottedEnd : Bool}
    (h : takeGroups 8 true cs = (gs, dottedEnd, rest)) (hlength : gs.length = 8) :
    takeIpv6? cs = some (ofGroups gs, rest) := by
  rw [takeIpv6?, h]
  exact if_pos hlength

/-- The groups of an address stand on both sides of a double colon. -/
theorem takeIpv6?_of_doubleColon {cs inner : List Char} {front back : List Nat} {dottedEnd : Bool}
    (hfront : takeGroups 8 true cs = (front, false, ':' :: ':' :: inner))
    (hlength : front.length ≠ 8)
    (hback : takeGroups (7 - front.length) true inner = (back, dottedEnd, rest)) :
    takeIpv6? cs = some (ofGroups (front ++
      List.replicate (8 - front.length - back.length) 0 ++ back), rest) := by
  rw [takeIpv6?, hfront]
  simp only [if_neg hlength, takeChar?_self, Option.bind_eq_bind, Option.bind_some, hback,
    Bool.false_eq_true, if_false]

/-- An address that stands for an IPv4 address is read back. -/
theorem takeIpv6?_mapped {ip : BitVec 128} (h : (groups ip).take 6 = [0, 0, 0, 0, 0, 0xffff])
    (hrest : Closes rest) :
    takeIpv6? (':' :: ':' :: (joined true [0xffff] ++
      ':' :: ((dotted (ip.toNat % 0x100000000)).toList ++ rest))) = some (ip, rest) := by
  have hip : ip.toNat % 0x100000000 < 0x100000000 := Nat.mod_lt _ (by decide)
  have hcolon (tail : List Char) : Follows (':' :: tail) :=
    fun c hc => Or.inl (Option.some.inj hc).symm
  have hback : takeGroups 7 true (joined true [0xffff] ++
      ':' :: ((dotted (ip.toNat % 0x100000000)).toList ++ rest)) =
        ([0xffff, ip.toNat % 0x100000000 / 0x10000, ip.toNat % 0x100000000 % 0x10000], true,
          rest) := by
    rw [takeGroups_cons 6 true (by decide) (hcolon _), takeGroups_dotted 4 hip hrest.stops]
  rw [takeIpv6?_of_doubleColon (takeGroups_nil 8 true (ends_doubleColon _)) (by decide) hback]
  have hgroups := congrArg ofGroups (groups_of_mapped h)
  rw [ofGroups_groups] at hgroups
  exact congrArg (fun ip => some (ip, rest)) hgroups.symm

/-- An address whose zeros are left out is read back. -/
theorem takeIpv6?_shortened {ip : BitVec 128} (h : IsZeroRun (groups ip) start run)
    (hrun : 2 ≤ run) (hrest : Closes rest) :
    takeIpv6? (joined true ((groups ip).take start) ++ ':' :: ':' ::
      (joined true ((groups ip).drop (start + run)) ++ rest)) = some (ip, rest) := by
  have hwithin : start + run ≤ 8 := h.add_le (Nat.lt_of_lt_of_le Nat.zero_lt_two hrun)
  have hstart : ((groups ip).take start).length = start := by
    rw [List.length_take, length_groups]
    omega
  have hlength : ((groups ip).drop (start + run)).length = 8 - (start + run) := by
    rw [List.length_drop, length_groups]
  have hfrontRoom : ((groups ip).take start).length ≤ 8 := by omega
  have hbackRoom : ((groups ip).drop (start + run)).length ≤
      7 - ((groups ip).take start).length := by omega
  have hfront := takeGroups_joined true hfrontRoom
    (fun g hg => lt_of_mem_groups (List.mem_of_mem_take hg))
    (ends_doubleColon (joined true ((groups ip).drop (start + run)) ++ rest))
  have hback := takeGroups_joined true hbackRoom
    (fun g hg => lt_of_mem_groups (List.mem_of_mem_drop hg)) hrest.ends
  have hzeros : 8 - start - (8 - (start + run)) = run := by omega
  rw [takeIpv6?_of_doubleColon hfront (by omega) hback, hstart, hlength, hzeros, ← h,
    ofGroups_groups]

/-- An IPv6 address is read back. -/
theorem takeIpv6?_ipv6Text (ip : BitVec 128) (hrest : Closes rest) :
    takeIpv6? ((ipv6Text ip).toList ++ rest) = some (ip, rest) := by
  simp only [ipv6Text]
  split
  · rename_i hmapped
    have hfront : "::ffff:".toList = ':' :: ':' :: (joined true [0xffff] ++ [':']) := by decide
    have hread := takeIpv6?_mapped (eq_of_beq hmapped) hrest
    rw [String.toList_append, hfront]
    simpa only [List.append_assoc, List.cons_append, List.nil_append] using hread
  · have hzeros := longestZeroRun_spec (groups ip)
    split
    · rw [toList_colonGroups, takeIpv6?_of_eight (takeGroups_joined true (length_groups ip).le
        (fun g => lt_of_mem_groups) hrest.ends) (length_groups ip), ofGroups_groups]
    · rename_i hrun
      simp only [String.toList_append, toList_colonGroups, List.append_assoc]
      exact takeIpv6?_shortened hzeros (Nat.not_lt.mp hrun) hrest

end RemoteCall.SocketAddress
