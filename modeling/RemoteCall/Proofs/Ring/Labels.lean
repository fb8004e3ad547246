import Mathlib.Data.List.Nodup
import RemoteCall.Client.Connection
import RemoteCall.Proofs.Net.Address
import RemoteCall.Proofs.Ring.Picking

/-!
# What is hashed for the positions of a connection

A position is the hash of a label, which is the name of a connection and a number, and the name of
a slot is an address and a number. The number is what stands behind the last underscore of a label
and behind the last `#` of a name, for it has no other characters than digits. So a label belongs
to one connection and one number, whatever the name is made of, and a name to one address and one
number. Slots that differ in address or number therefore share no position unless two labels
collide.

## Main definitions

* `Ring.labels` : what is hashed for the positions of slots.
* `Ring.NoCollision` : no two of these labels have one hash.
* `Ring.insertAll` : the connections of slots take their positions.

## Main results

* `slotLabel_inj`, `Slot.name_inj` : labels and names are read back.
* `Ring.nodup_positions_iff` : slots that differ share no position unless labels collide.
* `Ring.slots_keep_apart` : how many positions slots have, and who owns them.
-/

namespace RemoteCall

open SocketAddress (append_cons_inj)

/-! ### Labels and names -/

/-- A label belongs to one connection and one number. -/
theorem slotLabel_inj {id id' : String} {n n' : Nat} (h : slotLabel id n = slotLabel id' n') :
    id = id' ∧ n = n' := by
  have htext (id : String) (n : Nat) :
      (slotLabel id n).toList = (id ++ "_#").toList ++ '_' :: Nat.toDigits 10 n := by
    simp [slotLabel, String.toList_append]
  have hdigits (n : Nat) : '_' ∉ Nat.toDigits 10 n := Decimal.notMem_toDigits rfl n
  have hchars := congrArg String.toList h
  rw [htext, htext] at hchars
  obtain ⟨hid, hn⟩ := append_cons_inj (hdigits n) (hdigits n') hchars
  exact ⟨(String.append_left_inj "_#").mp (String.toList_inj.mp hid), Decimal.toDigits_inj hn⟩

/-- A name belongs to one address and one number. -/
theorem Slot.name_inj {s t : Slot} (h : s.name = t.name) :
    s.address = t.address ∧ s.index = t.index := by
  have htext (s : Slot) : s.name.toList =
      s.address.text.toList ++ '#' :: Nat.toDigits 10 s.index.toNat := by
    have hindex : (toString s.index).toList = Nat.toDigits 10 s.index.toNat :=
      Decimal.toList_toString s.index.toNat
    simp [Slot.name, String.toList_append, hindex]
  have hdigits (s : Slot) : '#' ∉ Nat.toDigits 10 s.index.toNat := Decimal.notMem_toDigits rfl _
  have hchars := congrArg String.toList h
  rw [htext, htext] at hchars
  obtain ⟨haddress, hindex⟩ := append_cons_inj (hdigits s) (hdigits t) hchars
  exact ⟨SocketAddress.text_inj (String.toList_inj.mp haddress),
    UInt64.toNat_inj.mp (Decimal.toDigits_inj hindex)⟩

namespace Ring

variable {α : Type} {r : Ring α} {slots : List Slot} {owner : Slot → α} {p : UInt64}

/-- What is hashed for one position of a slot. -/
def label (s : Slot) (n : Nat) : Bytes :=
  Utf8.encode (slotLabel s.name n)

/-- What is hashed for the positions of slots. -/
def labels (slots : List Slot) : List Bytes :=
  slots.flatMap fun s => (List.range positionsPerConnection).map (label s)

/-- A label of a slot belongs to its address and number. -/
theorem label_inj {s t : Slot} {m n : Nat} (h : label s m = label t n) :
    (s.address, s.index) = (t.address, t.index) ∧ m = n := by
  obtain ⟨hname, hn⟩ := slotLabel_inj (Utf8.encode_injective h)
  obtain ⟨haddress, hindex⟩ := Slot.name_inj hname
  exact ⟨Prod.ext haddress hindex, hn⟩

theorem nodup_labels (h : (slots.map fun s => (s.address, s.index)).Nodup) :
    (labels slots).Nodup := by
  refine List.nodup_flatMap.mpr ⟨fun s _ => ?_, ?_⟩
  · exact List.nodup_range.map_on fun m _ n _ heq => (label_inj heq).2
  · refine (List.pairwise_map.mp h).imp fun {s t} hne l hs ht => ?_
    obtain ⟨m, -, rfl⟩ := List.mem_map.mp hs
    obtain ⟨n, -, heq⟩ := List.mem_map.mp ht
    exact hne (label_inj heq).1.symm

/-! ### Positions of slots -/

/-- The positions of slots. -/
def positions (slots : List Slot) : List UInt64 :=
  slots.flatMap fun s => positionsFor s.name

theorem positions_eq (slots : List Slot) :
    positions slots = (labels slots).map (Hashing.hash64 Hashing.ringSeed) := by
  rw [positions, labels, List.map_flatMap]
  refine List.flatMap_congr fun s _ => ?_
  rw [positionsFor, List.map_map]
  rfl

theorem length_positions (slots : List Slot) : (positions slots).length = 10 * slots.length := by
  rw [positions, List.length_flatMap]
  simp [length_positionsFor, Nat.mul_comm]

/-- The labels of slots do not collide. -/
def NoCollision (slots : List Slot) : Prop :=
  ∀ a ∈ labels slots, ∀ b ∈ labels slots,
    Hashing.hash64 Hashing.ringSeed a = Hashing.hash64 Hashing.ringSeed b → a = b

/-- Slots that differ in address or number share no position exactly if their labels do not
collide. -/
theorem nodup_positions_iff (h : (slots.map fun s => (s.address, s.index)).Nodup) :
    (positions slots).Nodup ↔ NoCollision slots := by
  rw [positions_eq]
  constructor
  · exact fun hnodup a ha b hb => List.inj_on_of_nodup_map hnodup ha hb
  · exact fun hhash => (nodup_labels h).map_on fun a ha b hb => hhash a ha b hb

/-! ### Rings of slots -/

/-- Gives the connections of slots their positions, one after another. -/
def insertAll (r : Ring α) (owner : Slot → α) (slots : List Slot) : Ring α :=
  slots.foldl (fun r s => r.insert s.name (owner s)) r

theorem Ordered.insertAll (h : r.Ordered) : (r.insertAll owner slots).Ordered := by
  induction slots generalizing r with
  | nil => exact h
  | cons s slots ih => exact ih (h.replace (positionsFor s.name) (owner s))

theorem occupied_insertAll :
    (r.insertAll owner slots).Occupied p ↔ p ∈ positions slots ∨ r.Occupied p := by
  induction slots generalizing r with
  | nil => simp [insertAll, positions]
  | cons s slots ih =>
    have hcons : r.insertAll owner (s :: slots) =
        (r.replace (positionsFor s.name) (owner s)).insertAll owner slots := rfl
    rw [hcons, ih, occupied_replace, ← or_assoc, positions, positions, List.flatMap_cons,
      List.mem_append, or_comm (a := p ∈ positionsFor s.name)]

/-- Positions that are no slot's keep their owner. -/
theorem owner?_insertAll_of_notMem (hp : p ∉ positions slots) :
    (r.insertAll owner slots).owner? p = r.owner? p := by
  induction slots generalizing r with
  | nil => rfl
  | cons s slots ih =>
    rw [positions, List.flatMap_cons, List.mem_append, not_or] at hp
    have hcons : r.insertAll owner (s :: slots) =
        (r.replace (positionsFor s.name) (owner s)).insertAll owner slots := rfl
    rw [hcons, ih hp.2, owner?_replace, if_neg hp.1]

/-- Slots that share no position keep theirs. -/
theorem owner?_insertAll (hnodup : (positions slots).Nodup) {s : Slot} (hs : s ∈ slots)
    (hp : p ∈ positionsFor s.name) : (r.insertAll owner slots).owner? p = some (owner s) := by
  induction slots generalizing r with
  | nil => cases hs
  | cons t slots ih =>
    rw [positions, List.flatMap_cons, List.nodup_append] at hnodup
    have hcons : r.insertAll owner (t :: slots) =
        (r.replace (positionsFor t.name) (owner t)).insertAll owner slots := rfl
    rw [hcons]
    rcases List.mem_cons.mp hs with rfl | hs
    · have hlater : p ∉ positions slots := fun hmem => hnodup.2.2 p hp p hmem rfl
      rw [owner?_insertAll_of_notMem hlater, owner?_replace, if_pos hp]
    · exact ih hnodup.2.1 hs

/-- The bytes that are hashed for a position are the same for two pairs of a name and a number only
if the pairs are, and the name of a slot is the same for two pairs of an address and a number only
if these are. So when slots that differ in address or number take their positions on an empty ring,
one after another, and their labels do not collide, each takes ten and keeps them. -/
theorem slots_keep_apart :
    (∀ (id id' : String) (n n' : Nat),
        Utf8.encode (slotLabel id n) = Utf8.encode (slotLabel id' n') → id = id' ∧ n = n') ∧
      (∀ s t : Slot, s.name = t.name → s.address = t.address ∧ s.index = t.index) ∧
      ∀ (slots : List Slot) (owner : Slot → α),
        (slots.map fun s => (s.address, s.index)).Nodup → NoCollision slots →
        let r := (empty : Ring α).insertAll owner slots
        r.size = 10 * slots.length ∧
          (∀ p, r.Occupied p ↔ ∃ s ∈ slots, p ∈ positionsFor s.name) ∧
          ∀ s ∈ slots, ∀ p ∈ positionsFor s.name, r.owner? p = some (owner s) := by
  refine ⟨fun id id' n n' h => slotLabel_inj (Utf8.encode_injective h),
    fun s t => Slot.name_inj, ?_⟩
  intro slots owner hdistinct hhash r
  have hnodup : (positions slots).Nodup := (nodup_positions_iff hdistinct).mpr hhash
  have hnobody (p : UInt64) : ¬(empty : Ring α).Occupied p := Bool.false_ne_true
  have hoccupied (p : UInt64) : r.Occupied p ↔ p ∈ positions slots :=
    occupied_insertAll.trans (or_iff_left (hnobody p))
  refine ⟨?_, fun p => (hoccupied p).trans List.mem_flatMap,
    fun s hs p => owner?_insertAll hnodup hs⟩
  rw [ordered_empty.insertAll.size_eq hnodup hoccupied, length_positions]

/-- The first two slots of an address. -/
def twoSlots : List Slot :=
  [⟨.loopback 9000, 0, false, []⟩, ⟨.loopback 9000, 1, false, []⟩]

theorem positionsFor_first : positionsFor "127.0.0.1:9000#0" =
    [17131111322124183096, 13024018182085982408, 5837794638100870754, 7942112310423146554,
      7146521765302440882, 14734897157170616245, 6139280407460723074, 9234923203279027649,
      17695475414080752504, 2858855562975373268] := by
  decide +kernel

theorem positionsFor_second : positionsFor "127.0.0.1:9000#1" =
    [8570328154030587707, 13431492754668112595, 9387412039495067689, 7146870066543557585,
      520758819939509555, 10155762738528762060, 4741570639841723544, 1091649071454479111,
      4858012844136498707, 15757385498200587816] := by
  decide +kernel

/-- Two slots of an address take twenty positions. -/
theorem slots_keep_apart_two :
    (twoSlots.map fun s => (s.address, s.index)).Nodup ∧ NoCollision twoSlots ∧
      ((empty : Ring UInt64).insertAll Slot.index twoSlots).size = 20 := by
  have hdistinct : (twoSlots.map fun s => (s.address, s.index)).Nodup := by decide
  have hnames : twoSlots.map Slot.name = ["127.0.0.1:9000#0", "127.0.0.1:9000#1"] := by
    decide +kernel
  have hpositions : positions twoSlots =
      positionsFor "127.0.0.1:9000#0" ++ positionsFor "127.0.0.1:9000#1" := by
    rw [positions, ← List.flatMap_map, hnames]
    rfl
  have hnodup : (positions twoSlots).Nodup := by
    rw [hpositions, positionsFor_first, positionsFor_second]
    decide
  have hhash : NoCollision twoSlots := (nodup_positions_iff hdistinct).mp hnodup
  obtain ⟨-, -, hapart⟩ := slots_keep_apart (α := UInt64)
  obtain ⟨hsize, -, -⟩ := hapart twoSlots Slot.index hdistinct hhash
  exact ⟨hdistinct, hhash, hsize⟩

end Ring

end RemoteCall
