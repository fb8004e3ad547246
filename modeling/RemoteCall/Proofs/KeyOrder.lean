import RemoteCall.Proofs.Counting
import RemoteCall.Ring
import RemoteCall.Service.Registry

/-!
# Lists in the order of their keys

The slots of a ring, the methods of a service and the addresses of services are lists in the order
of a key that no two elements share. They are changed by putting an element where its key belongs,
in place of the one that has this key already. What such a list holds is what is found under each
key.

## Main definitions

* `KeyOrdered` : the keys of a list increase.
* `insertByKey` : puts an element where its key belongs.

## Main results

* `find?_insertByKey` : the element is found under its key, and the others under theirs.
* `KeyOrdered.length_insertByKey` : whether the list grows.
* `KeyOrdered.find?_eq_some_iff` : each element is found under its key.
* `KeyOrdered.eq_of_mem_iff` : the list is known by its elements.
* `Ring.setSlot_eq`, `Service.insertMethod_eq`, `Registry.insertAddress_eq` : the lists that are
  changed so.
-/

namespace RemoteCall

section Keys

variable {α κ : Type} [LT κ] {key : α → κ} {a b : α} {l : List α}

/-- The keys increase from each element to the next. -/
def KeyOrdered (key : α → κ) (l : List α) : Prop :=
  l.Pairwise fun a b => key a < key b

section Insertion

variable [DecidableLT κ] [DecidableEq κ]

/-- Puts an element where its key belongs, in place of one with the same key. -/
def insertByKey (key : α → κ) (a : α) : List α → List α
  | [] => [a]
  | b :: rest =>
    if key a < key b then a :: b :: rest
    else if key a = key b then a :: rest
    else b :: insertByKey key a rest

theorem mem_of_mem_insertByKey (h : b ∈ insertByKey key a l) : b = a ∨ b ∈ l := by
  induction l with
  | nil => exact Or.inl (List.mem_singleton.mp h)
  | cons c l ih =>
    rw [insertByKey] at h
    split at h
    · exact List.mem_cons.mp h
    · split at h
      · exact (List.mem_cons.mp h).imp_right (List.mem_cons_of_mem c)
      · rcases List.mem_cons.mp h with rfl | h
        · exact Or.inr List.mem_cons_self
        · exact (ih h).imp_right (List.mem_cons_of_mem c)

/-- The element is found under its key, and what is found under another one stays. -/
theorem find?_insertByKey (a : α) (l : List α) (k : κ) :
    ((insertByKey key a l).find? fun b => key b == k) =
      if key a = k then some a else l.find? fun b => key b == k := by
  induction l with
  | nil =>
    by_cases hk : key a = k <;> simp [insertByKey, hk]
  | cons c l ih =>
    rw [insertByKey]
    by_cases hk : key a = k
    · split
      · simp [hk]
      · split
        · simp [hk]
        · rename_i hne
          rw [hk] at hne
          simp [ih, hk, Ne.symm hne]
    · split
      · simp [hk]
      · split
        · rename_i hac
          simp [hk, hac ▸ hk]
        · rw [List.find?_cons, List.find?_cons, ih, if_neg hk]

variable [LE κ] [Std.IsLinearOrder κ] [Std.LawfulOrderLT κ]

theorem KeyOrdered.insertByKey (h : KeyOrdered key l) (a : α) :
    KeyOrdered key (insertByKey key a l) := by
  induction l with
  | nil => exact List.pairwise_singleton _ a
  | cons c l ih =>
    obtain ⟨hc, hl⟩ := List.pairwise_cons.mp h
    rw [RemoteCall.insertByKey]
    split
    · rename_i hac
      refine List.pairwise_cons.mpr ⟨fun b hb => ?_, h⟩
      rcases List.mem_cons.mp hb with rfl | hb
      · exact hac
      · exact Std.lt_trans hac (hc b hb)
    · rename_i hac
      split
      · rename_i heq
        exact List.pairwise_cons.mpr ⟨fun b hb => heq ▸ hc b hb, hl⟩
      · rename_i hne
        refine List.pairwise_cons.mpr ⟨fun b hb => ?_, ih hl⟩
        rcases mem_of_mem_insertByKey hb with rfl | hb
        · exact Std.lt_of_le_of_ne (Std.not_lt.mp hac) (Ne.symm hne)
        · exact hc b hb

/-- A list grows by an element whose key it does not have. -/
theorem KeyOrdered.length_insertByKey (h : KeyOrdered key l) (a : α) :
    (RemoteCall.insertByKey key a l).length =
      l.length + (l.find? fun b => key b == key a).isNone.toNat := by
  induction l with
  | nil => rfl
  | cons c l ih =>
    obtain ⟨hc, hl⟩ := List.pairwise_cons.mp h
    rw [RemoteCall.insertByKey]
    split
    · rename_i hac
      have hnone : ((c :: l).find? fun b => key b == key a) = none := by
        refine List.find?_eq_none.mpr fun b hb hba => ?_
        have hkey : key b = key a := beq_iff_eq.mp hba
        rcases List.mem_cons.mp hb with rfl | hb
        · exact Std.lt_irrefl (hkey ▸ hac)
        · exact Std.lt_irrefl (Std.lt_trans hac (hkey ▸ hc b hb))
      rw [hnone]
      rfl
    · split
      · rename_i heq
        have hfound : (key c == key a) = true := beq_iff_eq.mpr heq.symm
        rw [List.find?_cons, hfound]
        rfl
      · rename_i hne
        have hskip : (key c == key a) = false := beq_eq_false_iff_ne.mpr (Ne.symm hne)
        rw [List.find?_cons, hskip, List.length_cons, ih hl, List.length_cons, Nat.add_right_comm]

/-- An element whose key is larger than all others comes last. -/
theorem insertByKey_of_forall_lt (h : ∀ b ∈ l, key b < key a) : insertByKey key a l = l ++ [a] := by
  induction l with
  | nil => rfl
  | cons c l ih =>
    have hca := h c List.mem_cons_self
    have hac : ¬key a < key c := fun hac => Std.lt_irrefl (Std.lt_trans hca hac)
    have hne : key a ≠ key c := fun hne => hac (hne ▸ hca)
    rw [insertByKey, if_neg hac, if_neg hne, ih fun b hb => h b (List.mem_cons_of_mem c hb)]
    rfl

end Insertion

theorem KeyOrdered.nodup [LE κ] [Std.IsPreorder κ] [Std.LawfulOrderLT κ] (h : KeyOrdered key l) :
    (l.map key).Nodup :=
  List.pairwise_map.mpr (h.imp fun hlt => Std.ne_of_lt hlt)

/-- A list in the order of its keys is known by its elements. -/
theorem KeyOrdered.eq_of_mem_iff {l' : List α} [LE κ] [Std.IsPreorder κ] [Std.LawfulOrderLT κ]
    (h : KeyOrdered key l) (h' : KeyOrdered key l') (hmem : ∀ a, a ∈ l ↔ a ∈ l') : l = l' := by
  have hne (a b : α) (hlt : key a < key b) : a ≠ b := fun heq => Std.lt_irrefl (heq ▸ hlt)
  have hperm : l.Perm l' := by
    refine (List.perm_ext_iff_of_nodup ?_ ?_).mpr hmem
    · exact h.imp (hne _ _)
    · exact h'.imp (hne _ _)
  refine hperm.eq_of_pairwise (fun a b _ _ hab hba => ?_) h h'
  exact absurd (Std.lt_trans hab hba) Std.lt_irrefl

/-- Each element is found under its key. -/
theorem KeyOrdered.find?_eq_some_iff [LE κ] [Std.IsPreorder κ] [Std.LawfulOrderLT κ]
    [DecidableEq κ] (h : KeyOrdered key l) {k : κ} :
    (l.find? fun b => key b == k) = some a ↔ a ∈ l ∧ key a = k :=
  find?_eq_some_iff_of_nodup h.nodup

/-- Whatever stands behind an element has no smaller key. -/
theorem KeyOrdered.le_of_mem [LE κ] [Std.IsLinearOrder κ] [Std.LawfulOrderLT κ]
    (before : List α) {after : List α} (h : KeyOrdered key (before ++ a :: after))
    (hb : b ∈ a :: after) : key a ≤ key b := by
  rcases List.mem_cons.mp hb with rfl | hb
  · exact Std.le_refl (key b)
  · obtain ⟨ha, -⟩ := List.pairwise_cons.mp (List.pairwise_append.mp h).2.1
    exact Std.le_of_lt (ha b hb)

end Keys

/-- The slots of a ring are changed under their positions. -/
theorem Ring.setSlot_eq {α : Type} (position : UInt64) (owner : α) (slots : List (UInt64 × α)) :
    setSlot position owner slots = insertByKey Prod.fst (position, owner) slots := by
  induction slots with
  | nil => rfl
  | cons s slots ih => rw [setSlot, insertByKey, ih]

/-- The methods of a service are changed under their numbers. -/
theorem Service.insertMethod_eq (m : Method) (methods : List Method) :
    insertMethod m methods = insertByKey Method.id m methods := by
  induction methods with
  | nil => rfl
  | cons n methods ih => rw [insertMethod, insertByKey, ih]

/-- Addresses are told apart by the numbers that they are ordered by. -/
theorem SocketAddress.orderKey_inj {a b : SocketAddress} (h : a.orderKey = b.orderKey) : a = b := by
  cases a <;> cases b <;>
    simp_all [orderKey, UInt32.toNat_inj, UInt16.toNat_inj, BitVec.toNat_inj]

/-- The addresses of services are collected in their order. -/
theorem Registry.insertAddress_eq (a : SocketAddress) (addresses : List SocketAddress) :
    insertAddress a addresses = insertByKey SocketAddress.orderKey a addresses := by
  induction addresses with
  | nil => rfl
  | cons b addresses ih =>
    rw [insertAddress, insertByKey, ih]
    by_cases hab : a = b
    · subst hab
      rw [if_pos rfl, if_neg Std.lt_irrefl, if_pos rfl]
    · have hkey : a.orderKey ≠ b.orderKey := fun h => hab (SocketAddress.orderKey_inj h)
      rw [if_neg hab, if_neg hkey]
      simp only [SocketAddress.before, decide_eq_true_eq]

end RemoteCall
