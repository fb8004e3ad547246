import RemoteCall.Json.Basic
import RemoteCall.Proofs.KeyOrder

/-!
# How JSON values nest

Arrays and objects hold values, which may be arrays and objects again. What holds of a value
wherever it stands is proved from the values that stand directly in it.

## Main definitions

* `children` : the values that stand directly in a value.
* `Each` : a property of a value and of all values in it.
* `depth` : how deep arrays and objects nest.
* `Ordered` : objects have their members in the order of the keys, each key once.
* `FloatFree` : no floating-point number occurs.

## Main results

* `childInduction` : induction on the values in a value.
* `depth_le_succ_iff` : the depth is one more than that of the deepest child.
* `ordered_ofMembers`, `ofMembers_of_keyOrdered` : members are put in order, and stay as they are if
  they are in order already.
-/

namespace RemoteCall.Json

/-- The values that stand directly in a value. -/
def children : Json → List Json
  | array items => items
  | object members => members.map Prod.snd
  | _ => []

theorem sizeOf_lt_of_mem_children {x j : Json} (h : x ∈ j.children) : sizeOf x < sizeOf j := by
  cases j with
  | array items =>
    have hitem : sizeOf x < sizeOf items := List.sizeOf_lt_of_mem h
    simp only [array.sizeOf_spec]
    omega
  | object members =>
    obtain ⟨⟨key, y⟩, hm, rfl⟩ := List.mem_map.mp h
    have hmember := List.sizeOf_lt_of_mem hm
    simp only [object.sizeOf_spec, Prod.mk.sizeOf_spec] at hmember ⊢
    omega
  | _ => cases h

/-- What holds of a value if it holds of its children holds of every value. -/
@[elab_as_elim]
theorem childInduction {motive : Json → Prop}
    (step : ∀ j, (∀ x ∈ j.children, motive x) → motive j) (j : Json) : motive j :=
  step j fun x hx =>
    have := sizeOf_lt_of_mem_children hx
    childInduction step x
termination_by sizeOf j

/-- The property holds of the value and of all values in it. -/
inductive Each (p : Json → Prop) : Json → Prop
  | intro {j : Json} (self : p j) (children : ∀ x ∈ j.children, Each p x) : Each p j

theorem each_iff {p : Json → Prop} {j : Json} :
    Each p j ↔ p j ∧ ∀ x ∈ j.children, Each p x := by
  constructor
  · rintro ⟨self, children⟩
    exact ⟨self, children⟩
  · rintro ⟨self, children⟩
    exact ⟨self, children⟩

mutual

/-- How deep arrays and objects nest. -/
def depth : Json → Nat
  | null => 0
  | bool _ => 0
  | number _ => 0
  | string _ => 0
  | array items => depthOfItems items + 1
  | object members => depthOfMembers members + 1

/-- The depth of the deepest item. -/
def depthOfItems : List Json → Nat
  | [] => 0
  | x :: items => max x.depth (depthOfItems items)

/-- The depth of the deepest member. -/
def depthOfMembers : List (String × Json) → Nat
  | [] => 0
  | (_, x) :: members => max x.depth (depthOfMembers members)

end

theorem depthOfItems_le_iff {items : List Json} {d : Nat} :
    depthOfItems items ≤ d ↔ ∀ x ∈ items, x.depth ≤ d := by
  induction items with
  | nil => simp [depthOfItems]
  | cons x items ih => rw [depthOfItems, Nat.max_le, ih, List.forall_mem_cons]

theorem depthOfMembers_eq (members : List (String × Json)) :
    depthOfMembers members = depthOfItems (members.map Prod.snd) := by
  induction members with
  | nil => rfl
  | cons m members ih => rw [depthOfMembers, ih, List.map_cons, depthOfItems]

/-- The depth is one more than that of the deepest child. -/
theorem depth_le_succ_iff {j : Json} {d : Nat} :
    j.depth ≤ d + 1 ↔ ∀ x ∈ j.children, x.depth ≤ d := by
  cases j with
  | array items => rw [depth, Nat.add_le_add_iff_right, depthOfItems_le_iff]; rfl
  | object members =>
    rw [depth, Nat.add_le_add_iff_right, depthOfMembers_eq, depthOfItems_le_iff]
    rfl
  | _ => simp [depth, children]

/-- Objects have their members in the order of the keys, each key once. -/
def Ordered : Json → Prop :=
  Each fun j => ∀ members, j = object members → KeyOrdered Prod.fst members

/-- No floating-point number occurs. -/
def FloatFree : Json → Prop :=
  Each fun j => ∀ x finite, j ≠ number (.binary x finite)

section Properties

variable {p : Json → Prop} {j : Json} {items : List Json} {members : List (String × Json)}

theorem each_of_children_eq_nil (h : j.children = []) : Each p j ↔ p j := by
  rw [each_iff, h]
  exact and_iff_left fun x hx => by cases hx

theorem each_object :
    Each p (object members) ↔ p (object members) ∧ ∀ m ∈ members, Each p m.2 :=
  each_iff.trans (and_congr_right' List.forall_mem_map)

@[simp] theorem ordered_null : null.Ordered :=
  (each_of_children_eq_nil rfl).mpr fun _ heq => by cases heq

@[simp] theorem ordered_bool (b : Bool) : (bool b).Ordered :=
  (each_of_children_eq_nil rfl).mpr fun _ heq => by cases heq

@[simp] theorem ordered_number (n : Number) : (number n).Ordered :=
  (each_of_children_eq_nil rfl).mpr fun _ heq => by cases heq

@[simp] theorem ordered_string (s : String) : (string s).Ordered :=
  (each_of_children_eq_nil rfl).mpr fun _ heq => by cases heq

@[simp] theorem ordered_array : (array items).Ordered ↔ ∀ x ∈ items, x.Ordered :=
  each_iff.trans (and_iff_right fun _ heq => by cases heq)

@[simp] theorem ordered_object :
    (object members).Ordered ↔ KeyOrdered Prod.fst members ∧ ∀ m ∈ members, m.2.Ordered := by
  refine each_object.trans (and_congr_left' ⟨fun h => h members rfl, ?_⟩)
  rintro h _ ⟨⟩
  exact h

@[simp] theorem floatFree_null : null.FloatFree :=
  (each_of_children_eq_nil rfl).mpr fun _ _ heq => by cases heq

@[simp] theorem floatFree_bool (b : Bool) : (bool b).FloatFree :=
  (each_of_children_eq_nil rfl).mpr fun _ _ heq => by cases heq

@[simp] theorem floatFree_integer {n : Int}
    (fits : -0x8000000000000000 ≤ n ∧ n < 0x10000000000000000) :
    (number (.integer n fits)).FloatFree :=
  (each_of_children_eq_nil rfl).mpr fun _ _ heq => by cases heq

@[simp] theorem not_floatFree_binary {x : Binary64} (finite : x.IsFinite) :
    ¬(number (.binary x finite)).FloatFree :=
  fun h => (each_iff.mp h).1 x finite rfl

@[simp] theorem floatFree_string (s : String) : (string s).FloatFree :=
  (each_of_children_eq_nil rfl).mpr fun _ _ heq => by cases heq

@[simp] theorem floatFree_array : (array items).FloatFree ↔ ∀ x ∈ items, x.FloatFree :=
  each_iff.trans (and_iff_right fun _ _ heq => by cases heq)

@[simp] theorem floatFree_object : (object members).FloatFree ↔ ∀ m ∈ members, m.2.FloatFree :=
  each_object.trans (and_iff_right fun _ _ heq => by cases heq)

end Properties

/-! ### Members in order -/

theorem insertMember_eq (key : String) (value : Json) (members : List (String × Json)) :
    insertMember key value members = insertByKey Prod.fst (key, value) members := by
  induction members with
  | nil => rfl
  | cons m members ih => rw [insertMember, insertByKey, ih]

/-- Members are put in order, whatever their order was. -/
theorem ordered_ofMembers {members : List (String × Json)} (h : ∀ m ∈ members, m.2.Ordered) :
    (ofMembers members).Ordered := by
  have hfold : ∀ sorted, (object sorted).Ordered →
      (object (members.foldl (fun sorted m => insertMember m.1 m.2 sorted) sorted)).Ordered := by
    induction members with
    | nil => exact fun _ hsorted => hsorted
    | cons m members ih =>
      intro sorted hsorted
      obtain ⟨hkeys, hbelow⟩ := ordered_object.mp hsorted
      rw [List.foldl_cons, insertMember_eq]
      refine ih (fun m' hm' => h m' (List.mem_cons_of_mem m hm')) _
        (ordered_object.mpr ⟨hkeys.insertByKey _, fun m' hm' => ?_⟩)
      rcases mem_of_mem_insertByKey hm' with rfl | hm'
      · exact h m List.mem_cons_self
      · exact hbelow m' hm'
  exact hfold [] (ordered_object.mpr ⟨List.Pairwise.nil, fun m hm => by cases hm⟩)

/-- Members that are in order stay as they are. -/
theorem ofMembers_of_keyOrdered {members : List (String × Json)}
    (h : KeyOrdered Prod.fst members) : ofMembers members = object members := by
  have hfold : ∀ sorted, KeyOrdered Prod.fst (sorted ++ members) →
      members.foldl (fun sorted m => insertMember m.1 m.2 sorted) sorted = sorted ++ members := by
    clear h
    induction members with
    | nil => simp
    | cons m members ih =>
      intro sorted hsorted
      have hlast : ∀ m' ∈ sorted, m'.1 < m.1 := fun m' hm' =>
        (List.pairwise_append.mp hsorted).2.2 m' hm' m List.mem_cons_self
      rw [List.foldl_cons, insertMember_eq, insertByKey_of_forall_lt hlast,
        ih (sorted ++ [m]) (by rwa [List.append_assoc]), List.append_assoc]
      rfl
  rw [ofMembers, hfold [] h]
  rfl

end RemoteCall.Json
