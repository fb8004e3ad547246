/-!
# Counting and finding what lists hold

Elements that are spread over the parts of a list are counted over all parts at once. Changing or
removing one part changes the count by what that part held and holds then. An element whose key no
other one has is the only one that is found by its key.
-/

namespace RemoteCall

variable {α β : Type} (p : β → Bool) (f : α → List β) {l : List α} {i : Nat} {a : α}

theorem countP_flatMap_modify (g : α → α) (h : l[i]? = some a) :
    ((l.modify i g).flatMap f).countP p + (f a).countP p =
      (l.flatMap f).countP p + (f (g a)).countP p := by
  induction l generalizing i with
  | nil => simp at h
  | cons b l ih =>
    cases i with
    | zero =>
      obtain rfl : b = a := by simpa using h
      simp
      omega
    | succ i =>
      have hl := ih (i := i) (by simpa using h)
      simp
      omega

theorem countP_flatMap_set (b : α) (h : l[i]? = some a) :
    ((l.set i b).flatMap f).countP p + (f a).countP p =
      (l.flatMap f).countP p + (f b).countP p := by
  have hset : l.modify i (fun _ => b) = l.set i b := @List.modify_eq_set α ⟨b⟩ _ i l
  rw [← hset]
  exact countP_flatMap_modify p f (fun _ => b) h

theorem countP_flatMap_eraseIdx (h : l[i]? = some a) :
    ((l.eraseIdx i).flatMap f).countP p + (f a).countP p = (l.flatMap f).countP p := by
  induction l generalizing i with
  | nil => simp at h
  | cons b l ih =>
    cases i with
    | zero =>
      obtain rfl : b = a := by simpa using h
      simp
      omega
    | succ i =>
      have hl := ih (i := i) (by simpa using h)
      simp
      omega

theorem filter_eq_singleton {α β : Type} [DecidableEq β] {f : α → β} {l : List α} {x : α}
    (h : (l.map f).Nodup) (hx : x ∈ l) : (l.filter fun y => f y == f x) = [x] := by
  induction l with
  | nil => cases hx
  | cons y l ih =>
    rw [List.map_cons, List.nodup_cons] at h
    obtain ⟨hfresh, hl⟩ := h
    rcases List.mem_cons.mp hx with rfl | hx
    · have hnone : (l.filter fun z => f z == f x) = [] := by
        refine List.filter_eq_nil_iff.mpr ?_
        intro z hz hkey
        have hzx : f z = f x := by simpa using hkey
        exact hfresh (hzx ▸ List.mem_map_of_mem hz)
      have hself : (f x == f x) = true := beq_self_eq_true (f x)
      rw [List.filter_cons, if_pos hself, hnone]
    · have hne : ¬(f y == f x) = true := by
        intro hkey
        have hyx : f y = f x := by simpa using hkey
        exact hfresh (hyx ▸ List.mem_map_of_mem hx)
      rw [List.filter_cons, if_neg hne, ih hl hx]

/-- A key that no element has can be added. -/
theorem nodup_map_append_singleton {α β : Type} {f : α → β} {l : List α} {x : α}
    (h : (l.map f).Nodup) (hx : ∀ y ∈ l, f y ≠ f x) : ((l ++ [x]).map f).Nodup := by
  rw [List.map_append, List.nodup_append]
  refine ⟨h, List.pairwise_singleton _ _, fun k hk k' hk' => ?_⟩
  obtain ⟨y, hy, rfl⟩ := List.mem_map.mp hk
  obtain rfl := List.mem_singleton.mp hk'
  exact hx y hy

/-- Elements without a common key are found each under its own. -/
theorem find?_eq_some_iff_of_nodup {α β : Type} [DecidableEq β] {f : α → β} {l : List α} {k : β}
    {x : α} (h : (l.map f).Nodup) : (l.find? fun y => f y == k) = some x ↔ x ∈ l ∧ f x = k := by
  constructor
  · intro hfind
    exact ⟨List.mem_of_find?_eq_some hfind, by simpa using List.find?_some hfind⟩
  · rintro ⟨hx, rfl⟩
    rw [← List.head?_filter, filter_eq_singleton h hx]
    rfl

/-- What stands under a key in a list of keys with values is found by the key of the element. -/
theorem lookup_map {α β κ : Type} [BEq κ] [LawfulBEq κ] (key : α → κ) (value : α → β) (k : κ)
    (l : List α) : (l.map fun a => (key a, value a)).lookup k =
      (l.find? fun a => key a == k).map value := by
  induction l with
  | nil => rfl
  | cons a l ih =>
    rw [List.map_cons, List.lookup_cons, List.find?_cons, BEq.comm (a := k)]
    cases key a == k with
    | true => rfl
    | false => exact ih

end RemoteCall
