import Mathlib.Data.List.Nodup
import RemoteCall.Proofs.Decimal
import RemoteCall.Proofs.Server.Groups
import RemoteCall.Proofs.Service.Publication

/-!
# Which executor a method is bound to

When a server starts, its methods are bound to executors one after another, in whatever order the
registry lists its services. An executor is for one method, or for all methods that share a group.
Each of those it can be for gets one when it first comes up, and the executors stand in the order in
which this happened.

No two published methods have the same numbers, so none takes the binding of another one.

## Main definitions

* `Holder` : what an executor is for.
* `Groups.Laid` : the bindings, the shared groups and the list of executors agree.

## Main results

* `Groups.Laid.bind` : binding one more method.
* `Registry.Sound.nodup_keys` : no two published methods have the same numbers.
* `Groups.methods_bound` : which methods are bound, which share an executor, and what is closed.
-/

namespace RemoteCall.Server

/-! ### What executors are for -/

/-- What an executor is for: a single method, or a group that methods share. -/
inductive Holder where
  | method (key : MethodKey)
  | group (name : String)
  deriving DecidableEq

/-- What the executor of a method is for. -/
def Holder.of (m : Method) : Holder :=
  if m.execution.shared then .group m.execution.group else .method (keyOf m)

/-- The name of the executor that is added for a method. -/
def executorName (m : Method) : String :=
  if m.execution.shared then "group-" ++ m.execution.group
  else toString m.service ++ "." ++ m.name

/-- The executor that is added for a method. -/
def executorOf (m : Method) : Executor :=
  .new (executorName m) m.execution

@[simp] theorem name_executorOf (m : Method) : (executorOf m).name = executorName m := rfl

/-- The first of the methods that have a holder. -/
def firstOf (methods : List Method) (h : Holder) : Option Method :=
  methods.find? fun m => Holder.of m == h

/-- Two methods have an executor in common when they are one, or share a group. -/
theorem Holder.of_eq_of_iff {m n : Method} :
    Holder.of m = Holder.of n ↔
      (m.execution.shared = false ∧ n.execution.shared = false ∧ keyOf m = keyOf n) ∨
        (m.execution.shared = true ∧ n.execution.shared = true ∧
          m.execution.group = n.execution.group) := by
  cases hm : m.execution.shared <;> cases hn : n.execution.shared <;> simp [Holder.of, hm, hn]

/-! ### Names of executors -/

theorem toList_toString (id : ServiceId) : (toString id).toList = Nat.toDigits 10 id.toNat :=
  Decimal.toList_toString id.toNat

theorem isDigit_of_mem_toString {id : ServiceId} {c : Char} (hc : c ∈ (toString id).toList) :
    c.isDigit = true := by
  rw [toList_toString] at hc
  exact Decimal.isDigit_of_mem_toDigits hc

/-- A number is read off its digits. -/
theorem toString_inj {id id' : ServiceId} (h : (toString id).toList = (toString id').toList) :
    id = id' := by
  rw [toList_toString, toList_toString] at h
  exact UInt32.toNat_inj.mp (Decimal.toDigits_inj h)

/-- A number and a name are read off their text, which the first point divides. -/
theorem dotted_inj {id id' : ServiceId} {name name' : String}
    (h : toString id ++ "." ++ name = toString id' ++ "." ++ name') : id = id' ∧ name = name' := by
  have htext (id : ServiceId) (name : String) : (toString id ++ "." ++ name).toList =
      (toString id).toList ++ '.' :: name.toList := by
    simp [String.toList_append]
  have hnumber (id : ServiceId) (rest : List Char) :
      ((toString id).toList ++ '.' :: rest).takeWhile Char.isDigit = (toString id).toList := by
    rw [List.takeWhile_append_of_pos fun c hc => isDigit_of_mem_toString hc]
    exact List.append_nil _
  have hchars := congrArg String.toList h
  rw [htext, htext] at hchars
  have hids : (toString id).toList = (toString id').toList := by
    rw [← hnumber id name.toList, hchars, hnumber]
  rw [hids, List.append_cancel_left_eq, List.cons.injEq] at hchars
  exact ⟨toString_inj hids, String.toList_inj.mp hchars.2⟩

/-- The name for a group begins with a letter, that for a single method with a digit. -/
theorem group_ne_dotted (group name : String) (id : ServiceId) :
    "group-" ++ group ≠ toString id ++ "." ++ name := by
  intro h
  have hne : (toString id).toList ≠ [] := by
    rw [toList_toString]
    exact Nat.toDigits_ne_nil
  obtain ⟨c, rest, hc⟩ := List.exists_cons_of_ne_nil hne
  have hdigit : c.isDigit = true := isDigit_of_mem_toString (hc ▸ List.mem_cons_self)
  have hchars := congrArg String.toList h
  rw [String.toList_append, String.toList_append, String.toList_append, hc] at hchars
  have hletter : 'g' = c := (List.cons.inj hchars).1
  subst hletter
  cases hdigit

/-- Methods with executors of one name have one holder, if methods of one service have different
names. -/
theorem holder_eq_of_executorName_eq {m n : Method}
    (hnames : m.service = n.service → m.name = n.name → m = n)
    (h : executorName m = executorName n) : Holder.of m = Holder.of n := by
  unfold executorName at h
  cases hm : m.execution.shared <;> cases hn : n.execution.shared <;> rw [hm, hn] at h
  · obtain ⟨hservice, hname⟩ := dotted_inj h
    rw [hnames hservice hname]
  · exact absurd h.symm (group_ne_dotted _ _ _)
  · exact absurd h (group_ne_dotted _ _ _)
  · have hgroup := (String.append_right_inj _).mp h
    rw [Holder.of, Holder.of, hm, hn, if_pos rfl, if_pos rfl, hgroup]

namespace Groups

/-- The list with one more holder, unless it is there. -/
def enlist (h : Holder) (holders : List Holder) : List Holder :=
  if h ∈ holders then holders else holders ++ [h]

variable {g : Groups} {holders : List Holder} {done : List Method} {m : Method} {h h' : Holder}

theorem mem_enlist : h' ∈ enlist h holders ↔ h' ∈ holders ∨ h' = h := by
  unfold enlist
  split
  · rename_i hmem
    exact ⟨Or.inl, fun h => h.elim id fun heq => heq ▸ hmem⟩
  · simp

theorem nodup_enlist (hnodup : holders.Nodup) : (enlist h holders).Nodup := by
  unfold enlist
  split
  · exact hnodup
  · rename_i hfresh
    exact List.nodup_append.mpr ⟨hnodup, by simp, by
      rintro a ha b hb rfl
      exact hfresh (List.mem_singleton.mp hb ▸ ha)⟩

/-- A holder keeps its place. -/
theorem idxOf_enlist (hmem : h' ∈ holders) :
    (enlist h holders).idxOf h' = holders.idxOf h' := by
  unfold enlist
  split
  · rfl
  · exact List.idxOf_append_of_mem hmem

/-- A new holder comes last. -/
theorem idxOf_enlist_self (hfresh : h ∉ holders) :
    (enlist h holders).idxOf h = holders.length := by
  rw [enlist, if_neg hfresh, List.idxOf_append_of_notMem hfresh, List.idxOf_cons_self, Nat.add_zero]

/-- The place of a holder, if it has one. -/
def place? (holders : List Holder) (h : Holder) : Option ExecutorIndex :=
  if h ∈ holders then some (holders.idxOf h) else none

theorem place?_enlist_of_ne (hne : h' ≠ h) : place? (enlist h holders) h' = place? holders h' := by
  unfold place?
  by_cases hmem : h' ∈ holders
  · rw [if_pos (mem_enlist.mpr (Or.inl hmem)), if_pos hmem, idxOf_enlist hmem]
  · rw [if_neg hmem, if_neg]
    exact fun hlater => (mem_enlist.mp hlater).elim hmem hne

theorem place?_enlist_self :
    place? (enlist h holders) h = some ((enlist h holders).idxOf h) :=
  if_pos (mem_enlist.mpr (Or.inr rfl))

/-- The holders are those of the methods; the executors, in the order of their holders, are those
of the first method of each; and the bindings and the shared groups lead there. -/
structure Laid (g : Groups) (holders : List Holder) (done : List Method) : Prop where
  nodup : holders.Nodup
  mem : ∀ h, h ∈ holders ↔ ∃ m ∈ done, Holder.of m = h
  executors : g.executors.map some = holders.map fun h => (firstOf done h).map executorOf
  bound : ∀ m ∈ done, g.index? (keyOf m) = some (holders.idxOf (Holder.of m))
  unbound : ∀ key, (∀ m ∈ done, keyOf m ≠ key) → g.index? key = none
  shared : ∀ name,
    (g.shared.find? fun s => s.1 == name).map Prod.snd = place? holders (.group name)

theorem laid_empty : Laid empty [] [] where
  nodup := List.nodup_nil
  mem := by simp
  executors := rfl
  bound := by simp
  unbound := fun _ _ => rfl
  shared := fun _ => rfl

theorem Laid.length_eq (hg : g.Laid holders done) : g.executors.length = holders.length := by
  have hlength := congrArg List.length hg.executors
  simpa only [List.length_map] using hlength

/-- A method that is not shared and whose key is new needs an executor of its own. -/
theorem Laid.fresh (hg : g.Laid holders done) (hnew : ∀ n ∈ done, keyOf n ≠ keyOf m)
    (hshared : m.execution.shared = false) : Holder.of m ∉ holders := by
  rw [hg.mem]
  rintro ⟨n, hn, hholder⟩
  rcases Holder.of_eq_of_iff.mp hholder with ⟨-, -, hkey⟩ | ⟨-, hgroup, -⟩
  · exact hnew n hn hkey
  · rw [hshared] at hgroup
    cases hgroup

/-- The executor of a method is the one of its holder, which is added if it is not there. -/
theorem Laid.executorFor (hg : g.Laid holders done) (hnew : ∀ n ∈ done, keyOf n ≠ keyOf m) :
    (g.executorFor m).1 = (enlist (Holder.of m) holders).idxOf (Holder.of m) ∧
      (g.executorFor m).2.bindings = g.bindings ∧
      (g.executorFor m).2.executors = g.executors ++
        (if Holder.of m ∈ holders then [] else [executorOf m]) ∧
      ∀ name, ((g.executorFor m).2.shared.find? fun s => s.1 == name).map Prod.snd =
        place? (enlist (Holder.of m) holders) (.group name) := by
  cases hshared : m.execution.shared with
  | false =>
    -- An executor of its own is added, and the shared groups stay as they are.
    have hfresh := hg.fresh hnew hshared
    have hadd : g.executorFor m = g.create (executorName m) m.execution := by
      simp [Groups.executorFor, hshared, executorName]
    rw [hadd, if_neg hfresh, idxOf_enlist_self hfresh]
    refine ⟨hg.length_eq, rfl, rfl, fun name => ?_⟩
    have hother : Holder.group name ≠ Holder.of m := by simp [Holder.of, hshared]
    rw [place?_enlist_of_ne hother]
    exact hg.shared name
  | true =>
    have hholder : Holder.of m = .group m.execution.group := if_pos hshared
    have hfind := hg.shared m.execution.group
    rw [← hholder] at hfind
    by_cases hmem : Holder.of m ∈ holders
    · rw [place?, if_pos hmem, Option.map_eq_some_iff] at hfind
      obtain ⟨⟨name, i⟩, hsome, rfl⟩ := hfind
      have hfound : g.executorFor m = (holders.idxOf (Holder.of m), g) := by
        simp [Groups.executorFor, hshared, hsome]
      rw [hfound, enlist, if_pos hmem, if_pos hmem]
      exact ⟨rfl, rfl, (List.append_nil _).symm, hg.shared⟩
    · rw [place?, if_neg hmem, Option.map_eq_none_iff] at hfind
      have hadd : g.executorFor m = (g.executors.length,
          { (g.create (executorName m) m.execution).2 with
            shared := g.shared ++ [(m.execution.group, g.executors.length)] }) := by
        simp [Groups.executorFor, Groups.create, hshared, hfind, executorName]
      rw [hadd, if_neg hmem, idxOf_enlist_self hmem]
      refine ⟨hg.length_eq, rfl, rfl, fun name => ?_⟩
      by_cases hname : m.execution.group = name
      · subst hname
        rw [← hholder, place?_enlist_self, idxOf_enlist_self hmem, ← hg.length_eq]
        simp [List.find?_append, hfind]
      · have hother : Holder.group name ≠ Holder.of m := by
          rw [hholder]
          exact fun h => hname (Holder.group.inj h).symm
        rw [place?_enlist_of_ne hother, ← hg.shared]
        simp [List.find?_append, hname]

/-- Binding a method changes what is bound under its key only. -/
theorem index?_bind (g : Groups) (m : Method) (key : MethodKey) :
    (g.bind m).index? key =
      if keyOf m = key then some (g.executorFor m).1 else (g.executorFor m).2.index? key := by
  have hbind : (g.bind m).bindings =
      (g.executorFor m).2.bindings.filter (fun b => b.1 != keyOf m) ++
        [(keyOf m, (g.executorFor m).1)] := rfl
  have hothers : ((g.executorFor m).2.bindings.filter fun b => b.1 != keyOf m).find?
      (fun b => b.1 == key) =
        if keyOf m = key then none else (g.executorFor m).2.bindings.find? fun b => b.1 == key := by
    rw [List.find?_filter]
    split
    · rename_i hkey
      refine List.find?_eq_none.mpr fun b _ => ?_
      simp [hkey]
    · rename_i hkey
      congr 1
      funext b
      by_cases hb : b.1 = key <;> simp [hb, Ne.symm hkey]
  rw [index?, index?, hbind, List.find?_append, hothers]
  split
  · rename_i hkey
    simp [hkey]
  · rename_i hkey
    simp [hkey]

/-- The first method of a holder that has one stays the first. -/
theorem Laid.firstOf_append (hg : g.Laid holders done) (hmem : h ∈ holders) (m : Method) :
    firstOf (done ++ [m]) h = firstOf done h := by
  obtain ⟨n, hn, rfl⟩ := (hg.mem h).mp hmem
  have hsome : (firstOf done (Holder.of n)).isSome = true :=
    List.find?_isSome.mpr ⟨n, hn, beq_self_eq_true _⟩
  rw [firstOf, List.find?_append]
  exact Option.or_of_isSome hsome

/-- The method of a holder that has none yet is its first. -/
theorem Laid.firstOf_fresh (hg : g.Laid holders done) (hfresh : Holder.of m ∉ holders) :
    firstOf (done ++ [m]) (Holder.of m) = some m := by
  have hnone : (done.find? fun n => Holder.of n == Holder.of m) = none := by
    refine List.find?_eq_none.mpr fun n hn hholder => ?_
    exact hfresh ((hg.mem _).mpr ⟨n, hn, by simpa using hholder⟩)
  rw [firstOf, List.find?_append, hnone]
  simp

/-- The executor that is added is that of the first method of its holder. -/
theorem Laid.executors_append (hg : g.Laid holders done) (m : Method) :
    (g.executors ++ (if Holder.of m ∈ holders then [] else [executorOf m])).map some =
      (enlist (Holder.of m) holders).map fun h => (firstOf (done ++ [m]) h).map executorOf := by
  have hbefore : g.executors.map some =
      holders.map fun h => (firstOf (done ++ [m]) h).map executorOf := by
    rw [hg.executors]
    exact List.map_congr_left fun h hmem => by rw [hg.firstOf_append hmem]
  rw [List.map_append, hbefore, enlist]
  split
  · rw [List.map_nil, List.append_nil]
  · rename_i hfresh
    rw [List.map_append, List.map_singleton, List.map_singleton, hg.firstOf_fresh hfresh]
    rfl

/-- One more method is bound to the executor of its holder. -/
theorem Laid.bind (hg : g.Laid holders done) (hnew : ∀ n ∈ done, keyOf n ≠ keyOf m) :
    (g.bind m).Laid (enlist (Holder.of m) holders) (done ++ [m]) := by
  obtain ⟨hindex, hbindings, hexecutors, hshared⟩ := hg.executorFor hnew
  have hbefore (key : MethodKey) : (g.executorFor m).2.index? key = g.index? key := by
    rw [index?, hbindings, index?]
  refine ⟨nodup_enlist hg.nodup, fun h => ?_, ?_, fun n hn => ?_, fun key hkey => ?_, hshared⟩
  · rw [mem_enlist, hg.mem]
    simp [or_and_right, exists_or, eq_comm]
  · rw [← hg.executors_append m, ← hexecutors]
    rfl
  · rw [index?_bind]
    rcases List.mem_append.mp hn with hn | hn
    · rw [if_neg (hnew n hn).symm, hbefore, hg.bound n hn]
      rw [idxOf_enlist ((hg.mem _).mpr ⟨n, hn, rfl⟩)]
    · obtain rfl := List.mem_singleton.mp hn
      rw [if_pos rfl, hindex]
  · have hmkey : keyOf m ≠ key := hkey m (by simp)
    rw [index?_bind, if_neg hmkey, hbefore]
    exact hg.unbound key fun n hn => hkey n (by simp [hn])

/-- Methods with different keys are bound to the executors of their holders. -/
theorem laid_ofMethods {methods : List Method} (hkeys : (methods.map keyOf).Nodup) :
    ∃ holders, (ofMethods methods).Laid holders methods := by
  -- The induction is on the methods still to be bound; those before them are laid.
  have hfold : ∀ (g : Groups) (holders : List Holder) (done todo : List Method),
      g.Laid holders done → ((done ++ todo).map keyOf).Nodup →
        ∃ holders', (todo.foldl Groups.bind g).Laid holders' (done ++ todo) := by
    intro g holders done todo
    induction todo generalizing g holders done with
    | nil =>
      intro hg _
      exact ⟨holders, by rwa [List.append_nil]⟩
    | cons m todo ih =>
      intro hg hkeys
      have hnew : ∀ n ∈ done, keyOf n ≠ keyOf m := by
        rw [List.map_append, List.nodup_append] at hkeys
        exact fun n hn => hkeys.2.2 _ (List.mem_map_of_mem hn) _ (by simp)
      have hsplit : done ++ m :: todo = (done ++ [m]) ++ todo := by simp
      rw [hsplit] at hkeys ⊢
      exact ih _ _ _ (hg.bind hnew) hkeys
  exact hfold empty [] [] methods laid_empty hkeys

end Groups

end RemoteCall.Server

/-! ### Published methods -/

namespace RemoteCall.Registry

open Server (keyOf)

variable {r : Registry} {m n : Method}

/-- Methods with the same service number are methods of one service. -/
theorem Sound.exists_service (hr : r.Sound) (howned : ∀ s ∈ r.services, s.Owned)
    (hm : m ∈ r.methods) (hn : n ∈ r.methods) (h : m.service = n.service) :
    ∃ s ∈ r.services, m ∈ s.methods ∧ n ∈ s.methods := by
  obtain ⟨s, hs, hms⟩ := List.mem_flatMap.mp hm
  obtain ⟨t, ht, hnt⟩ := List.mem_flatMap.mp hn
  rw [howned s hs m hms, howned t ht n hnt] at h
  obtain rfl : s = t := List.inj_on_of_nodup_map hr.distinct hs ht h
  exact ⟨s, hs, hms, hnt⟩

/-- Published methods with the same numbers are the same. -/
theorem Sound.eq_of_key (hr : r.Sound) (howned : ∀ s ∈ r.services, s.Owned)
    (hm : m ∈ r.methods) (hn : n ∈ r.methods) (h : keyOf m = keyOf n) : m = n := by
  obtain ⟨hservice, hid⟩ := Prod.mk.inj h
  obtain ⟨s, hs, hms, hns⟩ := hr.exists_service howned hm hn hservice
  exact List.inj_on_of_nodup_map (hr.numbered s hs).nodup_ids hms hns hid

/-- Published methods of one service with the same name are the same. -/
theorem Sound.eq_of_name (hr : r.Sound) (howned : ∀ s ∈ r.services, s.Owned)
    (hm : m ∈ r.methods) (hn : n ∈ r.methods) (hservice : m.service = n.service)
    (hname : m.name = n.name) : m = n := by
  obtain ⟨s, hs, hms, hns⟩ := hr.exists_service howned hm hn hservice
  exact List.inj_on_of_nodup_map (hr.numbered s hs).names hms hns hname

/-- No two published methods have the same numbers. -/
theorem Sound.nodup_keys (hr : r.Sound) (howned : ∀ s ∈ r.services, s.Owned) :
    (r.methods.map keyOf).Nodup := by
  have hservices : r.services.Pairwise fun s t => s.id ≠ t.id := List.pairwise_map.mp hr.distinct
  have hnodup : r.methods.Nodup := by
    refine List.nodup_flatMap.mpr ⟨fun s hs => .of_map _ (hr.numbered s hs).nodup_ids, ?_⟩
    refine hservices.imp_of_mem fun {s t} hs ht hne m hms hmt => ?_
    exact hne ((howned s hs m hms).symm.trans (howned t ht m hmt))
  exact hnodup.map_on fun m hm n hn h => hr.eq_of_key howned hm hn h

end RemoteCall.Registry

/-! ### Executors of published methods -/

namespace RemoteCall.Server.Groups

variable {g : Groups} {holders : List Holder} {done : List Method} {m n : Method} {r : Registry}

/-- The place of a holder in the list of executors. -/
theorem Laid.idxOf_lt (hg : g.Laid holders done) (hm : m ∈ done) :
    holders.idxOf (Holder.of m) < g.executors.length := by
  rw [hg.length_eq]
  exact List.idxOf_lt_length_iff.mpr ((hg.mem _).mpr ⟨m, hm, rfl⟩)

/-- A method is bound to the executor that was added for the first method of its holder. -/
theorem Laid.executor?_eq (hg : g.Laid holders done) (hm : m ∈ done) :
    g.executor? (keyOf m) = (firstOf done (Holder.of m)).map executorOf := by
  have hholder : holders[holders.idxOf (Holder.of m)]? = some (Holder.of m) :=
    List.getElem?_idxOf ((hg.mem _).mpr ⟨m, hm, rfl⟩)
  have hexecutor : g.executors[holders.idxOf (Holder.of m)]?.map some =
      some ((firstOf done (Holder.of m)).map executorOf) := by
    rw [← List.getElem?_map, hg.executors, List.getElem?_map, hholder, Option.map_some]
  rw [executor?, hg.bound m hm, Option.bind_some]
  obtain ⟨e, he, hsame⟩ := Option.map_eq_some_iff.mp hexecutor
  rw [he, hsame]

/-- Two methods are bound to the same executor when they have one holder. -/
theorem Laid.index?_eq_iff (hg : g.Laid holders done) (hm : m ∈ done) (hn : n ∈ done) :
    g.index? (keyOf m) = g.index? (keyOf n) ↔ Holder.of m = Holder.of n := by
  rw [hg.bound m hm, hg.bound n hn, Option.some.injEq]
  exact List.idxOf_inj ((hg.mem _).mpr ⟨m, hm, rfl⟩)

/-- Every executor is one that a method is bound to. -/
theorem Laid.lt_length_iff (hg : g.Laid holders done) {i : ExecutorIndex} :
    i < g.executors.length ↔ ∃ m ∈ done, g.index? (keyOf m) = some i := by
  constructor
  · intro hi
    rw [hg.length_eq] at hi
    obtain ⟨m, hm, hholder⟩ := (hg.mem holders[i]).mp (List.getElem_mem hi)
    refine ⟨m, hm, ?_⟩
    rw [hg.bound m hm, hholder, hg.nodup.idxOf_getElem]
  · rintro ⟨m, hm, hindex⟩
    rw [hg.bound m hm, Option.some.injEq] at hindex
    exact hindex ▸ hg.idxOf_lt hm

/-- The executors have different names. -/
theorem Laid.nodup_names (hg : g.Laid holders done)
    (hnames : ∀ m ∈ done, ∀ n ∈ done, m.service = n.service → m.name = n.name → m = n) :
    (g.executors.map Executor.name).Nodup := by
  have hfirst : ∀ h ∈ holders, ∃ m ∈ done, Holder.of m = h ∧ firstOf done h = some m := by
    intro h hmem
    obtain ⟨n, hn, hholder⟩ := (hg.mem h).mp hmem
    have hsome : (firstOf done h).isSome = true := List.find?_isSome.mpr ⟨n, hn, by simp [hholder]⟩
    obtain ⟨m, hm⟩ := Option.isSome_iff_exists.mp hsome
    exact ⟨m, List.mem_of_find?_eq_some hm, by simpa using List.find?_some hm, hm⟩
  have hlist : (g.executors.map Executor.name).map some =
      holders.map fun h => (firstOf done h).map executorName := by
    have hmap := congrArg (List.map (Option.map Executor.name)) hg.executors
    simpa only [List.map_map, Function.comp_def, Option.map_map, Option.map_some,
      name_executorOf] using hmap
  refine .of_map some (hlist ▸ hg.nodup.map_on fun h hmem h' hmem' hsame => ?_)
  obtain ⟨m, hm, rfl, hfind⟩ := hfirst h hmem
  obtain ⟨n, hn, rfl, hfind'⟩ := hfirst h' hmem'
  rw [hfind, hfind', Option.map_some, Option.map_some, Option.some.injEq] at hsame
  exact holder_eq_of_executorName_eq (hnames m hm n hn) hsame

/-- Closing leaves the bindings as they are. -/
theorem executor?_close (g : Groups) (key : MethodKey) :
    g.close.executor? key = (g.executor? key).map Executor.close := by
  rw [executor?, executor?]
  cases h : g.index? key with
  | none =>
    have hclosed : g.close.index? key = none := h
    rw [hclosed]
    rfl
  | some i =>
    have hclosed : g.close.index? key = some i := h
    rw [hclosed]
    exact List.getElem?_map

/-- For every registry that publications lead to, and in whatever order its methods are bound: an
executor is found for the numbers of a request exactly when a method is. Two methods are bound to
the same executor exactly when they are one method, or both share a group and it is the same one.
The executors that are listed are those that a method is bound to; no two of them have one name; and
when they are closed, the executor of every method is. -/
theorem methods_bound (hr : Registry.Reaches .new r) {methods : List Method}
    (hmethods : methods.Perm r.methods) :
    let g := ofMethods methods
    (∀ service id, (g.executor? (service, id)).isSome = (r.method? service id).isSome) ∧
      (∀ m ∈ r.methods, ∀ n ∈ r.methods, g.index? (keyOf m) = g.index? (keyOf n) ↔
        m = n ∨ m.execution.shared = true ∧ n.execution.shared = true ∧
          m.execution.group = n.execution.group) ∧
      (∀ i, i < g.executors.length ↔ ∃ m ∈ r.methods, g.index? (keyOf m) = some i) ∧
      (g.executors.map Executor.name).Nodup ∧
      (∀ m ∈ r.methods, (g.close.executor? (keyOf m)).map Executor.isStopping = some true) := by
  intro g
  have hsound : r.Sound := (hr.sound Registry.sound_new).1
  have howned : ∀ s ∈ r.services, s.Owned := fun s hs => (hr.built s hs).owned
  have hmem : ∀ m, m ∈ methods ↔ m ∈ r.methods := fun m => hmethods.mem_iff
  have hkeys : (methods.map keyOf).Nodup :=
    (hmethods.map keyOf).nodup_iff.mpr (hsound.nodup_keys howned)
  obtain ⟨holders, hg⟩ : ∃ holders, g.Laid holders methods := laid_ofMethods hkeys
  have hbound : ∀ m ∈ r.methods, (g.executor? (keyOf m)).isSome = true := by
    intro m hm
    have hfirst : (firstOf methods (Holder.of m)).isSome = true :=
      List.find?_isSome.mpr ⟨m, (hmem m).mpr hm, beq_self_eq_true _⟩
    rwa [hg.executor?_eq ((hmem m).mpr hm), Option.isSome_map]
  refine ⟨fun service id => ?_, fun m hm n hn => ?_, fun i => ?_, ?_, fun m hm => ?_⟩
  · cases hfind : r.method? service id with
    | some m =>
      obtain ⟨hm, rfl, rfl⟩ := (hsound.method?_eq_some_iff howned).mp hfind
      exact hbound m hm
    | none =>
      have hunbound : g.index? (service, id) = none := by
        refine hg.unbound _ fun m hm hkey => ?_
        obtain ⟨hservice, hid⟩ := Prod.mk.inj hkey
        have hsome : r.method? service id = some m :=
          (hsound.method?_eq_some_iff howned).mpr ⟨(hmem m).mp hm, hservice, hid⟩
        rw [hfind] at hsome
        cases hsome
      rw [executor?, hunbound]
      rfl
  · rw [hg.index?_eq_iff ((hmem m).mpr hm) ((hmem n).mpr hn), Holder.of_eq_of_iff]
    constructor
    · rintro (⟨-, -, hkey⟩ | hgroup)
      · exact Or.inl (hsound.eq_of_key howned hm hn hkey)
      · exact Or.inr hgroup
    · rintro (rfl | hgroup)
      · cases hshared : m.execution.shared with
        | true => exact Or.inr ⟨rfl, rfl, rfl⟩
        | false => exact Or.inl ⟨rfl, rfl, rfl⟩
      · exact Or.inr hgroup
  · simp only [hg.lt_length_iff, hmem]
  · refine hg.nodup_names fun m hm n hn => ?_
    exact hsound.eq_of_name howned ((hmem m).mp hm) ((hmem n).mp hn)
  · obtain ⟨e, he⟩ := Option.isSome_iff_exists.mp (hbound m hm)
    rw [executor?_close, he]
    rfl

/-- A service with a method that has an executor of its own and two that share one, bound in the
opposite order. -/
theorem methods_bound_shared :
    let io (name : String) : Signature :=
      { Signature.ofName name with execution := Execution.single.sharedIn "io" }
    let registered (signature : Signature) := stateAfter (Service.registering signature .echo)
    let s := registered (io "write") (registered (io "read")
      (registered (.ofName "size") (.new "File" (.loopback 8080))))
    let r := stateAfter (Registry.publishing s) .new
    let g := ofMethods r.methods.reverse
    Registry.Reaches .new r ∧ r.methods.reverse.Perm r.methods ∧
      (g.executor? (s.id, 3)).isSome = true ∧ (g.executor? (s.id, 4)).isSome = false ∧
      g.index? (s.id, 2) = g.index? (s.id, 3) ∧ g.index? (s.id, 1) ≠ g.index? (s.id, 2) ∧
      (g.close.executor? (s.id, 1)).map Executor.isStopping = some true := by
  intro io registered s r g
  have hbuilt : s.Built :=
    .register (.register (.register (.new "File" (.loopback 8080)) (.ofName "size") .echo)
      (io "read") .echo) (io "write") .echo
  have hr : Registry.Reaches .new r := .publish .refl hbuilt
  have hperm : r.methods.reverse.Perm r.methods := List.reverse_perm _
  let method (id : MethodId) (signature : Signature) : Method :=
    .ofSignature s.id id signature (some .echo) .standard
  have hmethods : r.methods =
      [method 1 (.ofName "size"), method 2 (io "read"), method 3 (io "write")] := rfl
  have hfind : r.service? s.id = some s :=
    List.find?_cons_of_pos (beq_self_eq_true (serviceId "File"))
  have hlookup (id : MethodId) : r.method? s.id id = s.method? id := by
    rw [Registry.method?, hfind, Option.bind_some]
  have hsize : method 1 (.ofName "size") ∈ r.methods := by simp [hmethods]
  have hread : method 2 (io "read") ∈ r.methods := by simp [hmethods]
  have hwrite : method 3 (io "write") ∈ r.methods := by simp [hmethods]
  obtain ⟨hfound, hsame, -, -, hclosed⟩ := methods_bound hr hperm
  have hkey : keyOf (method 1 (.ofName "size")) = (s.id, 1) := rfl
  refine ⟨hr, hperm, ?_, ?_, ?_, ?_, hkey ▸ hclosed _ hsize⟩
  · rw [hfound, hlookup]
    rfl
  · rw [hfound, hlookup]
    rfl
  · exact (hsame _ hread _ hwrite).mpr (Or.inr ⟨rfl, rfl, rfl⟩)
  · intro hone
    rcases (hsame _ hsize _ hread).mp hone with hmethod | ⟨hshared, -⟩
    · have hid : (1 : MethodId) = 2 := congrArg Method.id hmethod
      cases hid
    · cases hshared

end RemoteCall.Server.Groups
