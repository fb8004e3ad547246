import Mathlib.Data.List.Nodup
import RemoteCall.Service.Registry

/-!
# Changing services in place

Registering, merging and publishing are procedures that change a service or a registry where it
stands, step by step. A refusal breaks a procedure off and leaves whatever its steps have done, so
a number could be used up or some of the methods taken over by a procedure that is refused. None
is: in each of them the last step that can be refused comes before the first one that changes
anything, and a registry that is written back after a refused merge is what it was.

## Main definitions

* `Service.registering`, `Service.merging`, `Registry.publishing` : the procedures.
* `atomically` : the procedure that has a result and takes effect, or has neither.
* `stateAfter` : what a procedure leaves behind.

## Main results

* `Service.registering_eq`, `Service.merging_eq`, `Registry.Distinct.publishing_run` : registering,
  merging and publishing are all or nothing, and come to what the functions of the same names give.
-/

namespace RemoteCall

section Procedures

variable {σ α : Type}

/-- The procedure that makes a change as a whole or, refused, leaves everything as it was. -/
def atomically (f : σ → Except Refusal (α × σ)) : EStateM Refusal σ α := fun s =>
  match f s with
  | .ok (a, s') => .ok a s'
  | .error e => .error e s

/-- What a procedure leaves behind, refused or not. -/
def stateAfter (x : EStateM Refusal σ α) (s : σ) : σ :=
  match x.run s with
  | .ok _ s' => s'
  | .error _ s' => s'

/-- What is all or nothing keeps what its results have. -/
theorem stateAfter_atomically {P : σ → Prop} {f : σ → Except Refusal (α × σ)} {s : σ} (hs : P s)
    (h : ∀ a s', f s = .ok (a, s') → P s') : P (stateAfter (atomically f) s) := by
  rw [stateAfter, EStateM.run, atomically]
  cases hf : f s with
  | ok done => exact h done.1 done.2 hf
  | error e => exact hs

end Procedures

namespace Service

/-- Takes the next number of the service. -/
def takingNumber : EStateM Refusal Service MethodId := do
  let s ← get
  let (id, ids) ← ofExcept s.ids.take
  set { s with ids }
  return id

/-- Puts a method into the service. -/
def inserting (m : Method) : EStateM Refusal Service Unit :=
  modify fun s => { s with methods := insertMethod m s.methods }

/-- Registers a method under the next number. -/
def registering (signature : Signature) (handler : Handler) :
    EStateM Refusal Service MethodId := do
  let s ← get
  if (s.methodNamed? signature.name).isSome then
    throw (.nameTaken signature.name s.name)
  let id ← takingNumber
  inserting (.ofSignature s.id id signature (some handler) s.serializers)
  return id

/-- Takes over the methods of another service. The numbers are tried on a copy of those that are
left, which replaces them when there are enough. -/
def merging (other : Service) : EStateM Refusal Service Renumbering := do
  let s ← get
  if other.id ≠ s.id then
    throw (.otherService other.id s.id)
  if other.address ≠ s.address then
    throw (.otherAddress s.name s.address.text other.address.text)
  if let some m := other.methods.find? fun m => (s.methodNamed? m.name).isSome then
    throw (.nameTaken m.name s.name)
  let (renumbered, ids) ← ofExcept (renumber s.ids other.methods)
  modify fun s => { s with ids }
  forM renumbered fun r => inserting r.2
  return renumbered.map fun r => (r.1, r.2.id)

theorem run_ofExcept {σ α : Type} (x : Except Refusal α) (s : σ) :
    (ofExcept x : EStateM Refusal σ α).run s =
      match x with
      | .ok a => .ok a s
      | .error e => .error e s := by
  cases x <;> rfl

/-- Registering a method is all or nothing. -/
theorem registering_eq (signature : Signature) (handler : Handler) :
    registering signature handler = atomically fun s => s.register signature handler := by
  funext s
  show (registering signature handler).run s = _
  by_cases hname : (s.methodNamed? signature.name).isSome = true
  · simp [registering, atomically, register, hname]
  · cases htake : s.ids.take with
    | error e =>
      simp only [registering, atomically, register, hname, takingNumber, run_ofExcept, htake,
        EStateM.run_bind, EStateM.run_get, if_false, Bool.false_eq_true]
      rfl
    | ok taken =>
      simp only [registering, atomically, register, hname, takingNumber, run_ofExcept, htake,
        EStateM.run_bind, EStateM.run_get, EStateM.run_set, EStateM.run_pure, if_false,
        Bool.false_eq_true]
      rfl

/-- Methods are put into a service one after the other. -/
theorem run_forM_inserting (renumbered : List (MethodId × Method)) (s : Service) :
    (forM renumbered fun r => inserting r.2).run s =
      .ok () { s with methods := renumbered.foldl (fun ms r => insertMethod r.2 ms) s.methods } := by
  induction renumbered generalizing s with
  | nil => rfl
  | cons r renumbered ih =>
    rw [List.forM_cons, EStateM.run_bind]
    exact ih _

/-- Merging is all or nothing. -/
theorem merging_eq (other : Service) :
    merging other = atomically fun s => s.merge other := by
  funext s
  show (merging other).run s = _
  by_cases hid : other.id = s.id
  · by_cases haddress : other.address = s.address
    · cases hclash : other.methods.find? fun m => (s.methodNamed? m.name).isSome with
      | some m => simp [merging, atomically, merge, hid, haddress, hclash]
      | none =>
        cases hren : renumber s.ids other.methods with
        | error e =>
          simp only [merging, hid, ne_eq, haddress, ite_not, EStateM.run_bind, EStateM.run_get,
            ↓reduceIte, hclash, hren, run_ofExcept, atomically, merge, not_true_eq_false]
          rfl
        | ok renumbered =>
          simp only [merging, hid, ne_eq, haddress, ite_not, EStateM.run_bind, EStateM.run_get,
            ↓reduceIte, hclash, hren, run_ofExcept, EStateM.run_modify, run_forM_inserting,
            EStateM.run_pure, atomically, merge, not_true_eq_false]
          rfl
    · simp [merging, atomically, merge, hid, haddress]
  · simp [merging, atomically, merge, hid]

end Service

namespace Registry

variable {r : Registry} {existing : Service}

/-- Runs a procedure on a published service where it stands: the registry keeps what the procedure
leaves behind, refused or not. -/
def onService {α : Type} (existing : Service) (x : EStateM Refusal Service α) :
    EStateM Refusal Registry α := fun r =>
  match x.run existing with
  | .ok a s => .ok a (r.replace s)
  | .error e s => .error e (r.replace s)

/-- Publishes a service. -/
def publishing (s : Service) : EStateM Refusal Registry Service.Renumbering := do
  let r ← get
  if r.frozen then
    throw (.started s.name)
  match r.service? s.id with
  | some existing => onService existing (Service.merging s)
  | none =>
    set { r with services := r.services ++ [s] }
    return s.methods.map fun m => (m.id, m.id)

/-- No two published services have one number. -/
def Distinct (r : Registry) : Prop :=
  (r.services.map Service.id).Nodup

/-- What is found under a number has this number and is published. -/
theorem service?_eq_some {id : ServiceId} (h : r.service? id = some existing) :
    existing ∈ r.services ∧ existing.id = id :=
  ⟨List.mem_of_find?_eq_some h, by simpa using List.find?_some h⟩

/-- Writing back a service that has not changed changes nothing. -/
theorem Distinct.replace_self (hr : r.Distinct) (h : existing ∈ r.services) :
    r.replace existing = r := by
  have hsame : ∀ t ∈ r.services, (if t.id = existing.id then existing else t) = t := by
    intro t ht
    split
    · rename_i hid
      exact (List.inj_on_of_nodup_map hr ht h hid).symm
    · rfl
  rw [replace, List.map_congr_left hsame, List.map_id']

/-- Publishing is all or nothing. -/
theorem Distinct.publishing_run (hr : r.Distinct) (s : Service) :
    (publishing s).run r = (atomically fun r => r.publish s).run r := by
  show _ = atomically (fun r => r.publish s) r
  cases hfrozen : r.frozen with
  | true => simp [publishing, publish, atomically, hfrozen]
  | false =>
    cases hfind : r.service? s.id with
    | none => simp [-bind_pure_comp, publishing, publish, atomically, hfrozen, hfind]
    | some existing =>
      have hsame := hr.replace_self (service?_eq_some hfind).1
      have hmerging : (onService existing (Service.merging s)).run r =
          match existing.merge s with
          | .ok merged => .ok merged.1 (r.replace merged.2)
          | .error e => .error e r := by
        show onService existing (Service.merging s) r = _
        rw [onService, EStateM.run, Service.merging_eq, atomically]
        cases existing.merge s with
        | ok merged => rfl
        | error e => exact congrArg (EStateM.Result.error e) hsame
      cases hmerge : existing.merge s <;>
        simp [publishing, publish, atomically, hfrozen, hfind, hmerge, hmerging]

end Registry

end RemoteCall
