import RemoteCall.Proofs.Service.Numbers

/-!
# Publishing services

A server's services are published one after the other, before or after it has started. Each
publication that is not refused says under which number each method of the service is reached from
then on, and it stays so whatever is published later; one that is refused changes nothing.

## Main definitions

* `Registry.Reaches` : the registries that publications and the end of publication lead to.

## Main results

* `Registry.Sound.publish`, `Registry.Sound.publish_ok_iff` : what one publication does, and when.
* `Registry.published_numbers_stay` : the numbers that publications give out.
-/

namespace RemoteCall

namespace Registry

open Service (Numbered TakenOver Renumbering)

variable {r r' r'' : Registry} {s t : Service} {renumbering : Renumbering}

/-- The state of a registry: its services are numbered, and no two have one number. -/
structure Sound (r : Registry) : Prop where
  numbered : ∀ s ∈ r.services, s.Numbered
  distinct : r.Distinct

/-- Every service of the first registry is in the second one, where methods have been put at its
end at most. -/
def Extends (r r' : Registry) : Prop :=
  ∀ id t, r.service? id = some t → ∃ t', r'.service? id = some t' ∧ t.methods <+: t'.methods

theorem Extends.refl (r : Registry) : Extends r r := fun _ t ht => ⟨t, ht, List.prefix_rfl⟩

theorem Extends.trans (h : Extends r r') (h' : Extends r' r'') : Extends r r'' := by
  intro id t ht
  obtain ⟨t', ht', hbegins⟩ := h id t ht
  obtain ⟨t'', ht'', hbegins'⟩ := h' id t' ht'
  exact ⟨t'', ht'', hbegins.trans hbegins'⟩

theorem map_id_replace (r : Registry) (t : Service) :
    (r.replace t).services.map Service.id = r.services.map Service.id := by
  rw [replace, List.map_map]
  refine List.map_congr_left fun s _ => ?_
  rw [Function.comp_apply]
  split
  · rename_i h
    exact h.symm
  · rfl

/-- A replaced service is found under its number, and the others under theirs. -/
theorem service?_replace (r : Registry) (t : Service) (id : ServiceId) :
    (r.replace t).service? id =
      (r.service? id).map fun s => if s.id = t.id then t else s := by
  rw [service?, replace, List.find?_map, service?]
  congr 2
  funext s
  rw [Function.comp_apply]
  split
  · rename_i h
    rw [h]
  · rfl

/-- Putting a service in the place of one whose methods it has. -/
theorem Sound.replace (hr : r.Sound) (ht : t.Numbered) {existing : Service}
    (hfind : r.service? t.id = some existing) (hmethods : existing.methods <+: t.methods) :
    (r.replace t).Sound ∧ Extends r (r.replace t) := by
  refine ⟨⟨fun s hs => ?_, ?_⟩, fun id s hs => ?_⟩
  · obtain ⟨s', hs', rfl⟩ := List.mem_map.mp hs
    split
    · exact ht
    · exact hr.numbered s' hs'
  · rw [Distinct, map_id_replace]
    exact hr.distinct
  · rw [service?_replace, hs]
    refine ⟨_, rfl, ?_⟩
    show s.methods <+: (if s.id = t.id then t else s).methods
    split
    · rename_i hid
      rw [← hid, (service?_eq_some hs).2, hs] at hfind
      rwa [Option.some.inj hfind]
    · exact List.prefix_rfl

/-- Adding a service whose number is not there. -/
theorem Sound.append (hr : r.Sound) (hs : s.Numbered) (hfind : r.service? s.id = none) :
    Sound { r with services := r.services ++ [s] } ∧
      Extends r { r with services := r.services ++ [s] } := by
  have hnew : ∀ t ∈ r.services, t.id ≠ s.id := by
    simpa [service?] using hfind
  refine ⟨⟨fun t ht => ?_, ?_⟩, fun id t ht => ⟨t, ?_, List.prefix_rfl⟩⟩
  · rcases List.mem_append.mp ht with ht | ht
    · exact hr.numbered t ht
    · exact List.mem_singleton.mp ht ▸ hs
  · exact nodup_map_append_singleton hr.distinct hnew
  · rw [service?, List.find?_append]
    exact Option.or_eq_some_iff.mpr (Or.inl ht)

/-- A service that is published is merged into the one of its number, or it is the first of its
number and comes last. -/
theorem publish_cases (h : r.publish s = .ok (renumbering, r')) :
    (∃ existing merged, r.service? s.id = some existing ∧
        existing.merge s = .ok (renumbering, merged) ∧ r' = r.replace merged) ∨
      r.service? s.id = none ∧ renumbering = (s.methods.map fun m => (m.id, m.id)) ∧
        r' = { r with services := r.services ++ [s] } := by
  rw [Registry.publish] at h
  split at h
  · cases h
  split at h
  · rename_i existing hfind
    cases hmerge : existing.merge s with
    | error e =>
      rw [hmerge] at h
      cases h
    | ok merged =>
      rw [hmerge] at h
      cases h
      exact Or.inl ⟨existing, merged.2, hfind, hmerge, rfl⟩
  · rename_i hfind
    cases h
    exact Or.inr ⟨hfind, rfl, rfl⟩

/-- A publication takes the methods of the service over; what is there already stays. -/
theorem Sound.publish (hr : r.Sound) (hs : s.Numbered)
    (h : r.publish s = .ok (renumbering, r')) :
    r'.Sound ∧ Extends r r' ∧
      ∃ t before, r'.service? s.id = some t ∧ TakenOver s t before renumbering := by
  rcases publish_cases h with ⟨existing, t, hfind, hmerge, rfl⟩ | ⟨hfind, rfl, rfl⟩
  · obtain ⟨hexisting, hid⟩ := service?_eq_some hfind
    obtain ⟨ht, htid, htaken⟩ := (hr.numbered existing hexisting).merge hs hmerge
    rw [← htid] at hid
    have hbegins : existing.methods <+: t.methods := htaken.methods ▸ List.prefix_append _ _
    obtain ⟨hsound, hextends⟩ := hr.replace ht (hid ▸ hfind) hbegins
    refine ⟨hsound, hextends, t, existing.methods, ?_, htaken⟩
    rw [service?_replace, hfind, Option.map_some, if_pos (hid ▸ (service?_eq_some hfind).2)]
  · obtain ⟨hsound, hextends⟩ := hr.append hs hfind
    refine ⟨hsound, hextends, s, [], ?_, hs.takenOver_self⟩
    have hnone : (r.services.find? fun t => t.id == s.id) = none := hfind
    simp [service?, List.find?_append, hnone]

/-- A service is published exactly when publication has not ended and the one of its number, if
there is one, can take it. -/
theorem Sound.publish_ok_iff (hr : r.Sound) :
    (∃ published, r.publish s = .ok published) ↔
      r.frozen = false ∧ ∀ t, r.service? s.id = some t → t.Takes s := by
  rw [Registry.publish]
  cases hfrozen : r.frozen with
  | true =>
    refine iff_of_false ?_ fun h => Bool.false_ne_true h.1.symm
    rintro ⟨published, h⟩
    cases h
  | false =>
    cases hfind : r.service? s.id with
    | none =>
      refine iff_of_true ⟨_, rfl⟩ ⟨rfl, fun t ht => ?_⟩
      cases ht
    | some existing =>
      have htakes : (∃ merged, existing.merge s = .ok merged) ↔ existing.Takes s :=
        (hr.numbered existing (service?_eq_some hfind).1).merge_ok_iff
      simp only [Bool.false_eq_true, if_false, Option.some.injEq, forall_eq', true_and, ← htakes]
      cases existing.merge s with
      | ok merged => exact iff_of_true ⟨_, rfl⟩ ⟨merged, rfl⟩
      | error e =>
        refine iff_of_false ?_ ?_
        · rintro ⟨published, h⟩
          cases h
        · rintro ⟨merged, h⟩
          cases h

/-- The registries that publications, refused or not, and the end of publication lead to. -/
inductive Reaches (r : Registry) : Registry → Prop where
  | refl : Reaches r r
  | publish {r' : Registry} {s : Service} (h : Reaches r r') (hs : s.Built) :
      Reaches r (stateAfter (publishing s) r')
  | freeze {r' : Registry} (h : Reaches r r') : Reaches r r'.freeze

/-- What a publication leaves behind is what it gives, or what was there. -/
theorem Distinct.stateAfter_publishing (hr : r.Distinct) (s : Service) :
    stateAfter (publishing s) r = stateAfter (atomically fun r => r.publish s) r := by
  rw [stateAfter, hr.publishing_run]
  rfl

/-- What is left behind by a publication of which nothing is known. -/
theorem Sound.stateAfter_publishing (hr : r.Sound) (hs : s.Numbered) :
    (stateAfter (publishing s) r).Sound ∧ Extends r (stateAfter (publishing s) r) := by
  rw [hr.distinct.stateAfter_publishing]
  refine stateAfter_atomically (P := fun r' => r'.Sound ∧ Extends r r') ⟨hr, .refl r⟩ ?_
  intro renumbering r' h
  obtain ⟨hsound, hextends, -⟩ := hr.publish hs h
  exact ⟨hsound, hextends⟩

theorem Reaches.sound (h : Reaches r r') (hr : r.Sound) : r'.Sound ∧ Extends r r' := by
  induction h with
  | refl => exact ⟨hr, .refl r⟩
  | publish h hs ih =>
    obtain ⟨hsound, hextends⟩ := ih.1.stateAfter_publishing hs.numbered
    exact ⟨hsound, ih.2.trans hextends⟩
  | freeze h ih => exact ⟨⟨ih.1.numbered, ih.1.distinct⟩, ih.2⟩

/-- Once publication has ended every publication is refused. -/
theorem publishing_frozen (h : r.frozen = true) (s : Service) :
    (publishing s).run r = .error (.started s.name) r := by
  simp [publishing, h]

/-- A service whose number is new comes last. -/
theorem stateAfter_publishing_of_none (hfrozen : r.frozen = false) (h : r.service? s.id = none) :
    stateAfter (publishing s) r = { r with services := r.services ++ [s] } := by
  simp [-bind_pure_comp, stateAfter, publishing, hfrozen, h]

theorem Reaches.frozen (h : Reaches r r') (hr : r.frozen = true) : r'.frozen = true := by
  induction h with
  | refl => exact hr
  | publish h hs ih => rwa [stateAfter, publishing_frozen ih]
  | freeze h ih => rfl

theorem sound_new : Sound new where
  numbered _ hs := absurd hs List.not_mem_nil
  distinct := List.nodup_nil

/-- What is published has been built. -/
theorem Reaches.built (h : Reaches .new r) : ∀ s ∈ r.services, s.Built := by
  induction h with
  | refl => exact fun s hs => absurd hs List.not_mem_nil
  | @publish r s h hs ih =>
    rw [(h.sound sound_new).1.distinct.stateAfter_publishing]
    refine stateAfter_atomically (P := fun r : Registry => ∀ s ∈ r.services, s.Built) ih ?_
    intro renumbering r' h t ht
    rcases publish_cases h with ⟨existing, merged, hfind, hmerge, rfl⟩ | ⟨-, -, rfl⟩
    · have hmerged : stateAfter (Service.merging s) existing = merged := by
        rw [Service.merging_eq, stateAfter, EStateM.run, atomically, hmerge]
      obtain ⟨t', ht', rfl⟩ := List.mem_map.mp ht
      split
      · exact hmerged ▸ .merge (ih existing (service?_eq_some hfind).1) hs
      · exact ih t' ht'
    · rcases List.mem_append.mp ht with ht | ht
      · exact ih t ht
      · exact List.mem_singleton.mp ht ▸ hs
  | freeze h ih => exact ih

/-- A method is found under the number of its service and its own, and no other is. -/
theorem Sound.method?_eq_some_iff (hr : r.Sound) (howned : ∀ s ∈ r.services, s.Owned)
    {id : ServiceId} {number : MethodId} {m : Method} :
    r.method? id number = some m ↔ m ∈ r.methods ∧ m.service = id ∧ m.id = number := by
  rw [method?, Option.bind_eq_some_iff]
  constructor
  · rintro ⟨s, hs, hm⟩
    obtain ⟨hpublished, rfl⟩ := service?_eq_some hs
    obtain ⟨hm, hnumber⟩ := (hr.numbered s hpublished).method?_eq_some_iff.mp hm
    exact ⟨List.mem_flatMap.mpr ⟨s, hpublished, hm⟩, howned s hpublished m hm, hnumber⟩
  · rintro ⟨hm, rfl, rfl⟩
    obtain ⟨s, hs, hm⟩ := List.mem_flatMap.mp hm
    have hfind : r.service? s.id = some s :=
      (find?_eq_some_iff_of_nodup hr.distinct).mpr ⟨hs, rfl⟩
    rw [howned s hs m hm]
    exact ⟨s, hfind, (hr.numbered s hs).method?_eq_some_iff.mpr ⟨hm, rfl⟩⟩

/-- A method that was taken over is found under its new number, in whatever becomes of the
registry. -/
theorem method?_of_takenOver (hr : r.Sound) (hs : s.Numbered) (hreaches : Reaches r r')
    {before : List Method} (hfind : r.service? s.id = some t)
    (htaken : TakenOver s t before renumbering) {p : MethodId × MethodId} (hp : p ∈ renumbering) :
    ∃ m, s.method? p.1 = some m ∧ r'.method? s.id p.2 = some { m with id := p.2 } := by
  obtain ⟨m, hm, hid, hmem⟩ := htaken.method hp
  obtain ⟨hsound, hextends⟩ := hreaches.sound hr
  obtain ⟨t', hfind', hbegins⟩ := hextends s.id t hfind
  have ht' : t'.Numbered := hsound.numbered t' (service?_eq_some hfind').1
  refine ⟨m, hs.method?_eq_some_iff.mpr ⟨hm, hid⟩, ?_⟩
  rw [method?, hfind', Option.bind_some]
  exact ht'.method?_eq_some_iff.mpr ⟨hbegins.subset hmem, rfl⟩

/-- For services that are built by settings, registrations and merges, and whatever is published in
whatever order: a service is published exactly when publication has not ended and the one of its
number, if there is one, can take it. A publication that is not refused gives, for each number of
the service and for no other, another number from 1 to 127, under which the same method is found
from then on. The methods of each service have different names, a publication that is refused
leaves the registry as it is, and once publication has ended all are refused. -/
theorem published_numbers_stay (hr : Reaches .new r) :
    (∀ t ∈ r.services, (t.methods.map Method.name).Nodup) ∧
    (∀ s : Service, (∃ published, r.publish s = .ok published) ↔
      r.frozen = false ∧ ∀ t, r.service? s.id = some t → t.Takes s) ∧
    (∀ s : Service, s.Built →
      match r.publish s with
      | .ok (renumbering, r') =>
        (publishing s).run r = .ok renumbering r' ∧
        renumbering.map Prod.fst = s.methods.map Method.id ∧
        (renumbering.map Prod.fst).Nodup ∧ (renumbering.map Prod.snd).Nodup ∧
        (∀ p ∈ renumbering, 1 ≤ p.2.toNat ∧ p.2.toNat ≤ maxMethodId) ∧
        ∀ r'', Reaches r' r'' → ∀ p ∈ renumbering,
          ∃ m, s.method? p.1 = some m ∧ r''.method? s.id p.2 = some { m with id := p.2 }
      | .error e => (publishing s).run r = .error e r) ∧
    ∀ r', Reaches r.freeze r' → ∀ s, (publishing s).run r' = .error (.started s.name) r' := by
  obtain ⟨hsound, -⟩ := hr.sound sound_new
  refine ⟨fun t ht => (hsound.numbered t ht).names, fun s => hsound.publish_ok_iff, fun s hs => ?_,
    fun r' hr' s => ?_⟩
  · have hrun := hsound.distinct.publishing_run s
    cases hpublish : r.publish s with
    | error e =>
      rw [hrun, EStateM.run, atomically, hpublish]
    | ok published =>
      obtain ⟨renumbering, r'⟩ := published
      obtain ⟨hsound', -, t, before, hfind, htaken⟩ := hsound.publish hs.numbered hpublish
      have ht : t.Numbered := hsound'.numbered t (service?_eq_some hfind).1
      refine ⟨?_, htaken.map_fst, htaken.map_fst ▸ hs.numbered.nodup_ids, htaken.nodup_snd ht,
        fun p hp => ?_, fun r'' hr'' p hp => ?_⟩
      · rw [hrun, EStateM.run, atomically, hpublish]
      · obtain ⟨m, -, -, hm⟩ := htaken.method hp
        exact ht.number_bounds hm
      · exact method?_of_takenOver hsound' hs.numbered hr'' hfind htaken hp
  · exact publishing_frozen (hr'.frozen rfl) s

/-- A second service of the same name, whose method gets the number after that of the first. -/
theorem published_numbers_stay_merged :
    let counting (method : String) := stateAfter (Service.registering (.ofName method) .echo)
      (.new "Counter" (.loopback 8080))
    let first := counting "add"
    let second := counting "reset"
    let r := stateAfter (publishing first) .new
    Reaches .new r ∧ second.Built ∧
      ∃ r', (publishing second).run r = .ok [(1, 2)] r' ∧
        ∃ m, second.method? 1 = some m ∧ r'.method? second.id 2 = some { m with id := 2 } := by
  intro counting first second r
  have hbuilt : ∀ method, (counting method).Built := fun method =>
    .register (.new "Counter" (.loopback 8080)) (.ofName method) .echo
  have hr : Reaches .new r := .publish .refl (hbuilt "add")
  have hservices : r = ⟨[first], false⟩ := rfl
  have hfind : r.service? second.id = some first := by
    rw [hservices]
    exact List.find?_cons_of_pos (beq_self_eq_true (serviceId "Counter"))
  have hid : second.id = first.id := rfl
  have haddress : second.address = first.address := rfl
  have hpublish : ∃ r', r.publish second = .ok ([(1, 2)], r') := by
    rw [publish, hfind, hservices, if_neg Bool.false_ne_true]
    simp only [Service.merge, hid, haddress, ne_eq, not_true_eq_false, if_false]
    exact ⟨_, rfl⟩
  obtain ⟨r', hpublish⟩ := hpublish
  obtain ⟨-, -, hnumbers, -⟩ := published_numbers_stay hr
  have hsecond := hnumbers second (hbuilt "reset")
  rw [hpublish] at hsecond
  obtain ⟨hrun, -, -, -, -, hlookup⟩ := hsecond
  exact ⟨hr, hbuilt "reset", r', hrun, hlookup r' .refl (1, 2) List.mem_cons_self⟩

end Registry

end RemoteCall
