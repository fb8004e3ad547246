import RemoteCall.Proofs.Json.Reading
import RemoteCall.Proofs.Json.RoundTrip
import RemoteCall.Serializer

/-!
# What a structured body can be read back as

Under the structured type, and under every type name without a serializer of its own, any value is
written as JSON. It is read back as the JSON that it was written as, unless this nests deeper than a
reader goes: then the body is refused, and the cause says why.

## Main results

* `Serializers.resolve_eq_object` : the names under which values are JSON.
* `Serializers.structured_read_back` : what becomes of a body that was written.
* `Serializers.ordered_of_deserialize` : structured values that were read have ordered objects.
-/

namespace RemoteCall

open Json

namespace Serializers

variable {s : Serializers} {name : String} {v : Value} {body : Bytes}

/-- The names under which values are JSON. -/
theorem resolve_eq_object
    (h : s.contains name = false ∨ s = standard ∧ name = Serializer.objectTypeName) :
    s.resolve name = .object name := by
  rcases h with hnone | ⟨rfl, rfl⟩
  · have hfind : (s.known.find? fun x => x.typeName == name) = Option.none :=
      List.find?_eq_none.mpr fun x hx hname =>
        List.any_eq_false.mp hnone x hx hname
    rw [resolve, hfind]
    rfl
  · decide

/-- Structured values that were read have ordered objects. -/
theorem ordered_of_deserialize (h : (Serializer.object name).deserialize body = .ok v) :
    v.toJson.Ordered := by
  unfold Serializer.deserialize at h
  dsimp only at h
  split at h
  · rename_i j hparse
    cases h
    exact ordered_of_parse hparse
  · cases h

/-- Any value can be written as a structured body. If no floating-point number occurs in its JSON,
the body is read as this JSON, or refused because it nests too deep. The objects are ordered, like
all that are read. -/
theorem structured_read_back
    (hname : s.contains name = false ∨ s = standard ∧ name = Serializer.objectTypeName)
    (hordered : v.toJson.Ordered) (hfree : v.toJson.FloatFree) :
    ∃ body, (s.resolve name).serialize v = .ok body ∧
      (v.toJson.depth ≤ maxDepth → (s.resolve name).deserialize body = .ok (.object v.toJson)) ∧
      (maxDepth < v.toJson.depth → ∃ e,
        (s.resolve name).deserialize body = .error (.json e) ∧ e.cause = .tooDeep) := by
  rw [resolve_eq_object hname]
  refine ⟨Utf8.encode v.toJson.render, rfl, fun hdepth => ?_, fun hdepth => ?_⟩
  · rw [Serializer.deserialize, parse_render hfree hordered hdepth]
  · obtain ⟨e, hparse, hcause⟩ := parse_render_of_lt_depth hfree hordered hdepth
    exact ⟨e, by rw [Serializer.deserialize, hparse], hcause⟩

/-- A map with a list and a text that needs escapes. -/
theorem structured_read_back_map :
    standard.contains "Map" = false ∧
      ∃ fits, let v := Value.object (object
          [("a", array [number (.integer (-1) fits), string "\"\x01é\\"]), ("b", bool true)])
        v.toJson.Ordered ∧ v.toJson.FloatFree ∧ v.toJson.depth ≤ maxDepth ∧
        ∃ body, (standard.resolve "Map").serialize v = .ok body ∧
          (standard.resolve "Map").deserialize body = .ok v := by
  have hname : standard.contains "Map" = false := by decide
  refine ⟨hname, by decide, ?_⟩
  intro v
  have hordered : v.toJson.Ordered := by
    refine ordered_object.mpr ⟨List.pairwise_pair.mpr (by decide), ?_⟩
    simp
  have hfree : v.toJson.FloatFree := by simp [v, Value.toJson]
  have hdepth : v.toJson.depth ≤ maxDepth := by decide
  obtain ⟨body, hbody, hread, -⟩ := structured_read_back (.inl hname) hordered hfree
  exact ⟨hordered, hfree, hdepth, body, hbody, hread hdepth⟩

/-! ### A body that is refused -/

/-- An empty array inside this many arrays. -/
def nestedArrays : Nat → Json
  | 0 => array []
  | n + 1 => array [nestedArrays n]

theorem depth_nestedArrays (n : Nat) : (nestedArrays n).depth = n + 1 := by
  induction n with
  | zero => rfl
  | succ n ih => simp [nestedArrays, depth, depthOfItems, ih]

theorem ordered_nestedArrays (n : Nat) : (nestedArrays n).Ordered := by
  induction n with
  | zero => simp [nestedArrays]
  | succ n ih => simp [nestedArrays, ih]

theorem floatFree_nestedArrays (n : Nat) : (nestedArrays n).FloatFree := by
  induction n with
  | zero => simp [nestedArrays]
  | succ n ih => simp [nestedArrays, ih]

theorem encode_nestedArrays (n : Nat) :
    Utf8.encode (nestedArrays n).render =
      List.replicate (n + 1) 0x5b ++ List.replicate (n + 1) 0x5d := by
  induction n with
  | zero => decide
  | succ n ih =>
    have hitems : Utf8.encode (renderItems [nestedArrays n]) =
        Utf8.encode (nestedArrays n).render := by
      rw [encode_renderItems]
      exact List.append_nil _
    rw [nestedArrays, encode_render_array, hitems, ih, List.append_assoc, ← List.replicate_succ',
      List.replicate_succ (n := n + 1)]
    rfl

/-- A value of 128 arrays is written and not read back. -/
theorem nestedArrays_not_read_back :
    let v := Value.object (nestedArrays 127)
    let body : Bytes := List.replicate 128 0x5b ++ List.replicate 128 0x5d
    v.toJson.Ordered ∧ v.toJson.FloatFree ∧
      (standard.resolve Serializer.objectTypeName).serialize v = .ok body ∧
      (standard.resolve Serializer.objectTypeName).deserialize body ≠ .ok (.object v.toJson) := by
  intro v body
  have hbody : Utf8.encode (nestedArrays 127).render = body := encode_nestedArrays 127
  have hordered := ordered_nestedArrays 127
  have hfree := floatFree_nestedArrays 127
  have hdeep : maxDepth < (nestedArrays 127).depth := by
    rw [depth_nestedArrays]
    decide
  obtain ⟨e, hparse, -⟩ := parse_render_of_lt_depth hfree hordered hdeep
  rw [hbody] at hparse
  rw [resolve_eq_object (.inr ⟨rfl, rfl⟩)]
  refine ⟨hordered, hfree, congrArg Except.ok hbody, ?_⟩
  rw [Serializer.deserialize, hparse]
  intro heq
  cases heq

end Serializers

end RemoteCall
