import RemoteCall.Server.Groups

/-!
# Executors that are built for methods

Binding methods one after another adds executors and never removes one, so a method stays bound to
an executor that is there, and every executor is a new one.

## Main results

* `Groups.built_ofMethods` : what holds of the executors that a server starts with.
-/

namespace RemoteCall.Server.Groups

/-- Groups whose methods are bound to executors that are there and new. -/
structure Built (g : Groups) : Prop where
  binding : ∀ b ∈ g.bindings, b.2 < g.executors.length
  shared : ∀ b ∈ g.shared, b.2 < g.executors.length
  executor : ∀ e ∈ g.executors, ∃ name execution, e = .new name execution

variable {g : Groups}

theorem built_empty : Built empty :=
  ⟨by rintro _ ⟨⟩, by rintro _ ⟨⟩, by rintro _ ⟨⟩⟩

theorem Built.create (hg : g.Built) (name : String) (execution : Execution) :
    (g.create name execution).2.Built ∧
      (g.create name execution).1 < (g.create name execution).2.executors.length := by
  have hlength : (g.create name execution).2.executors.length = g.executors.length + 1 := by
    simp [Groups.create]
  refine ⟨⟨fun b hb => ?_, fun b hb => ?_, fun e he => ?_⟩, ?_⟩
  · rw [hlength]
    exact Nat.lt_succ_of_lt (hg.binding b hb)
  · rw [hlength]
    exact Nat.lt_succ_of_lt (hg.shared b hb)
  · rcases List.mem_append.mp he with hold | hnew
    · exact hg.executor e hold
    · exact ⟨name, execution, List.mem_singleton.mp hnew⟩
  · rw [hlength]
    exact Nat.lt_succ_self _

theorem Built.executorFor (hg : g.Built) (m : Method) :
    (g.executorFor m).2.Built ∧ (g.executorFor m).1 < (g.executorFor m).2.executors.length := by
  unfold Groups.executorFor
  dsimp only
  split
  · split
    · rename_i name i hfind
      exact ⟨hg, hg.shared _ (List.mem_of_find?_eq_some hfind)⟩
    · have hcreate := hg.create ("group-" ++ m.execution.group) m.execution
      refine ⟨⟨hcreate.1.binding, fun b hb => ?_, hcreate.1.executor⟩, hcreate.2⟩
      rcases List.mem_append.mp hb with hold | hnew
      · exact hcreate.1.shared b hold
      · rw [List.mem_singleton.mp hnew]
        exact hcreate.2
  · exact hg.create _ m.execution

theorem Built.bind (hg : g.Built) (m : Method) : (g.bind m).Built := by
  obtain ⟨hbuilt, hindex⟩ := hg.executorFor m
  refine ⟨fun b hb => ?_, hbuilt.shared, hbuilt.executor⟩
  rcases List.mem_append.mp hb with hold | hnew
  · exact hbuilt.binding b (List.mem_filter.mp hold).1
  · rw [List.mem_singleton.mp hnew]
    exact hindex

/-- The executors of methods are new, and the methods are bound to them. -/
theorem built_ofMethods (methods : List Method) : (ofMethods methods).Built := by
  have hfold : ∀ g : Groups, g.Built → (methods.foldl Groups.bind g).Built := by
    induction methods with
    | nil => exact fun _ hg => hg
    | cons m methods ih => exact fun g hg => ih (g.bind m) (hg.bind m)
  exact hfold empty built_empty

end RemoteCall.Server.Groups
