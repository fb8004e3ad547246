import RemoteCall.Server.Executor
import RemoteCall.Service.Registry

/-!
# The executors of a server

When a server starts, each method is bound to an executor. Methods that share a group run on one
executor, configured by the first of them; every other method has an executor of its own.
-/

namespace RemoteCall.Server

/-- A method by the numbers on the wire. -/
abbrev MethodKey := ServiceId × MethodId

/-- Where an executor stands in the list of executors. -/
abbrev ExecutorIndex := Nat

/-- The key of a method. -/
def keyOf (m : Method) : MethodKey :=
  (m.service, m.id)

/-- The executors, and which methods are bound to them. -/
structure Groups where
  executors : List Executor
  bindings : List (MethodKey × ExecutorIndex)
  /-- The executors of shared groups by the name of the group. -/
  shared : List (String × ExecutorIndex)

namespace Groups

/-- No executors. -/
def empty : Groups := ⟨[], [], []⟩

/-- Adds an executor; gives where it stands. -/
def create (g : Groups) (name : String) (execution : Execution) : ExecutorIndex × Groups :=
  (g.executors.length, { g with executors := g.executors ++ [.new name execution] })

/-- The executor of a method, which is added if there is none. -/
def executorFor (g : Groups) (m : Method) : ExecutorIndex × Groups :=
  let execution := m.execution
  if execution.shared then
    match g.shared.find? fun s => s.1 == execution.group with
    | some (_, i) => (i, g)
    | none =>
      let (i, g) := g.create ("group-" ++ execution.group) execution
      (i, { g with shared := g.shared ++ [(execution.group, i)] })
  else g.create (toString m.service ++ "." ++ m.name) execution

/-- Binds a method. -/
def bind (g : Groups) (m : Method) : Groups :=
  let (i, g) := g.executorFor m
  { g with bindings := g.bindings.filter (fun b => b.1 != keyOf m) ++ [(keyOf m, i)] }

/-- The executors of methods, bound in order. -/
def ofMethods (methods : List Method) : Groups :=
  methods.foldl bind empty

/-- The executors of services that are listed in this order. -/
def ofServices (services : List Service) : Groups :=
  ofMethods (services.flatMap Service.methods)

/-- The executor that a method is bound to. -/
def index? (g : Groups) (key : MethodKey) : Option ExecutorIndex :=
  (g.bindings.find? fun b => b.1 == key).map Prod.snd

/-- The executor that a method is bound to. -/
def executor? (g : Groups) (key : MethodKey) : Option Executor :=
  (g.index? key).bind fun i => g.executors[i]?

/-- Closes every executor. -/
def close (g : Groups) : Groups :=
  { g with executors := g.executors.map Executor.close }

end Groups

end RemoteCall.Server
