import RemoteCall.Service.Basic

/-!
# Services in diagnostics

The one-line forms in which services, methods and their execution appear in diagnostic output:
the kind of thing, then its fields in braces.
-/

namespace RemoteCall

/-- A named record with its fields. -/
def Text.record (name : String) (fields : List (String × String)) : String :=
  name ++ " \x7b " ++ ", ".intercalate (fields.map fun f => f.1 ++ ": " ++ f.2) ++ " \x7d"

/-- A truth value. -/
def Text.ofBool (b : Bool) : String :=
  if b then "true" else "false"

/-- A duration in the largest unit that leaves a whole part, with the decimals it needs. -/
def Text.duration (ms : Nat) : String :=
  if ms = 0 then "0ns"
  else if ms < 1000 then toString ms ++ "ms"
  else
    let thousandths := toString (1000 + ms % 1000)
    let decimals := ((thousandths.toList.drop 1).reverse.dropWhile (· == '0')).reverse
    toString (ms / 1000) ++ (if decimals.isEmpty then "" else "." ++ String.ofList decimals) ++ "s"

/-- The threads in diagnostics. -/
def Threads.text : Threads → String
  | single => "Single"
  | pool min max => Text.record "Pool" [("min", toString min), ("max", toString max)]

/-- The overflow mode in diagnostics. -/
def OverflowMode.text : OverflowMode → String
  | delay => "Delay"
  | waterMark => "WaterMark"

/-- The execution in diagnostics. -/
def Execution.text (e : Execution) : String :=
  Text.record "ExecutorConfig"
    [("kind", e.threads.text), ("group", Text.quoted e.group), ("shared", Text.ofBool e.shared),
     ("capacity", toString e.capacity), ("overflow", e.overflow.text),
     ("keep_alive", Text.duration e.keepAliveMs)]

/-- The method in diagnostics. -/
def Method.text (m : Method) : String :=
  Text.record "MethodDescriptor"
    [("service_id", toString m.service), ("method_id", toString m.id),
     ("name", Text.quoted m.name), ("parameter_type", Text.quoted m.parameterType),
     ("return_type", Text.quoted m.returnType), ("executor", m.execution.text),
     ("has_handler", Text.ofBool m.handler.isSome)]

/-- The service in diagnostics. -/
def Service.text (s : Service) : String :=
  Text.record "ServiceDescriptor"
    [("service_id", toString s.id), ("name", Text.quoted s.name), ("publish", s.address.text),
     ("weight", s!"Weight({s.weight.val})"), ("methods", toString s.methods.length)]

end RemoteCall
