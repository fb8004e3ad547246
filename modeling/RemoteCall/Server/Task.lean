import RemoteCall.Server.Connection
import RemoteCall.Service.Method

/-!
# Tasks

A task is one decoded request on its way to a thread. It ends in one of two ways: it is run, and
`Task.reply` writes what came out of it, or it is refused with a fault.
-/

namespace RemoteCall.Server

/-- A decoded request. -/
structure Task where
  header : Header
  method : Method
  parameter : Value
  connection : ConnectionId
  /-- How often the task was put on the delay list. -/
  attempts : Nat
  /-- The number of the task among those of its server; no two of them share one. -/
  serial : Nat

namespace Task

/-- A task that was never delayed, with the first number. -/
def new (header : Header) (method : Method) (parameter : Value) (connection : ConnectionId) :
    Task :=
  { header, method, parameter, connection, attempts := 0, serial := 0 }

/-- The task under another number. -/
def numbered (t : Task) (serial : Nat) : Task :=
  { t with serial }

/-- The request that the task answers. -/
def request (t : Task) : RequestId :=
  t.header.request

/-- The fault for a handler that broke off. -/
def panicFault (text : Option String) : Fault :=
  ⟨.serverError, text.getD "handler panicked"⟩

/-- Writes how the handler ended. A result that cannot be written is a fault. -/
def reply (t : Task) (outcome : Outcome) (c : Connection) : Connection :=
  match outcome with
  | .value v =>
    match c.sendValue t.header t.method.returnSerializer v with
    | (.ok (), c) => c
    | (.error e, c) => c.refuse t.header ⟨.serializerError, e.message⟩
  | .fault f => c.refuse t.header f
  | .panic text => c.refuse t.header (panicFault text)

/-- Runs the handler and answers on the connection. -/
def run (t : Task) (c : Connection) : Connection :=
  t.reply (t.method.invoke t.parameter) c

/-- Answers with a fault in place of running. -/
def fail (t : Task) (fault : Fault) (c : Connection) : Connection :=
  c.refuse t.header fault

/-- The task in diagnostics. -/
def text (t : Task) : String :=
  Text.record "DispatchTask"
    [("request", Text.record "RequestRef"
        [("service_id", toString t.header.service), ("request_id", toString t.header.request),
         ("method_id", toString t.header.method)]),
     ("method", Text.quoted t.method.name), ("connection", toString t.connection),
     ("attempts", toString t.attempts)]

end Task

/-- How a task ended. -/
inductive TaskEnd where
  /-- Its handler ran, and the outcome was answered. -/
  | ran (t : Task)
  /-- It was answered with a fault in place of running. -/
  | refused (t : Task) (fault : Fault)

/-- The task that ended. -/
def TaskEnd.task : TaskEnd → Task
  | ran t => t
  | refused t _ => t

end RemoteCall.Server
