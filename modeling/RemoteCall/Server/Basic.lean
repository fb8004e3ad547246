import RemoteCall.Server.DelayList

/-!
# The state of a server

A running server holds its published services, the executors of their methods, the delay list and
its connections. Everything that happens to it is one of the steps in `Server.Dispatch` and
`Server.Steps`; each of them is what one thread does without being interrupted.

Handlers that wait are released all at once. Time is virtual.
-/

namespace RemoteCall

/-- A running server. -/
structure Server where
  registry : Registry
  groups : Server.Groups
  delayed : Server.DelayList
  /-- The server takes no more requests. -/
  stopping : Bool
  connections : Server.Connections
  /-- The handlers that wait may go on. -/
  released : Bool
  /-- How many handlers that wait have been started. -/
  started : Nat
  nowMs : Nat
  /-- How many requests have become tasks. -/
  taken : Nat
  /-- How the tasks ended that have ended, in order. -/
  endings : List Server.TaskEnd

namespace Server

/-- The fault of requests that come or are left over when the server stops. -/
def stoppingFault : Fault :=
  ⟨.serverStopping, "server shutting down"⟩

/-- The fault of a request that was refused too often. -/
def busyFault (attempts : Nat) : Fault :=
  ⟨.serviceBusy, s!"executor queue full after {attempts} attempts"⟩

/-- A server of published services, with nothing to do. -/
def new (registry : Registry) (config : DelayConfig) (connections : Connections) : Server :=
  { registry
    groups := .ofMethods registry.methods
    delayed := .new config
    stopping := false
    connections
    released := false
    started := 0
    nowMs := 0
    taken := 0
    endings := [] }

/-- The executors. -/
def executors (s : Server) : List Executor :=
  s.groups.executors

/-- The messages queued on a connection, in the order of their requests. -/
def answersOn (s : Server) (c : ConnectionId) : List Outbound :=
  Outbound.sorted (((s.connections.get? c).map Connection.outbox).getD [])

/-- Changes a connection. -/
def onConnection (s : Server) (c : ConnectionId) (f : Connection → Connection) : Server :=
  { s with connections := s.connections.modify c f }

/-- Carries out signals for read gates. -/
def signalAll (s : Server) (signals : List GateSignal) : Server :=
  { s with connections := s.connections.signalAll signals }

/-- Pauses a connection. -/
def pause (s : Server) (c : ConnectionId) : Server :=
  s.signalAll [.pause c]

/-- Resumes a connection. -/
def resume (s : Server) (c : ConnectionId) : Server :=
  s.signalAll [.resume c]

/-- Puts an executor back. -/
def setExecutor (s : Server) (i : ExecutorIndex) (e : Executor) : Server :=
  { s with groups := { s.groups with executors := s.groups.executors.set i e } }

/-- Takes down how a task ended. -/
def record (s : Server) (e : TaskEnd) : Server :=
  { s with endings := s.endings ++ [e] }

/-- Answers a task with a fault in place of running it. -/
def refuse (s : Server) (t : Task) (fault : Fault) : Server :=
  (s.onConnection t.connection (t.fail fault)).record (.refused t fault)

/-- Offers a task to an executor; `none` if there is no such executor. -/
def submit (s : Server) (i : ExecutorIndex) (t : Task) : Option Offer × Server :=
  match s.executors[i]? with
  | none => (none, s)
  | some e =>
    let (offer, e, signals) := e.submit t
    (some offer, (s.setExecutor i e).signalAll signals)

/-- Delays a task that its executor refused. Its connection is paused while it is parked. -/
def delay (s : Server) (t : Task) (i : ExecutorIndex) : Server :=
  match s.delayed.add s.nowMs t i with
  | (.parked, delayed) => { s with delayed }.pause t.connection
  | (.givenUp, _) => (s.refuse t (busyFault s.delayed.config.maxAttempts)).resume t.connection
  | (.closed, _) => s.refuse t stoppingFault

end Server

end RemoteCall
