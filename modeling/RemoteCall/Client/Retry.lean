import RemoteCall.Value
import RemoteCall.Error

/-!
# Attempts of a call

A call is attempted until an attempt gives a result or a lasting failure. An attempt without an
answer uses up one of a bounded number of retries. When nothing could be sent the call pauses, and
only pauses that add up to a whole call timeout use up a retry. A busy server costs a pause and
nothing else.
-/

namespace RemoteCall

/-- The settings of a client. -/
structure ClientConfig where
  /-- How long one attempt waits for its answer. -/
  callTimeoutMs : Nat
  maxRetries : Nat
  /-- The pause after an attempt that could not be sent or met a busy server. -/
  unwritablePauseMs : Nat
  connectTimeoutMs : Nat
  /-- The wait before the first reconnect. -/
  reconnectDelayMs : Nat
  /-- The wait before every later reconnect. -/
  reconnectRetryDelayMs : Nat
  writeQueueCapacity : Nat
  heartbeatIntervalMs : Nat
  maxMissedHeartbeats : Nat
  /-- How long a new client waits for the description of its service. -/
  metadataTimeoutMs : Nat
  maxFrameSize : Nat
  deriving DecidableEq, Repr

namespace ClientConfig

/-- The settings of a client that asks for nothing else. -/
def standard : ClientConfig :=
  { callTimeoutMs := 30000
    maxRetries := 3
    unwritablePauseMs := 10
    connectTimeoutMs := 5000
    reconnectDelayMs := 1000
    reconnectRetryDelayMs := 60000
    writeQueueCapacity := 1024
    heartbeatIntervalMs := 60000
    maxMissedHeartbeats := 3
    metadataTimeoutMs := 30000
    maxFrameSize := 1048576 }

instance : Inhabited ClientConfig := ⟨standard⟩

end ClientConfig

/-- How an attempt ends. -/
inductive Attempt where
  | done (v : Value)
  /-- Nothing was sent: there was no connection that takes a frame. -/
  | unwritable
  /-- The server answered that it is busy. -/
  | busy (e : Error)
  /-- No answer came, and the connection is still there or not. -/
  | unanswered (request : RequestId) (connected : Bool)
  /-- A failure that another attempt does not mend. -/
  | failed (e : Error)

/-- The retries used up so far, and the pauses since the last of them. -/
structure CallProgress where
  retries : Nat
  pausedMs : Nat
  deriving DecidableEq, Repr

/-- What follows an attempt. -/
inductive CallStep where
  | finished (result : Except Error Value)
  | again (pauseMs : Nat) (progress : CallProgress)

namespace CallProgress

/-- No attempt was made yet. -/
def start : CallProgress := ⟨0, 0⟩

/-- Attempts are counted in 32 bits, and nothing keeps the count from running over. -/
def attemptsModulus : Nat := 4294967296

/-- Uses up a retry, or gives the call up; `request` is the last one that was sent, or zero. -/
def retry (p : CallProgress) (config : ClientConfig) (request : RequestId) : CallStep :=
  if config.maxRetries ≤ p.retries then
    .finished (.error (.retriesExhausted ((p.retries + 1) % attemptsModulus) request))
  else .again 0 { p with retries := p.retries + 1 }

/-- What follows an attempt. -/
def after (p : CallProgress) (config : ClientConfig) : Attempt → CallStep
  | .done v => .finished (.ok v)
  | .failed e => .finished (.error e)
  | .busy _ => .again config.unwritablePauseMs p
  | .unwritable =>
    if p.pausedMs < config.callTimeoutMs then
      .again config.unwritablePauseMs { p with pausedMs := p.pausedMs + config.unwritablePauseMs }
    else { p with pausedMs := 0 }.retry config 0
  | .unanswered request _ => p.retry config request

end CallProgress

end RemoteCall
